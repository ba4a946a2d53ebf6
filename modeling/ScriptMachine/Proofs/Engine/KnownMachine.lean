import ScriptMachine.Proofs.Engine.Triple
import ScriptMachine.Proofs.Model.KnownStore

namespace ScriptMachine

structure Frame.Known (n : Nat) (f : Frame) : Prop where
  locals : ∀ v ∈ f.locals, v.Known n
  this : f.this.Known n
  constructing : ∀ v ∈ f.constructing, v.Known n

structure Machine.Known (n : Nat) (m : Machine) : Prop where
  store : m.store.Known n
  globals : m.globals.All (Value.Known n)
  frames : ∀ f ∈ m.frames, f.Known n
  stack : ∀ v ∈ m.stack, v.Known n

theorem Frame.Known.mono {n k : Nat} {f : Frame} (h : f.Known n) (hk : n ≤ k) : f.Known k :=
  ⟨fun v hv => (h.locals v hv).mono hk, h.this.mono hk, fun v hv => (h.constructing v hv).mono hk⟩

namespace Machine.Known

variable {n : Nat} {m : Machine}

theorem withStore (h : m.Known n) {store : Store} (hs : store.Known n) :
    Machine.Known n { m with store } :=
  ⟨hs, h.globals, h.frames, h.stack⟩

theorem withStack (h : m.Known n) {stack : List Value} (hs : ∀ v ∈ stack, v.Known n) :
    Machine.Known n { m with stack } :=
  ⟨h.store, h.globals, h.frames, hs⟩

theorem grow (h : m.Known n) {store : Store} (hs : store.Known (n + 1)) :
    Machine.Known (n + 1) { m with store } :=
  ⟨hs, h.globals.imp fun _ hv => hv.mono (Nat.le_succ n),
    fun f hf => (h.frames f hf).mono (Nat.le_succ n),
    fun v hv => (h.stack v hv).mono (Nat.le_succ n)⟩

end Machine.Known

/-- A call of a native function with known values. -/
structure NativeBody.KnownCall (n : Nat) (body : NativeBody) (this : Value) (args : List Value)
    (constructing : Option Value) : Prop where
  body : body.Known n
  this : this.Known n
  args : ∀ v ∈ args, v.Known n
  constructing : ∀ v ∈ constructing, v.Known n

def Start.Known (n : Nat) : Start → Prop
  | .entered => True
  | .native body this args constructing => body.KnownCall n this args constructing

def Step.Known (n : Nat) : Step → Prop
  | .next => True
  | .returned v => v.Known n
  | .native body this args constructing => body.KnownCall n this args constructing
  | .compare _ a b => a.Known n ∧ b.Known n

namespace Exec

variable {α β : Type} {n : Nat}

/-- After a signal, which may have come when there were more types already. -/
def Broken (n : Nat) (s : Signal) (m : Machine) : Prop :=
  ∃ k, n ≤ k ∧ m.Known k ∧ s.Known k

/-- A computation that makes no type, and gives results with `Q`. -/
abbrev Stays (n : Nat) (x : Exec α) (Q : α → Prop := fun _ => True) : Prop :=
  Triple (Machine.Known n) x (fun a m => m.Known n ∧ Q a) (Broken n)

/-- A computation that may make types. -/
abbrev Grows (n : Nat) (x : Exec α) (Q : Nat → α → Prop) : Prop :=
  Triple (Machine.Known n) x (fun a m => ∃ k, n ≤ k ∧ m.Known k ∧ Q k a) (Broken n)

section Rules

variable {x : Exec α} {f : α → Exec β} {Q : α → Prop} {J : β → Machine → Prop}

theorem Broken.of_known {m : Machine} {s : Signal} (hm : m.Known n) (hs : s.Known n) :
    Broken n s m :=
  ⟨n, Nat.le_refl n, hm, hs⟩

theorem Broken.mono {k : Nat} {m : Machine} {s : Signal} (h : Broken k s m) (hk : n ≤ k) :
    Broken n s m := by
  obtain ⟨j, hj, hm, hs⟩ := h
  exact ⟨j, Nat.le_trans hk hj, hm, hs⟩

theorem known_bind (hx : Stays n x Q)
    (hf : ∀ a, Q a → Triple (Machine.Known n) (f a) J (Broken n)) :
    Triple (Machine.Known n) (x >>= f) J (Broken n) :=
  Triple.bind hx fun a m hm => hf a hm.2 m hm.1

theorem Stays.grows {R : Nat → α → Prop} (hx : Stays n x Q) (hR : ∀ a, Q a → R n a) :
    Grows n x R :=
  hx.conseq (fun _ h => h) (fun a _ h => ⟨n, Nat.le_refl n, h.1, hR a h.2⟩) fun _ _ h => h

theorem Grows.bind {Q : Nat → α → Prop} {R : Nat → β → Prop} (hx : Grows n x Q)
    (hf : ∀ k a, n ≤ k → Q k a → Grows k (f a) R) : Grows n (x >>= f) R := by
  refine Triple.bind hx fun a m hm => ?_
  obtain ⟨k, hk, hm, ha⟩ := hm
  refine (hf k a hk ha m hm).mono (fun b m' h => ?_) fun s m' h => h.mono hk
  obtain ⟨j, hj, hm', hb⟩ := h
  exact ⟨j, Nat.le_trans hk hj, hm', hb⟩

theorem stays_pure {a : α} (h : Q a) : Stays n (pure a) Q :=
  .pure fun _ hm => ⟨hm, h⟩

theorem known_fail {c : Cause} : Triple (Machine.Known n) (fail c) J (Broken n) :=
  .fail fun _ hm => .of_known hm trivial

theorem known_get {f : Machine → Exec β}
    (h : ∀ m : Machine, m.Known n → Triple (Machine.Known n) (f m) J (Broken n)) :
    Triple (Machine.Known n) (get >>= f) J (Broken n) :=
  .get_bind fun m hm => (h m hm).conseq (fun _ hm' => hm'.2) (fun _ _ h => h) fun _ _ h => h

theorem stays_modify {g : Machine → Machine} (h : ∀ m : Machine, m.Known n → (g m).Known n) :
    Stays n (modify g) :=
  .modify fun m hm => ⟨h m hm, trivial⟩

theorem stays_ofExcept {r : Except Cause α} (h : ∀ a, r = .ok a → Q a) : Stays n (ofExcept r) Q :=
  .ofExcept (fun a _ ha hm => ⟨hm, h a ha⟩) fun _ _ _ hm => .of_known hm trivial

theorem stays_alloc {g : Store → α × Store}
    (h : ∀ s : Store, s.Known n → Q (g s).1 ∧ (g s).2.Known n) : Stays n (alloc g) Q :=
  .alloc fun m hm => ⟨hm.withStore (h m.store hm.store).2, (h m.store hm.store).1⟩

theorem stays_alter {g : Store → Except Cause Store}
    (h : ∀ s s' : Store, s.Known n → g s = .ok s' → s'.Known n) : Stays n (alter g) := by
  unfold alter
  refine known_get fun m hm => known_bind (stays_ofExcept fun _ ha => ha) fun store hs => ?_
  exact stays_modify fun m' hm' => hm'.withStore (h _ _ hm.store hs)

end Rules

theorem known_top {k : Frame → Exec β} {J : β → Machine → Prop}
    (h : ∀ f : Frame, f.Known n → Triple (Machine.Known n) (k f) J (Broken n)) :
    Triple (Machine.Known n) (top >>= k) J (Broken n) := by
  refine known_bind (Q := Frame.Known n) ?_ h
  unfold top
  refine known_get fun m hm => ?_
  split
  · rename_i f rest hf
    exact stays_pure (hm.frames f (hf ▸ List.mem_cons_self ..))
  · exact known_fail

theorem stays_setTop {g : Frame → Frame} (hg : ∀ f : Frame, f.Known n → (g f).Known n) :
    Stays n (setTop g) := by
  unfold setTop
  refine known_get fun m hm => ?_
  split
  · rename_i f rest hf
    have hframes := hm.frames
    rw [hf, List.forall_mem_cons] at hframes
    refine stays_modify fun m' hm' => ?_
    exact ⟨hm'.store, hm'.globals, List.forall_mem_cons.2 ⟨hg f hframes.1, hframes.2⟩, hm'.stack⟩
  · exact known_fail

theorem stays_push {v : Value} (hv : v.Known n) : Stays n (push v) :=
  stays_modify fun _ hm => hm.withStack (List.forall_mem_cons.2 ⟨hv, hm.stack⟩)

theorem stays_pop : Stays n pop (Value.Known n) := by
  unfold pop
  refine known_get fun m hm => ?_
  split
  · exact known_fail
  · split
    · rename_i v rest hs
      have hstack := hm.stack
      rw [hs, List.forall_mem_cons] at hstack
      exact .bind (J := fun _ => Machine.Known n) (.set fun _ _ => hm.withStack hstack.2) fun _ =>
        stays_pure hstack.1
    · exact known_fail

theorem stays_popMany (count : Nat) :
    Stays n (popMany count) fun vs => ∀ v ∈ vs, v.Known n := by
  unfold popMany
  refine known_get fun m hm => ?_
  split
  · exact known_fail
  · refine .bind (J := fun _ => Machine.Known n) (.set fun _ _ => ?_) fun _ => stays_pure ?_
    · exact hm.withStack fun v hv => hm.stack v (List.mem_of_mem_drop hv)
    · exact fun v hv => hm.stack v (List.mem_of_mem_take (List.mem_reverse.1 hv))

theorem stays_popCounted (count : Nat) :
    Stays n (popCounted count) fun vs => ∀ v ∈ vs, v.Known n := by
  unfold popCounted
  refine known_get fun m _ => ?_
  split
  · exact .overflow
  · exact stays_popMany count

theorem stays_newArray {items : List Value} (hi : ∀ v ∈ items, v.Known n) :
    Stays n (newArray items) (Value.Known n) :=
  known_bind (Q := fun _ => True)
    (stays_alloc fun _ hs => ⟨trivial, hs.newArray fun v hv => hi v (List.mem_toArray.1 hv)⟩)
    fun _ _ => stays_pure trivial

theorem stays_jump (target : Nat) : Stays n (jump target) :=
  stays_setTop fun _ hf => ⟨hf.locals, hf.this, hf.constructing⟩

theorem stays_name (i : Nat) : Stays n (name i) := by
  unfold name
  refine known_top fun f _ => ?_
  split
  · exact stays_pure trivial
  · exact known_fail

theorem stays_access : Stays n access :=
  known_get fun _ _ => stays_pure trivial

theorem stays_find (receiver : Value) (name : String) :
    Stays n (find receiver name) (Value.Known n) :=
  known_get fun _ hm => known_bind stays_access fun _ _ => stays_ofExcept fun _ hv => hm.store.find hv

theorem stays_statics : Stays n statics (Statics.Known n) :=
  known_top fun _ _ => known_get fun _ hm => stays_pure (hm.store.staticsCell _)

theorem bindLocals_known {size : Nat} {args : List Value} (ha : ∀ v ∈ args, v.Known n) :
    ∀ v ∈ bindLocals size args, v.Known n := by
  intro v hv
  rcases List.mem_append.1 (List.mem_toArray.1 hv) with hv | hv
  · exact ha v (List.mem_of_mem_take hv)
  · rw [(List.mem_replicate.1 hv).2]
    trivial

theorem stays_bindArguments (t : Template) {args : List Value} (ha : ∀ v ∈ args, v.Known n) :
    Stays n (bindArguments t args) fun locals => ∀ v ∈ locals, v.Known n := by
  have hlocals : ∀ v ∈ bindLocals t.frameSize (args.take t.arity.positionalLimit), v.Known n :=
    bindLocals_known fun v hv => ha v (List.mem_of_mem_take hv)
  unfold bindArguments
  dsimp only
  split
  · exact known_fail
  · split
    · refine known_bind (stays_newArray fun v hv => ha v (List.mem_of_mem_drop hv)) fun tail ht => ?_
      exact stays_pure (forall_mem_setIfInBounds hlocals ht)
    · exact stays_pure hlocals

theorem stays_deeper : Stays n deeper := by
  unfold deeper
  refine known_get fun m _ => ?_
  dsimp only
  split
  · exact stays_pure trivial
  · exact known_fail

theorem stays_askGuard (depth : Nat) (name : String) : Stays n (askGuard depth name) := by
  unfold askGuard
  refine known_get fun m _ => ?_
  split
  · exact stays_pure trivial
  · refine known_bind (stays_modify fun m hm => ?_) fun _ _ => ?_
    · exact ⟨hm.store, hm.globals, hm.frames, hm.stack⟩
    · split
      · exact known_fail
      · exact stays_pure trivial

section Calls

variable {this : Value} {args : List Value} {constructing : Option Value}

theorem stays_pushFrame (id : FunctionId) (hthis : this.Known n) (hargs : ∀ v ∈ args, v.Known n)
    (hcon : ∀ v ∈ constructing, v.Known n) : Stays n (pushFrame id this args constructing) := by
  unfold pushFrame
  refine known_bind stays_deeper fun depth _ => known_get fun m _ => ?_
  refine known_bind (stays_askGuard depth _) fun _ _ => ?_
  refine known_bind (stays_bindArguments _ hargs) fun locals hl => stays_modify fun m hm => ?_
  exact ⟨hm.store, hm.globals, List.forall_mem_cons.2 ⟨⟨hl, hthis, hcon⟩, hm.frames⟩, hm.stack⟩

theorem stays_startNative (id : NativeId) (hthis : this.Known n) (hargs : ∀ v ∈ args, v.Known n)
    (hcon : ∀ v ∈ constructing, v.Known n) :
    Stays n (startNative id this args constructing) (Start.Known n) := by
  unfold startNative
  refine known_get fun m hm => ?_
  dsimp only
  split
  · exact known_fail
  · exact stays_pure ⟨hm.store.native id, hthis, hargs, hcon⟩

theorem stays_beginPlain (callee : Callable) (hthis : this.Known n)
    (hargs : ∀ v ∈ args, v.Known n) (hcon : ∀ v ∈ constructing, v.Known n) :
    Stays n (beginPlain callee this args constructing) (Start.Known n) := by
  cases callee with
  | function id =>
    exact known_bind (stays_pushFrame id hthis hargs hcon) fun _ _ => stays_pure trivial
  | native id => exact stays_startNative id hthis hargs hcon

/-- What is called need not be known: a call uses no type but that of the receiver. -/
theorem stays_beginCall (callee : Value) {this : Option Value} (hthis : ∀ v ∈ this, v.Known n)
    (hargs : ∀ v ∈ args, v.Known n) (hcon : ∀ v ∈ constructing, v.Known n) :
    Stays n (beginCall callee this args constructing) (Start.Known n) := by
  have hself : (this.getD .void).Known n := getD_of_forall hthis trivial
  refine known_get fun m hm => known_bind (Q := fun p => p.2.Known n) ?_ fun p hp => ?_
  · exact stays_ofExcept fun p hp => hm.store.dispatch hself hp
  · exact stays_beginPlain p.1 hp hargs hcon

theorem stays_callAndGoOn (callee : Value) {this : Option Value} (hthis : ∀ v ∈ this, v.Known n)
    (hargs : ∀ v ∈ args, v.Known n) (hcon : ∀ v ∈ constructing, v.Known n) :
    Stays n (callAndGoOn callee this args constructing) (Step.Known n) := by
  unfold callAndGoOn
  refine known_bind (stays_beginCall callee hthis hargs hcon) fun start hstart => ?_
  cases start with
  | entered => exact stays_pure trivial
  | native body this args constructing => exact stays_pure hstart

end Calls

theorem forall_mem_some {v : Value} (h : v.Known n) : ∀ w ∈ some v, w.Known n := by
  intro w hw
  cases hw
  exact h

theorem stays_andNext {x : Exec Unit} (h : Stays n x) : Stays n (andNext x) (Step.Known n) :=
  known_bind h fun _ _ => stays_pure trivial

theorem stays_callOperator (o : Opcode) {receiver : Value} {args : List Value}
    (hr : receiver.Known n) (hargs : ∀ v ∈ args, v.Known n) :
    Stays n (callOperator o receiver args) (Step.Known n) := by
  unfold callOperator
  split
  · exact known_fail
  · rename_i op _
    refine known_get fun m _ => ?_
    split
    · exact known_fail
    · refine known_bind (stays_find receiver op) fun method _ => ?_
      exact stays_callAndGoOn method (forall_mem_some hr) hargs nofun

theorem stays_hasEqualityMethod (v : Value) : Stays n (hasEqualityMethod v) :=
  known_get fun _ _ => stays_pure trivial

end Exec

end ScriptMachine
