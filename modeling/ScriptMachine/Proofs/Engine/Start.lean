import ScriptMachine.Proofs.Engine.Triple
import ScriptMachine.Proofs.Model.Dispatch
import ScriptMachine.Proofs.Model.StaticSlots

namespace ScriptMachine

/-- Between `m₀` and `m` no call was entered or left and no operand pushed or popped. -/
structure Machine.Quiet (m₀ m : Machine) : Prop where
  frames : m.frames = m₀.frames
  stack : m.stack = m₀.stack
  config : m.config = m₀.config
  guard : m.guard = m₀.guard
  store : m₀.store.Retained m.store

namespace Machine.Quiet

variable {m₀ m m' : Machine}

theorem refl (m : Machine) : m.Quiet m :=
  ⟨rfl, rfl, rfl, rfl, .refl _⟩

theorem trans (h : m₀.Quiet m) (h' : m.Quiet m') : m₀.Quiet m' :=
  ⟨h'.frames.trans h.frames, h'.stack.trans h.stack, h'.config.trans h.config,
    h'.guard.trans h.guard, h.store.trans h'.store⟩

theorem withStore (h : m₀.Quiet m) {store : Store} (hs : m.store.Untouched store) :
    m₀.Quiet { m with store } :=
  ⟨h.frames, h.stack, h.config, h.guard, h.store.trans hs.retained⟩

end Machine.Quiet

/-- Between `m₀` and `m` nothing was written but new cells of the store and the log of the guard. -/
structure Machine.Silent (m₀ m : Machine) : Prop where
  same : m = { m₀ with store := m.store, guarded := m.guarded }
  store : m₀.store.Grown m.store

namespace Machine.Silent

variable {m₀ m : Machine}

theorem refl (m : Machine) : m.Silent m :=
  ⟨rfl, .refl _⟩

theorem withStore (h : m₀.Silent m) {store : Store} (hs : m.store.Grown store) :
    m₀.Silent { m with store } :=
  ⟨by rw [h.same], h.store.trans hs⟩

theorem retained (h : m₀.Silent m) : m₀.store.Retained m.store :=
  h.store.kept.retained

theorem quiet (h : m₀.Silent m) : m₀.Quiet m := by
  have hstore := h.retained
  rw [h.same]
  exact ⟨rfl, rfl, rfl, rfl, hstore⟩

theorem executed (h : m₀.Silent m) : m.executed = m₀.executed := by
  rw [h.same]

end Machine.Silent

/-- A frame as a call enters it. -/
structure Frame.Fresh (m : Machine) (g : Frame) : Prop where
  pc : g.pc = 0
  handlers : g.handlers = []
  stackBase : g.stackBase = m.stack.length
  locals : g.locals.size = g.closure.template.frameSize
  closure : g.closure = (m.store.function g.function).closure

/-- From `m₀`, one frame was entered and nothing else done to the calls and operands. -/
def Machine.Enters (m₀ m : Machine) : Prop :=
  ∃ m₁ g, m₀.Silent m₁ ∧ g.Fresh m₁ ∧ m = { m₁ with frames := g :: m₁.frames }

/-- A fault that has left no call and has no place yet. -/
def Fault.Fresh (fault : Fault) : Prop :=
  fault.trace = [] ∧ fault.position = none

/-- Internal errors of the start of a call. -/
def Denies (m₀ : Machine) (c : Cause) : Prop :=
  c = .breakdown (.tooDeep m₀.config.maxDepth) ∨
    ∃ g asked depth name, m₀.guard = some g ∧ g.refuse? asked depth name = some c

/-- A signal that the start of a call may end with. -/
def Signal.Denial (m₀ : Machine) : Signal → Prop
  | raise _ => False
  | error fault => fault.Fresh ∧ (fault.kind = .internal → Denies m₀ fault.cause)

theorem Signal.denial_of_kind {m₀ : Machine} {c : Cause} (h : c.kind ≠ .internal) :
    (Signal.ofCause c).Denial m₀ :=
  ⟨⟨rfl, rfl⟩, fun hc => absurd hc h⟩

namespace Exec

variable {m₀ : Machine} {F : Prop}

theorem silent_newArray (items : List Value) (B : Signal → Prop) :
    Keeps m₀.Silent B (newArray items) F :=
  .bind (.alloc fun m hm => hm.withStore (.newArray m.store _)) fun _ =>
    .pure fun _ h => h

theorem silent_access : Keeps m₀.Silent (Signal.Denial m₀) access F := by
  unfold access
  exact .get_bind fun m _ => .pure fun _ h => h.2

theorem silent_find (receiver : Value) (n : String) :
    Keeps m₀.Silent (Signal.Denial m₀) (find receiver n) F := by
  unfold find
  refine .get_bind fun m _ => ?_
  refine .bind (silent_access.conseq (fun _ h => h.2) (fun _ _ h => h) fun _ _ h => h) fun a => ?_
  exact .ofExcept (fun _ _ _ h => h) fun c _ hc hm =>
    ⟨hm, Signal.denial_of_kind (Store.find_kind hc)⟩

theorem silent_deeper : Keeps m₀.Silent (Signal.Denial m₀) deeper F := by
  unfold deeper
  refine .get_bind fun m hm => ?_
  dsimp only
  split
  · exact .pure fun _ h => h.2
  · exact .fail fun _ h => ⟨h.2, ⟨rfl, rfl⟩, fun _ => .inl (by rw [hm.quiet.config])⟩

theorem silent_askGuard (depth : Nat) (n : String) :
    Keeps m₀.Silent (Signal.Denial m₀) (askGuard depth n) F := by
  unfold askGuard
  refine .get_bind fun m hm => ?_
  split
  · exact .pure fun _ h => h.2
  · rename_i g hg
    refine .bind (J := fun _ => m₀.Silent) (.modify fun _ h => ?_) fun _ => ?_
    · exact ⟨by rw [h.2.same], h.2.store⟩
    · split
      · rename_i c hc
        exact .fail fun _ h =>
          ⟨h, ⟨rfl, rfl⟩, fun _ => .inr ⟨g, _, depth, n, hm.quiet.guard ▸ hg, hc⟩⟩
      · exact .pure fun _ h => h

theorem size_bindLocals (size : Nat) (args : List Value) : (bindLocals size args).size = size := by
  simp only [bindLocals, List.size_toArray, List.length_append, List.length_take,
    List.length_replicate]
  omega

theorem silent_bindArguments (t : Template) (args : List Value) :
    Triple m₀.Silent (bindArguments t args)
      (fun locals m => m₀.Silent m ∧ locals.size = t.frameSize)
      (fun s m => m₀.Silent m ∧ s.Denial m₀) F := by
  unfold bindArguments
  dsimp only
  split
  · exact .fail fun _ hm => ⟨hm, Signal.denial_of_kind nofun⟩
  · split
    -- the array of the surplus arguments takes a slot that is there already
    · refine .bind (silent_newArray _ _) fun tail => .pure fun _ hm => ⟨hm, ?_⟩
      rw [Array.size_setIfInBounds, size_bindLocals]
    · exact .pure fun _ hm => ⟨hm, size_bindLocals ..⟩

theorem enters_pushFrame (id : FunctionId) (this : Value) (args : List Value)
    (constructing : Option Value) :
    Triple m₀.Silent (pushFrame id this args constructing) (fun _ => m₀.Enters)
      (fun s m => m₀.Silent m ∧ s.Denial m₀) F := by
  unfold pushFrame
  refine .bind silent_deeper fun depth => .get_bind fun m hm => ?_
  dsimp only
  refine .bind ((silent_askGuard depth _).conseq (fun _ h => h.2) (fun _ _ h => h) fun _ _ h => h)
    fun _ => .bind (silent_bindArguments _ args) fun locals => .modify fun m₁ hm₁ => ?_
  have hclosure := (hm.store.kept.closure_eq id).trans (hm₁.1.store.kept.closure_eq id).symm
  exact ⟨m₁, _, hm₁.1, ⟨rfl, rfl, rfl, hm₁.2, hclosure⟩, rfl⟩

/-- What a call leaves behind when it has started. A native body is that of a native function. -/
def Started (m₀ : Machine) : Start → Machine → Prop
  | .entered, m => m₀.Enters m
  | .native body .., m => m₀.Silent m ∧ ∃ id, body = (m₀.store.native id).body

theorem started_startNative (id : NativeId) (this : Value) (args : List Value)
    (constructing : Option Value) :
    Triple m₀.Silent (startNative id this args constructing) (Started m₀)
      (fun s m => m₀.Silent m ∧ s.Denial m₀) F := by
  unfold startNative
  refine .get_bind fun m hm => ?_
  dsimp only
  split
  · exact .fail fun _ h => ⟨h.2, Signal.denial_of_kind nofun⟩
  · exact .pure fun _ h => ⟨h.2, id, by rw [hm.retained.native]⟩

section Dispatch

variable {callee callee' : Value} {this this' : Option Value} {args : List Value}
  {constructing : Option Value} {m : Machine}

theorem beginCall_of_dispatch {method : Callable} {self : Value}
    (h : m.store.dispatch m.access callee (this.getD .void) = .ok (method, self)) :
    beginCall callee this args constructing m = beginPlain method self args constructing m := by
  rw [beginCall, get_bind_apply, h]
  rfl

theorem beginCall_of_undispatched {c : Cause}
    (h : m.store.dispatch m.access callee (this.getD .void) = .error c) :
    beginCall callee this args constructing m = .error (.failed (.ofCause c)) m := by
  rw [beginCall, get_bind_apply, h]
  rfl

theorem beginCall_congr (h : m.store.dispatch m.access callee (this.getD .void) =
    m.store.dispatch m.access callee' (this'.getD .void)) :
    beginCall callee this args constructing m = beginCall callee' this' args constructing m := by
  rw [beginCall, beginCall, get_bind_apply, get_bind_apply, h]

end Dispatch

theorem started_beginPlain (callee : Callable) (this : Value) (args : List Value)
    (constructing : Option Value) :
    Triple m₀.Silent (beginPlain callee this args constructing) (Started m₀)
      (fun s m => m₀.Silent m ∧ s.Denial m₀) F := by
  cases callee with
  | function id => exact .bind (enters_pushFrame id this args constructing) fun _ => .pure fun _ h => h
  | native id => exact started_startNative id this args constructing

theorem started_beginCall (callee : Value) (this : Option Value) (args : List Value)
    (constructing : Option Value) :
    Triple m₀.Silent (beginCall callee this args constructing) (Started m₀)
      (fun s m => m₀.Silent m ∧ s.Denial m₀) F := by
  refine .get_bind fun m _ => .bind (J := fun _ => m₀.Silent) ?_ fun p => ?_
  · exact .ofExcept (fun _ _ _ h => h.2) fun c _ hc h =>
      ⟨h.2, Signal.denial_of_kind (Store.dispatch_kind hc)⟩
  · exact started_beginPlain p.1 p.2 args constructing

theorem started_of_ok {callee : Value} {this : Option Value} {args : List Value}
    {constructing : Option Value} {start : Start} {m m' : Machine}
    (h : beginCall callee this args constructing m = .ok start m') : Started m start m' :=
  (started_beginCall callee this args constructing (F := True)).of_ok (.refl m) h

end Exec

end ScriptMachine
