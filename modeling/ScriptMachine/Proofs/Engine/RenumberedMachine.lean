import ScriptMachine.Engine.Run
import ScriptMachine.Proofs.Engine.Triple
import ScriptMachine.Proofs.Model.RenumberedStore

namespace ScriptMachine

variable {ρ : Renumbering} {n : Nat}

def Frame.renumber (ρ : Renumbering) (f : Frame) : Frame :=
  { f with
    locals := f.locals.map (Value.renumber ρ)
    this := f.this.renumber ρ
    constructing := f.constructing.map (Value.renumber ρ) }

@[simp] theorem Frame.closure_renumber (f : Frame) : (f.renumber ρ).closure = f.closure := rfl

/-- Two machines that are the same up to the numbers of bound methods. The first one has at least
`n` objects. -/
structure Machine.Renumbers (ρ : Renumbering) (n : Nat) (m m' : Machine) : Prop where
  store : m.store.Renumbers ρ n m'.store
  globals : m'.globals = m.globals.map (Value.renumber ρ)
  frames : m'.frames = m.frames.map (Frame.renumber ρ)
  stack : m'.stack = m.stack.map (Value.renumber ρ)
  config : m'.config = m.config
  guard : m'.guard = m.guard
  guarded : m'.guarded = m.guarded
  executed : m'.executed = m.executed
  raiseTrace : m'.raiseTrace = m.raiseTrace
  raisePosition : m'.raisePosition = m.raisePosition
  loads : m'.loads = m.loads

theorem Machine.Renumbers.floor {m m' : Machine} (h : m.Renumbers ρ n m') : m'.floor = m.floor := by
  rw [Machine.floor, h.frames, Machine.floor]
  cases m.frames <;> rfl

theorem Machine.Renumbers.access {m m' : Machine} (h : m.Renumbers ρ n m') :
    m'.access = m.access.renumber ρ := by
  rw [Machine.access, h.frames, Machine.access]
  cases m.frames <;> rfl

namespace Exec

section Rules

variable {α β γ δ : Type}

/-- Two ends that are the same up to the numbers of bound methods, with results related by `R`. -/
inductive EndAlike (ρ : Renumbering) (n : Nat) (R : α → β → Prop) :
    EStateM.Result (Stop Signal) Machine α → EStateM.Result (Stop Signal) Machine β → Prop
  | ok {a : α} {b : β} {m m' : Machine} (result : R a b) (machine : m.Renumbers ρ n m') :
      EndAlike ρ n R (.ok a m) (.ok b m')
  | failed (s : Signal) {m m' : Machine} (machine : m.Renumbers ρ n m') :
      EndAlike ρ n R (.error (.failed s) m) (.error (.failed (s.renumber ρ)) m')
  | overflow {m m' : Machine} : EndAlike ρ n R (.error .overflow m) (.error .overflow m')
  | outOfFuel {m m' : Machine} : EndAlike ρ n R (.error .outOfFuel m) (.error .outOfFuel m')

/-- From machines that are alike, two computations come to ends that are alike. -/
def Tracks (ρ : Renumbering) (n : Nat) (R : α → β → Prop) (x : Exec α) (y : Exec β) : Prop :=
  ∀ m m', m.Renumbers ρ n m' → EndAlike ρ n R (x m) (y m')

/-- The result of the second computation is a function of that of the first. -/
abbrev Maps (ρ : Renumbering) (n : Nat) (e : α → β) (x : Exec α) (y : Exec β) : Prop :=
  Tracks ρ n (fun a b => b = e a) x y

variable {R : α → β → Prop} {S : γ → δ → Prop} {x : Exec α} {y : Exec β} {f : α → Exec γ}
  {g : β → Exec δ}

theorem EndAlike.imp {R' : α → β → Prop} {r : EStateM.Result (Stop Signal) Machine α}
    {r' : EStateM.Result (Stop Signal) Machine β} (h : EndAlike ρ n R r r')
    (hR : ∀ a b, R a b → R' a b) : EndAlike ρ n R' r r' := by
  cases h with
  | ok hab hm => exact .ok (hR _ _ hab) hm
  | failed s hm => exact .failed s hm
  | overflow => exact .overflow
  | outOfFuel => exact .outOfFuel

theorem Tracks.bindRelated (hx : Tracks ρ n R x y) (hf : ∀ a b, R a b → Tracks ρ n S (f a) (g b)) :
    Tracks ρ n S (x >>= f) (y >>= g) := by
  intro m m' hm
  have h := hx m m' hm
  change EndAlike ρ n S (EStateM.bind x f m) (EStateM.bind y g m')
  unfold EStateM.bind
  generalize x m = r at h ⊢
  generalize y m' = r' at h ⊢
  cases h with
  | ok hab hm => exact hf _ _ hab _ _ hm
  | failed s hm => exact .failed s hm
  | overflow => exact .overflow
  | outOfFuel => exact .outOfFuel

theorem Tracks.bind {e : α → β} (hx : Maps ρ n e x y) (hf : ∀ a, Tracks ρ n S (f a) (g (e a))) :
    Tracks ρ n S (x >>= f) (y >>= g) := by
  refine hx.bindRelated ?_
  rintro a _ rfl
  exact hf a

theorem Tracks.pure {a : α} {b : β} (h : R a b) : Tracks ρ n R (pure a) (pure b) :=
  fun _ _ hm => .ok h hm

theorem Tracks.fail (c : Cause) : Tracks ρ n R (fail c) (fail c) :=
  fun _ _ hm => .failed (.ofCause c) hm

theorem Tracks.signal (s : Signal) : Tracks ρ n R (signal s) (signal (s.renumber ρ)) :=
  fun _ _ hm => .failed s hm

theorem Tracks.overflow : Tracks ρ n R overflow overflow :=
  fun _ _ _ => .overflow

theorem Tracks.get_bind {f : Machine → Exec γ} {g : Machine → Exec δ}
    (h : ∀ m m' : Machine, m.Renumbers ρ n m' → Tracks ρ n S (f m) (g m')) :
    Tracks ρ n S (get >>= f) (get >>= g) :=
  fun m m' hm => h m m' hm m m' hm

theorem Tracks.modify {f g : Machine → Machine}
    (h : ∀ m m' : Machine, m.Renumbers ρ n m' → (f m).Renumbers ρ n (g m')) :
    Maps ρ n id (modify f) (modify g) :=
  fun m m' hm => .ok rfl (h m m' hm)

theorem Tracks.set {m m' : Machine} (h : m.Renumbers ρ n m') : Maps ρ n id (set m) (set m') :=
  fun _ _ _ => .ok rfl h

theorem Tracks.ofExcept {r : Except Cause α} {r' : Except Cause β} (h : Answers R r r') :
    Tracks ρ n R (ofExcept r) (ofExcept r') := by
  cases h with
  | ok h => exact .pure h
  | error c => exact .fail c

theorem Tracks.alloc {f : Store → α × Store} {g : Store → β × Store}
    (h : ∀ s s' : Store, s.Renumbers ρ n s' → R (f s).1 (g s').1 ∧ (f s).2.Renumbers ρ n (g s').2) :
    Tracks ρ n R (alloc f) (alloc g) := by
  intro m m' hm
  obtain ⟨hR, hs⟩ := h m.store m'.store hm.store
  exact .ok hR { hm with store := hs }

theorem Tracks.alter {f g : Store → Except Cause Store}
    (h : ∀ s s' : Store, s.Renumbers ρ n s' → Answers (Store.Renumbers ρ n) (f s) (g s')) :
    Maps ρ n id (alter f) (alter g) := by
  refine .get_bind fun m m' hm => .bindRelated (.ofExcept (h _ _ hm.store)) fun s s' hs => ?_
  exact .modify fun _ _ hm => { hm with store := hs }

/-- Outcomes of two computations that were attempted. -/
inductive Outcomes (ρ : Renumbering) (R : α → β → Prop) : Except Signal α → Except Signal β → Prop
  | ok {a : α} {b : β} (h : R a b) : Outcomes ρ R (.ok a) (.ok b)
  | error (s : Signal) : Outcomes ρ R (.error s) (.error (s.renumber ρ))

theorem Tracks.attempt (h : Tracks ρ n R x y) :
    Tracks ρ n (Outcomes ρ R) (attempt x) (attempt y) := by
  intro m m' hm
  have hx := h m m' hm
  unfold Exec.attempt
  generalize x m = r at hx ⊢
  generalize y m' = r' at hx ⊢
  cases hx with
  | ok hab hm => exact .ok (.ok hab) hm
  | failed s hm => exact .ok (.error s) hm
  | overflow => exact .overflow
  | outOfFuel => exact .outOfFuel

end Rules

theorem maps_top : Maps ρ n (Frame.renumber ρ) top top := by
  unfold top
  refine .get_bind fun m m' hm => ?_
  rw [hm.frames]
  cases m.frames with
  | nil => exact .fail _
  | cons f rest => exact .pure rfl

theorem maps_setTop {g g' : Frame → Frame} (hg : ∀ f, g' (f.renumber ρ) = (g f).renumber ρ) :
    Maps ρ n id (setTop g) (setTop g') := by
  unfold setTop
  refine .get_bind fun m m' hm => ?_
  rw [hm.frames]
  cases m.frames with
  | nil => exact .fail _
  | cons f rest =>
    refine .modify fun _ _ hm => { hm with frames := ?_ }
    rw [List.map_cons, hg]

theorem maps_push (v : Value) : Maps ρ n id (push v) (push (v.renumber ρ)) := by
  refine .modify fun m m' hm => { hm with stack := ?_ }
  rw [hm.stack, List.map_cons]

theorem maps_pop : Maps ρ n (Value.renumber ρ) pop pop := by
  unfold pop
  refine .get_bind fun m m' hm => ?_
  rw [hm.floor, hm.stack, List.length_map]
  split
  · exact .fail _
  · cases m.stack with
    | nil => exact .fail _
    | cons v rest => exact .bind (.set { hm with stack := rfl }) fun _ => .pure rfl

theorem maps_popMany (count : Nat) :
    Maps ρ n (List.map (Value.renumber ρ)) (popMany count) (popMany count) := by
  unfold popMany
  refine .get_bind fun m m' hm => ?_
  rw [hm.floor, hm.stack, List.length_map]
  split
  · exact .fail _
  · refine .bind (.set { hm with stack := ?_ }) fun _ => .pure ?_
    · rw [List.map_drop]
    · rw [List.map_reverse, List.map_take]

theorem maps_popCounted (count : Nat) :
    Maps ρ n (List.map (Value.renumber ρ)) (popCounted count) (popCounted count) := by
  unfold popCounted
  refine .get_bind fun m m' hm => ?_
  rw [hm.floor]
  split
  · exact .overflow
  · exact maps_popMany count

theorem maps_newArray (items : List Value) :
    Maps ρ n (Value.renumber ρ) (newArray items) (newArray (items.map (Value.renumber ρ))) := by
  refine Tracks.bind (e := id) (.alloc fun s s' hs => ?_) fun id => .pure rfl
  rw [← List.map_toArray]
  exact hs.newArray items.toArray

theorem maps_jump (target : Nat) : Maps ρ n id (jump target) (jump target) :=
  maps_setTop fun _ => rfl

theorem maps_name (i : Nat) : Maps ρ n id (name i) (name i) := by
  refine .bind maps_top fun f => ?_
  rw [Frame.closure_renumber]
  cases f.closure.template.body.nameAt? i with
  | none => exact .fail _
  | some n => exact .pure rfl

theorem maps_access : Maps ρ n (Access.renumber ρ) access access :=
  .get_bind fun _ _ hm => .pure hm.access

theorem maps_find (receiver : Value) (name : String) :
    Maps ρ n (Value.renumber ρ) (find receiver name) (find (receiver.renumber ρ) name) := by
  refine .get_bind fun m m' hm => .bind maps_access fun a => .ofExcept (.of_map ?_)
  exact hm.store.find a receiver name

theorem maps_statics : Maps ρ n (Statics.renumber ρ) statics statics :=
  .bind maps_top fun f => .get_bind fun _ _ hm => .pure (hm.store.staticsCell f.closure.statics)

theorem maps_hasEqualityMethod (v : Value) :
    Maps ρ n id (hasEqualityMethod v) (hasEqualityMethod (v.renumber ρ)) := by
  refine .get_bind fun m m' hm => .pure ?_
  have hkind : (v.renumber ρ).hasBuiltinEquality = v.hasBuiltinEquality := by cases v <;> rfl
  rw [hm.store.resolve, Option.isSome_map, hkind]
  rfl

/-- Two calls that have started alike. -/
inductive StartAlike (ρ : Renumbering) : Start → Start → Prop
  | entered : StartAlike ρ .entered .entered
  | native {body body' : NativeBody} (this : Value) (args : List Value)
      (constructing : Option Value) (h : body.Alike ρ body') :
      StartAlike ρ (.native body this args constructing)
        (.native body' (this.renumber ρ) (args.map (Value.renumber ρ))
          (constructing.map (Value.renumber ρ)))

theorem bindLocals_renumber (size : Nat) (args : List Value) :
    bindLocals size (args.map (Value.renumber ρ)) =
      (bindLocals size args).map (Value.renumber ρ) := by
  simp [bindLocals, List.map_take]

theorem maps_bindArguments (t : Template) (args : List Value) :
    Maps ρ n (Array.map (Value.renumber ρ)) (bindArguments t args)
      (bindArguments t (args.map (Value.renumber ρ))) := by
  unfold bindArguments
  dsimp only
  rw [List.length_map, ← List.map_take, ← List.map_drop, bindLocals_renumber]
  split
  · exact .fail _
  · split
    · refine .bind (maps_newArray _) fun tail => .pure ?_
      rw [Array.map_setIfInBounds]
    · exact .pure rfl

theorem maps_deeper : Maps ρ n id deeper deeper := by
  unfold deeper
  refine .get_bind fun m m' hm => ?_
  dsimp only
  rw [hm.frames, hm.config, List.length_map]
  split
  · exact .pure rfl
  · exact .fail _

theorem maps_askGuard (depth : Nat) (name : String) :
    Maps ρ n id (askGuard depth name) (askGuard depth name) := by
  unfold askGuard
  refine .get_bind fun m m' hm => ?_
  rw [hm.guard, hm.guarded]
  cases m.guard with
  | none => exact .pure rfl
  | some g =>
    refine .bind (.modify fun m m' hm => { hm with guarded := by rw [hm.guarded] }) fun _ => ?_
    cases g.refuse? m.guarded depth name with
    | none => exact .pure rfl
    | some c => exact .fail _

section Calls

variable {args : List Value} {constructing : Option Value}

theorem maps_pushFrame (f : FunctionId) (this : Value) :
    Maps ρ n id (pushFrame f this args constructing)
      (pushFrame f (this.renumber ρ) (args.map (Value.renumber ρ))
        (constructing.map (Value.renumber ρ))) := by
  unfold pushFrame
  refine .bind maps_deeper fun depth => .get_bind fun m m' hm => ?_
  dsimp only
  rw [hm.store.closure, List.length_map]
  refine .bind (maps_askGuard depth _) fun _ => .bind (maps_bindArguments _ args) fun locals => ?_
  refine .modify fun m m' hm => { hm with frames := ?_ }
  rw [hm.frames, hm.stack, List.length_map, List.map_cons]
  rfl

theorem tracks_startNative (id : NativeId) (this : Value) :
    Tracks ρ n (StartAlike ρ) (startNative id this args constructing)
      (startNative id (this.renumber ρ) (args.map (Value.renumber ρ))
        (constructing.map (Value.renumber ρ))) := by
  unfold startNative
  refine .get_bind fun m m' hm => ?_
  have halike := hm.store.native id
  dsimp only
  rw [halike.name, halike.minimum, halike.maximum, List.length_map]
  split
  · exact .fail _
  · exact .pure (.native this args constructing halike.body)

theorem tracks_beginPlain (callee : Callable) (this : Value) :
    Tracks ρ n (StartAlike ρ) (beginPlain callee this args constructing)
      (beginPlain callee (this.renumber ρ) (args.map (Value.renumber ρ))
        (constructing.map (Value.renumber ρ))) := by
  cases callee with
  | function id => exact .bind (maps_pushFrame id this) fun _ => .pure .entered
  | native id => exact tracks_startNative id this

theorem tracks_beginCall (callee : Value) (this constructing : Option Value) :
    Tracks ρ n (StartAlike ρ) (beginCall callee this args constructing)
      (beginCall (callee.renumber ρ) (this.map (Value.renumber ρ)) (args.map (Value.renumber ρ))
        (constructing.map (Value.renumber ρ))) := by
  refine .get_bind fun m m' hm => ?_
  rw [hm.access, getD_renumber, hm.store.dispatch]
  exact .bind (.ofExcept (.of_map rfl)) fun p => tracks_beginPlain p.1 p.2

/-- What two instructions leave to be done. -/
inductive StepAlike (ρ : Renumbering) : Step → Step → Prop
  | next : StepAlike ρ .next .next
  | returned (v : Value) : StepAlike ρ (.returned v) (.returned (v.renumber ρ))
  | native {body body' : NativeBody} (this : Value) (args : List Value)
      (constructing : Option Value) (h : body.Alike ρ body') :
      StepAlike ρ (.native body this args constructing)
        (.native body' (this.renumber ρ) (args.map (Value.renumber ρ))
          (constructing.map (Value.renumber ρ)))
  | compare (method a b : Value) :
      StepAlike ρ (.compare method a b)
        (.compare (method.renumber ρ) (a.renumber ρ) (b.renumber ρ))

theorem tracks_callAndGoOn (callee : Value) (this constructing : Option Value) :
    Tracks ρ n (StepAlike ρ) (callAndGoOn callee this args constructing)
      (callAndGoOn (callee.renumber ρ) (this.map (Value.renumber ρ)) (args.map (Value.renumber ρ))
        (constructing.map (Value.renumber ρ))) := by
  refine .bindRelated (tracks_beginCall callee this constructing) fun start start' hstart => ?_
  cases hstart with
  | entered => exact .pure .next
  | native this args constructing h => exact .pure (.native this args constructing h)

end Calls

theorem tracks_andNext {x y : Exec Unit} (h : Maps ρ n id x y) :
    Tracks ρ n (StepAlike ρ) (andNext x) (andNext y) :=
  .bind h fun _ => .pure .next

theorem tracks_pushNext (v : Value) :
    Tracks ρ n (StepAlike ρ) (andNext (push v)) (andNext (push (v.renumber ρ))) :=
  tracks_andNext (maps_push v)

theorem tracks_callOperator (o : Opcode) (receiver : Value) (args : List Value) :
    Tracks ρ n (StepAlike ρ) (callOperator o receiver args)
      (callOperator o (receiver.renumber ρ) (args.map (Value.renumber ρ))) := by
  unfold callOperator
  cases o.operator? with
  | none => exact .fail _
  | some op =>
    refine .get_bind fun m m' hm => ?_
    rw [hm.store.resolve, Value.kindName_renumber]
    cases m.store.resolve receiver op with
    | none => exact .fail _
    | some r =>
      refine .bind (maps_find receiver op) fun method => ?_
      exact tracks_callAndGoOn method (some receiver) none

end Exec

end ScriptMachine
