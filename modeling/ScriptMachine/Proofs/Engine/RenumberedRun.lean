import ScriptMachine.Proofs.Engine.RenumberedInstruction

namespace ScriptMachine

open Exec

variable {ρ : Renumbering} {n : Nat}

/-- Calls of corresponding values end alike. -/
def Callback.Tracks (ρ : Renumbering) (n : Nat) (call : Callback) : Prop :=
  ∀ callee this args, Maps ρ n (Value.renumber ρ) (call callee this args)
    (call (callee.renumber ρ) (this.map (Value.renumber ρ)) (args.map (Value.renumber ρ)))

section Callbacks

variable {call : Callback} (hcall : call.Tracks ρ n)
include hcall

omit hcall in
theorem Exec.maps_attempt {x y : Exec Value} (h : Maps ρ n (Value.renumber ρ) x y) :
    Maps ρ n (Outcome.renumber ρ) (attempt x) (attempt y) := by
  intro m m' hm
  refine (Tracks.attempt h m m' hm).imp fun r r' hr => ?_
  cases hr with
  | ok h => exact congrArg Except.ok h
  | error s => rfl

theorem HostProgram.maps_run {p p' : HostProgram} (h : p.Alike ρ p') :
    Maps ρ n (Value.renumber ρ) (p.run call) (p'.run call) := by
  induction h with
  | finish outcome =>
    cases outcome with
    | ok v => exact .pure rfl
    | error s => exact .signal s
  | call callee this args _ ih => exact .bind (maps_attempt (hcall callee this args)) ih
  | callMethod receiver name args _ ih =>
    refine .bind (maps_attempt ?_) ih
    exact .bind (maps_find receiver name) fun method => hcall method (some receiver) args
  | newArray items _ ih => exact .bind (maps_newArray items) ih
  | typeName v _ ih =>
    refine .get_bind fun m m' hm => ?_
    dsimp only
    rw [hm.store.typeOf, hm.store.typeName]
    exact ih _
  | readDatum id _ ih =>
    refine .get_bind fun m m' hm => ?_
    rw [hm.store.hostedCell]
    exact ih _
  | writeDatum id d _ ih =>
    exact .bind (.modify fun m m' hm => { hm with store := hm.store.setDatum id d }) fun _ => ih

namespace Exec

theorem maps_runBody {body body' : NativeBody} (h : body.Alike ρ body') (this : Value)
    (args : List Value) :
    Maps ρ n (Value.renumber ρ) (runBody call body this args)
      (runBody call body' (this.renumber ρ) (args.map (Value.renumber ρ))) := by
  cases body with
  | host p =>
    cases body' with
    | host p' => exact HostProgram.maps_run hcall (h this args)
    | method k => exact h.elim
  | method k =>
    cases body' with
    | host p' => exact h.elim
    | method k' =>
      cases h
      refine .get_bind fun m m' hm => ?_
      refine .bindRelated (.ofExcept (Method.apply_renumber hm.store k this args)) fun r r' hr => ?_
      exact .bind (.modify fun _ _ hm => { hm with store := hr.2 }) fun _ => .pure hr.1

theorem maps_runNative {body body' : NativeBody} (h : body.Alike ρ body') (this : Value)
    (args : List Value) (constructing : Option Value) :
    Maps ρ n (Value.renumber ρ) (runNative call body this args constructing)
      (runNative call body' (this.renumber ρ) (args.map (Value.renumber ρ))
        (constructing.map (Value.renumber ρ))) := by
  refine .bind (maps_runBody hcall h this args) fun result => ?_
  cases constructing with
  | none => exact .pure rfl
  | some obj =>
    refine .pure ?_
    rw [Value.isVoid_renumber]
    split <;> rfl

theorem tracks_complete {step step' : Step} (h : StepAlike ρ step step') :
    Tracks ρ n (StepAlike ρ) (complete call step) (complete call step') := by
  cases h with
  | next => exact .pure .next
  | returned v => exact .pure (.returned v)
  | native this args constructing h =>
    exact .bind (maps_runNative hcall h this args constructing) fun v => tracks_pushNext v
  | compare method a b =>
    refine .bind (hcall method (some a) [b]) fun v => ?_
    rw [Value.truthy_renumber]
    exact tracks_pushNext (.bool !v.truthy)

omit hcall in
theorem maps_fetch : Maps ρ n id fetch fetch := by
  refine .bind maps_top fun f => ?_
  have hpc : (f.renumber ρ).pc = f.pc := rfl
  rw [Frame.closure_renumber, hpc]
  cases f.closure.template.body.code[f.pc]? with
  | none => exact .pure rfl
  | some i =>
    refine .bind (maps_setTop fun _ => rfl) fun _ => ?_
    refine .bind (.modify fun m m' hm => { hm with executed := by rw [hm.executed] }) fun _ => ?_
    refine .get_bind fun m m' hm => ?_
    rw [hm.config, hm.executed]
    split
    · split
      · exact .fail _
      · exact .pure rfl
    · exact .pure rfl

omit hcall in
theorem maps_locate (s : Signal) (position : Option Position) :
    Maps ρ n (Signal.renumber ρ) (locate s position) (locate (s.renumber ρ) position) := by
  refine .get_bind fun m m' hm => ?_
  have hline : m'.frames.head?.map (fun f => (⟨f.closure.template.line, 0⟩ : Position)) =
      m.frames.head?.map fun f => ⟨f.closure.template.line, 0⟩ := by
    rw [hm.frames]
    cases m.frames <;> rfl
  dsimp only
  rw [hline, hm.raisePosition]
  cases s with
  | error fault => exact .pure rfl
  | raise v => exact .bind (.set { hm with raisePosition := rfl }) fun _ => .pure rfl

theorem tracks_executeAt (i : Instruction) :
    Tracks ρ n (StepAlike ρ) (executeAt call i) (executeAt call i) := by
  have hexecute : Tracks ρ n (StepAlike ρ) (execute i.opcode >>= complete call)
      (execute i.opcode >>= complete call) :=
    .bindRelated (tracks_execute i.opcode) fun _ _ h => tracks_complete hcall h
  refine .bindRelated hexecute.attempt fun r r' hr => ?_
  cases hr with
  | ok h => exact .pure h
  | error s => exact .bind (maps_locate s i.position) fun s' => .signal s'

theorem tracks_dispatch : Tracks ρ n (StepAlike ρ) (dispatch call) (dispatch call) := by
  refine .bind maps_fetch fun r => ?_
  cases r with
  | none => exact .pure (.returned .void)
  | some i => exact tracks_executeAt hcall i

omit hcall in
theorem cutTo_renumber (height : Nat) (stack : List Value) :
    cutTo height (stack.map (Value.renumber ρ)) = (cutTo height stack).map (Value.renumber ρ) := by
  rw [cutTo, cutTo, List.length_map, List.map_drop]

omit hcall in
theorem maps_finishFrame (v : Value) (base : Nat) :
    Maps ρ n (Option.map (Value.renumber ρ)) (finishFrame v base)
      (finishFrame (v.renumber ρ) base) := by
  refine .get_bind fun m m' hm => ?_
  rw [hm.frames]
  cases m.frames with
  | nil => exact .pure rfl
  | cons f below =>
    have hresult : (f.constructing.map (Value.renumber ρ)).getD (v.renumber ρ) =
        (f.constructing.getD v).renumber ρ := by
      cases f.constructing <;> rfl
    refine .bind (.modify fun m m' hm => { hm with frames := rfl, stack := ?_ }) fun _ => ?_
    · rw [hm.stack, ← cutTo_renumber]
      rfl
    · change Tracks ρ n _ (if below.length ≤ base then _ else _)
        (if (below.map (Frame.renumber ρ)).length ≤ base then
          pure (some ((f.constructing.map (Value.renumber ρ)).getD (v.renumber ρ)))
        else do
          push ((f.constructing.map (Value.renumber ρ)).getD (v.renumber ρ))
          pure none)
      rw [List.length_map, hresult]
      split
      · exact .pure rfl
      · exact .bind (maps_push _) fun _ => .pure rfl

end Exec

end Callbacks

def Landing.renumber (ρ : Renumbering) : Landing → Landing
  | .caught f below stack s =>
    .caught (f.renumber ρ) (below.map (Frame.renumber ρ)) (stack.map (Value.renumber ρ))
      (s.renumber ρ)
  | .escaped frames stack s =>
    .escaped (frames.map (Frame.renumber ρ)) (stack.map (Value.renumber ρ)) (s.renumber ρ)

theorem Frame.resume?_renumber (f : Frame) :
    (f.renumber ρ).resume? = f.resume?.map fun r => (r.1.renumber ρ, r.2) := by
  have hhandlers : (f.renumber ρ).handlers = f.handlers := rfl
  unfold Frame.resume?
  rw [hhandlers]
  cases f.handlers <;> rfl

theorem Signal.leave_renumber (s : Signal) (entry : TraceEntry) (trace : List TraceEntry) :
    (s.renumber ρ).leave entry trace =
      ((s.leave entry trace).1.renumber ρ, (s.leave entry trace).2) := by
  cases s <;> rfl

theorem land_renumber {store store' : Store} (h : store.Renumbers ρ n store') (base : Nat)
    (s : Signal) (trace : List TraceEntry) (stack : List Value) (frames : List Frame) :
    land store' base (s.renumber ρ) trace (stack.map (Value.renumber ρ))
        (frames.map (Frame.renumber ρ)) =
      ((land store base s trace stack frames).1.renumber ρ,
        (land store base s trace stack frames).2) := by
  induction frames generalizing s trace stack with
  | nil => rfl
  | cons f below ih =>
    have htaken : (if (s.renumber ρ).catchable then (f.renumber ρ).resume? else none) =
        (if s.catchable then f.resume? else none).map fun r => (r.1.renumber ρ, r.2) := by
      rw [Signal.catchable_renumber, Frame.resume?_renumber]
      split <;> rfl
    have hentry :
        (f.renumber ρ).traceEntry (store'.staticsCell (f.renumber ρ).closure.statics).source =
        f.traceEntry (store.staticsCell f.closure.statics).source := by
      change f.traceEntry (store'.staticsCell f.closure.statics).source = _
      rw [h.staticsCell]
      rfl
    rw [List.map_cons, land, land, htaken]
    cases (if s.catchable then f.resume? else none) with
    | some r => simp only [Option.map_some, Landing.renumber, cutTo_renumber]
    | none =>
      have hbase : (f.renumber ρ).stackBase = f.stackBase := rfl
      simp only [Option.map_none, hentry, Signal.leave_renumber, List.length_map, hbase,
        cutTo_renumber, ih]
      split <;> rfl

namespace Exec

theorem maps_exceptionOf (s : Signal) :
    Maps ρ n (Value.renumber ρ) (exceptionOf s) (exceptionOf (s.renumber ρ)) := by
  cases s with
  | raise v => exact .pure rfl
  | error fault =>
    exact Tracks.alloc (R := fun v w => w = v.renumber ρ)
      (f := (·.makeException fault.kind.name fault.message fault.line?))
      (g := (·.makeException fault.kind.name fault.message fault.line?))
      fun _ _ hs => hs.makeException _ _ _

theorem maps_unwind (s : Signal) (base : Nat) :
    Maps ρ n id (unwind s base) (unwind (s.renumber ρ) base) := by
  refine .get_bind fun m m' hm => ?_
  rw [hm.frames, hm.stack, hm.raiseTrace, land_renumber hm.store]
  generalize land m.store base s m.raiseTrace m.stack m.frames = r
  obtain ⟨landing, trace⟩ := r
  cases landing with
  | caught f below stack s' =>
    refine .bind (.set { hm with frames := rfl, stack := rfl, raiseTrace := rfl }) fun _ => ?_
    refine .bind (maps_exceptionOf s') fun v => .bind (maps_push v) fun _ => ?_
    exact .modify fun m m' hm => { hm with raiseTrace := rfl, raisePosition := rfl }
  | escaped frames stack s' =>
    refine .bind (.set { hm with frames := rfl, stack := rfl, raiseTrace := rfl }) fun _ => ?_
    exact .signal s'

variable {call : Callback}

theorem maps_cycle (hcall : call.Tracks ρ n) (base : Nat) :
    Maps ρ n (Option.map (Value.renumber ρ)) (cycle call base) (cycle call base) := by
  refine .bindRelated (tracks_dispatch hcall).attempt fun r r' hr => ?_
  cases hr with
  | error s => exact .bind (maps_unwind s base) fun _ => .pure rfl
  | ok h =>
    cases h with
    | returned v => exact maps_finishFrame v base
    | next => exact .pure rfl
    | native this args constructing h => exact .pure rfl
    | compare method a b => exact .pure rfl

theorem maps_loop (hcall : call.Tracks ρ n) (base fuel : Nat) :
    Maps ρ n (Value.renumber ρ) (loop call base fuel) (loop call base fuel) := by
  induction fuel with
  | zero => exact fun _ _ _ => .outOfFuel
  | succ fuel ih =>
    refine .bind (maps_cycle hcall base) fun r => ?_
    cases r with
    | none => exact ih
    | some v => exact .pure rfl

/-- A call on two machines that are alike. -/
theorem maps_invoke (fuel : Nat) : Callback.Tracks ρ n (invoke fuel) := by
  induction fuel with
  | zero => exact fun _ _ _ _ _ _ => .outOfFuel
  | succ fuel ih =>
    intro callee this args
    refine .get_bind fun m m' hm => ?_
    dsimp only
    rw [hm.frames, List.length_map]
    refine .bindRelated (tracks_beginCall callee this none) fun start start' h => ?_
    cases h with
    | entered => exact maps_loop ih _ fuel
    | native this args constructing h => exact maps_runNative ih h this args constructing

end Exec

end ScriptMachine
