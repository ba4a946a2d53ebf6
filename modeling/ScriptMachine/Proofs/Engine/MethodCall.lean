import ScriptMachine.Proofs.Engine.Binding
import ScriptMachine.Proofs.Engine.Inequality
import ScriptMachine.Proofs.Engine.TypeGraph

namespace ScriptMachine

/-- The machine once a value was read off a receiver. -/
def Machine.reading (m : Machine) (receiver v : Value) : Machine :=
  { m with store := (m.store.bind receiver v).2 }

/-- What the reading of a value does to the numbers of bound methods. -/
def Store.renumbering (s : Store) (v : Value) : Renumbering :=
  if v.callable?.isSome then .skip s.bounds.size else .same

/-- At most one bound method was made before all those that are made on both sides. -/
def Renumbering.SkipsAtMostOne (ρ : Renumbering) (s : Store) : Prop :=
  ρ = .same ∨ ρ = .skip s.bounds.size

theorem Store.renumbering_skipsAtMostOne (s : Store) (v : Value) :
    (s.renumbering v).SkipsAtMostOne s := by
  unfold Store.renumbering
  split
  · exact .inr rfl
  · exact .inl rfl

section Reading

variable {m : Machine} {r v : Value} {args : List Value}

theorem Machine.Anchored.withStack (h : m.Anchored) (stack : List Value)
    (hstack : stack ⊆ m.stack) : Machine.Anchored { m with stack := stack } where
  roots c hc := by
    refine h.roots c ?_
    simp only [Machine.roots, List.mem_append] at hc ⊢
    refine hc.imp_right fun hc => ?_
    obtain ⟨w, hw, hcell⟩ := List.mem_filterMap.1 hc
    exact List.mem_filterMap.2 ⟨w, hstack hw, hcell⟩
  cells := h.cells
  natives := h.natives

theorem Machine.Anchored.renumber_operand (h : m.Anchored) (hv : v ∈ m.stack) :
    v.renumber (.skip m.store.bounds.size) = v := by
  have hfixes : (Renumbering.skip m.store.bounds.size).Fixes (Store.cellsOf m.stack) := by
    intro c hc hb
    have hroot : c ∈ m.roots := by simp [Machine.roots, hc]
    exact Renumbering.image_skip_of_lt ⟨c.2⟩ (h.roots c hroot hb)
  exact Value.renumber_of_fixes hfixes hv

theorem Value.eq_of_callable {c : Callable} (h : v.callable? = some c) : v = c.value := by
  cases v with
  | function id => cases h; rfl
  | native id => cases h; rfl
  | _ => cases h

/-- But for the bound method that it may make, a reading changes nothing. -/
theorem Machine.Anchored.renumbers_reading
    (h : Machine.Anchored { m with stack := args.reverse ++ r :: m.stack }) (v : Value) :
    m.Renumbers (m.store.renumbering v) 0 (m.reading r v) ∧
      r.renumber (m.store.renumbering v) = r ∧ v.renumber (m.store.renumbering v) = v ∧
      args.map (Value.renumber (m.store.renumbering v)) = args := by
  unfold Machine.reading Store.renumbering Store.bind
  cases hv : v.callable? with
  | none =>
    refine ⟨m.renumbers_same (Nat.zero_le _), r.renumber_same, v.renumber_same, ?_⟩
    exact (congrArg (List.map · args) renumber_same_eq_id).trans (List.map_id args)
  | some c =>
    have hm : m.Anchored := h.withStack m.stack fun w hw => by simp [hw]
    refine ⟨hm.renumbers ⟨r, c.value⟩ _, h.renumber_operand (by simp), ?_, ?_⟩
    · rw [Value.eq_of_callable hv, Value.renumber_callable]
    · refine (List.map_congr_left fun w hw => ?_).trans (List.map_id args)
      exact h.renumber_operand (by simp [hw])

end Reading

namespace Exec

variable {m m' m₁ : Machine} {r v : Value} {args : List Value} {constructing : Option Value}

/-- The receiver of a bound method is the one that it was read off. -/
theorem beginCall_bind :
    beginCall (m.store.bind r v).1 none args constructing (m.reading r v) =
      beginCall v (some r) args constructing (m.reading r v) := by
  unfold Machine.reading Store.bind
  cases hv : v.callable? with
  | none => exact beginCall_congr (Store.dispatch_receiver hv ..)
  | some c =>
    cases Value.eq_of_callable hv
    refine beginCall_congr ((Store.dispatch_bound ..).trans ?_)
    dsimp only
    rw [Store.bound_newBound]
    rfl

theorem invoke_bind (fuel : Nat) :
    invoke fuel (m.store.bind r v).1 none args (m.reading r v) =
      invoke fuel v (some r) args (m.reading r v) := by
  cases fuel with
  | zero => rfl
  | succ fuel =>
    rw [invoke, invoke, get_bind_apply, get_bind_apply]
    exact bind_congr_apply _ beginCall_bind

theorem callAndGoOn_bind :
    callAndGoOn (m.store.bind r v).1 none args none (m.reading r v) =
      callAndGoOn v (some r) args none (m.reading r v) :=
  bind_congr_apply _ beginCall_bind

theorem frames_entered (a : Attempt) (m' : Machine)
    (hclosure : (m'.store.function a.function).closure = a.closure)
    (harrays : m'.store.arrays = a.machine.store.arrays) (hframes : m'.frames = a.machine.frames)
    (hstack : m'.stack = a.machine.stack) :
    ({ a with machine := m' } : Attempt).entered.frames = a.entered.frames := by
  have hclosure' : ({ a with machine := m' } : Attempt).closure = a.closure := hclosure
  simp only [Attempt.entered, Attempt.frame, Attempt.locals, Attempt.arity, Attempt.tailArray,
    hclosure', harrays, hframes, hstack]

/-- Two starts that are the same and leave the same frames, or that fail for the same reason. -/
inductive SameStart {α : Type} : EStateM.Result (Stop Signal) Machine α →
    EStateM.Result (Stop Signal) Machine α → Prop
  | ok (a : α) {m₁ m₂ : Machine} (frames : m₂.frames = m₁.frames) (stack : m₂.stack = m₁.stack) :
      SameStart (.ok a m₁) (.ok a m₂)
  | error (stop : Stop Signal) {m₁ m₂ : Machine} : SameStart (.error stop m₁) (.error stop m₂)

theorem SameStart.refl {α : Type} (x : EStateM.Result (Stop Signal) Machine α) :
    SameStart x x := by
  cases x with
  | ok a m => exact .ok a rfl rfl
  | error stop m => exact .error stop

theorem beginCall_reading :
    SameStart (beginCall v (some r) args constructing m)
      (beginCall v (some r) args constructing (m.reading r v)) := by
  cases v with
  | function id =>
    let a : Attempt := ⟨m, id, r, args, constructing⟩
    let a' : Attempt := { a with machine := m.reading r (.function id) }
    change SameStart ((a.enter >>= fun _ => pure Start.entered) m)
      ((a'.enter >>= fun _ => pure Start.entered) (m.reading r (.function id)))
    cases hrefusal : a.refusal? with
    | some c =>
      have hrefusal' : a'.refusal? = some c := hrefusal
      rw [bind_of_error (Attempt.enter_of_refused hrefusal),
        bind_of_error (Attempt.enter_of_refused hrefusal')]
      exact .error _
    | none =>
      have hrefusal' : a'.refusal? = none := hrefusal
      rw [bind_of_ok (Attempt.enter_eq_entered hrefusal),
        bind_of_ok (Attempt.enter_eq_entered hrefusal')]
      exact .ok _ (frames_entered a (m.reading r (.function id)) rfl rfl rfl rfl) rfl
  | native id =>
    change SameStart (startNative id r args constructing m)
      (startNative id r args constructing (m.reading r (.native id)))
    have hnative : (m.reading r (.native id)).store.native id = m.store.native id := rfl
    rw [startNative, get_bind_apply, get_bind_apply, hnative]
    split
    · exact .error _
    · exact .ok _ rfl rfl
  | _ => exact .refl _

theorem callAndGoOn_reading :
    SameStart (callAndGoOn v (some r) args none m)
      (callAndGoOn v (some r) args none (m.reading r v)) := by
  have hbegin : SameStart (beginCall v (some r) args none m)
      (beginCall v (some r) args none (m.reading r v)) := beginCall_reading
  change SameStart (EStateM.bind _ _ _) (EStateM.bind _ _ _)
  unfold EStateM.bind
  generalize beginCall v (some r) args none m = x at hbegin ⊢
  generalize beginCall v (some r) args none (m.reading r v) = y at hbegin ⊢
  cases hbegin with
  | ok start hframes hstack =>
    cases start with
    | entered => exact .ok _ hframes hstack
    | native body self given marked => exact .ok _ hframes hstack
  | error stop => exact .error stop

/-- An attribute is read, and called with arguments that were pushed in between. -/
def readThenCall (i : Nat) (args : List Value) : Exec Step := do
  let _ ← execute (.getAttribute i)
  args.forM push
  execute (.call args.length)

theorem forM_push (args : List Value) (m : Machine) :
    (args.forM push : Exec PUnit) m = .ok ⟨⟩ { m with stack := args.reverse ++ m.stack } := by
  induction args generalizing m with
  | nil => rfl
  | cons v args ih =>
    have hpush : push v m = .ok () { m with stack := v :: m.stack } := rfl
    change (push v >>= fun _ => args.forM push) m = _
    rw [bind_of_ok hpush, ih]
    simp only [List.reverse_cons, List.append_assoc, List.singleton_append]

section Instructions

variable {f : Frame} {below : List Frame} {i : Nat} {n : String} (hm : m.frames = f :: below)
  (hfloor : f.stackBase ≤ m.stack.length)
include hm hfloor

theorem execute_call (callee : Value) (args : List Value) :
    execute (.call args.length) { m with stack := args.reverse ++ callee :: m.stack } =
      callAndGoOn callee none args none m :=
  operands_bind args callee (fun args callee => callAndGoOn callee none args none) hm hfloor

variable (hn : f.closure.template.body.nameAt? i = some n)
include hn

theorem execute_callMethod (r : Value) (args : List Value) :
    execute (.callMethod i args.length) { m with stack := args.reverse ++ r :: m.stack } =
      (find r n >>= fun method => callAndGoOn method (some r) args none) m :=
  (name_bind _ hm hn).trans (operands_bind args r
    (fun args r => find r n >>= fun method => callAndGoOn method (some r) args none) hm hfloor)

theorem getAttribute_eq :
    Effect.getAttribute i { m with stack := r :: m.stack } =
      (find r n >>= fun v => alloc (·.bind r v) >>= push) m :=
  (name_bind _ hm hn).trans (pop_bind _ hm hfloor)

theorem readThenCall_of_found (hfind : find r n m = .ok v m) :
    readThenCall i args { m with stack := r :: m.stack } =
      callAndGoOn v (some r) args none (m.reading r v) := by
  have hread : execute (.getAttribute i) { m with stack := r :: m.stack } =
      .ok .next { m.reading r v with stack := (m.store.bind r v).1 :: m.stack } :=
    bind_of_ok ((getAttribute_eq hm hfloor hn).trans (bind_of_ok hfind))
  have hcall := execute_call (m := m.reading r v) hm hfloor (m.store.bind r v).1 args
  rw [readThenCall, bind_of_ok hread, bind_of_ok (forM_push args _)]
  exact hcall.trans callAndGoOn_bind

theorem readThenCall_of_failed {s : Signal} (hfind : find r n m = .error (.failed s) m) :
    readThenCall i args { m with stack := r :: m.stack } = .error (.failed s) m := by
  have hread : execute (.getAttribute i) { m with stack := r :: m.stack } = .error (.failed s) m :=
    bind_of_error ((getAttribute_eq hm hfloor hn).trans (bind_of_error hfind))
  rw [readThenCall, bind_of_error hread]

end Instructions

theorem ended_of_maps {ρ : Renumbering} {x y : Exec Value} (h : Maps ρ 0 (Value.renumber ρ) x y)
    (hm : m.Renumbers ρ 0 m') {o : Outcome} (hx : x m = ended o m₁) :
    ∃ m₂, y m' = ended (Outcome.renumber ρ o) m₂ ∧ m₁.Renumbers ρ 0 m₂ := by
  have hend := h m m' hm
  rw [hx] at hend
  generalize y m' = r at hend ⊢
  cases o with
  | ok v =>
    cases hend with
    | ok hv hm₂ => exact ⟨_, by rw [hv]; rfl, hm₂⟩
  | error s =>
    cases hend with
    | failed _ hm₂ => exact ⟨_, rfl, hm₂⟩

theorem ended_of_maps_back {ρ : Renumbering} {x y : Exec Value}
    (h : Maps ρ 0 (Value.renumber ρ) x y) (hm : m.Renumbers ρ 0 m') {o : Outcome} {m₂ : Machine}
    (hy : y m' = ended o m₂) :
    ∃ o' m₁, o = Outcome.renumber ρ o' ∧ x m = ended o' m₁ ∧ m₁.Renumbers ρ 0 m₂ := by
  have hend := h m m' hm
  rw [hy] at hend
  generalize x m = r at hend ⊢
  cases o with
  | ok v =>
    cases hend with
    | @ok w _ m₁ _ hv hm₂ => exact ⟨.ok w, m₁, by rw [hv]; rfl, rfl, hm₂⟩
  | error s =>
    cases hend with
    | @failed s' m₁ _ hm₂ => exact ⟨.error s', m₁, rfl, rfl, hm₂⟩

/-- Two instructions, or sequences of them, that come to the same up to the numbers of bound
methods, each from a machine of its own. They start in the same frames. -/
structure ComesAlike (ρ : Renumbering) (base : Nat) (x y : Exec Step) (m m' : Machine) : Prop where
  starts : SameStart (x m) (y m')
  forth : ∀ o m₁, ComesTo base (fun call => x >>= complete call) m o m₁ →
    ∃ m₂, ComesTo base (fun call => y >>= complete call) m' (Outcome.renumber ρ o) m₂ ∧
      m₁.Renumbers ρ 0 m₂
  back : ∀ o m₂, ComesTo base (fun call => y >>= complete call) m' o m₂ →
    ∃ o' m₁, o = Outcome.renumber ρ o' ∧
      ComesTo base (fun call => x >>= complete call) m o' m₁ ∧ m₁.Renumbers ρ 0 m₂

theorem comesAlike_of_failed {base : Nat} {x y : Exec Step} {s : Signal} {m₀ : Machine}
    (hx : x m = .error (.failed s) m₀) (hy : y m' = .error (.failed s) m₀) :
    ComesAlike .same base x y m m' := by
  have hx' (call : Callback) : (x >>= complete call) m = .error (.failed s) m₀ := bind_of_error hx
  have hy' (call : Callback) : (y >>= complete call) m' = .error (.failed s) m₀ := bind_of_error hy
  have hsame := m₀.renumbers_same (Nat.zero_le _)
  refine ⟨?_, fun o m₁ h => ?_, fun o m₂ h => ?_⟩
  · rw [hx, hy]
    exact .error _
  · obtain ⟨rfl, rfl⟩ := (comesTo_iff_of_failed hx').1 h
    exact ⟨m₁, (comesTo_iff_of_failed hy').2 ⟨Outcome.renumber_same _, rfl⟩, hsame⟩
  · obtain ⟨rfl, rfl⟩ := (comesTo_iff_of_failed hy').1 h
    exact ⟨.error s, m₂, (Outcome.renumber_same _).symm, (comesTo_iff_of_failed hx').2 ⟨rfl, rfl⟩,
      hsame⟩

theorem comesAlike_of_found {ρ : Renumbering} {base : Nat} {x y : Exec Step} {m₀ : Machine}
    (hbase : base < m₀.frames.length) (hρ : m₀.Renumbers ρ 0 (m₀.reading r v))
    (hr : r.renumber ρ = r) (hv : v.renumber ρ = v) (hargs : args.map (Value.renumber ρ) = args)
    (hframes : m₀.frames = m.frames) (hframes' : m₀.frames = m'.frames)
    (hx : x m = callAndGoOn v (some r) args none m₀)
    (hy : y m' = callAndGoOn v (some r) args none (m₀.reading r v)) :
    ComesAlike ρ base x y m m' := by
  have hx' (call : Callback) : (x >>= complete call) m = calling v (some r) args call m₀ :=
    bind_congr_apply _ hx
  have hy' (call : Callback) :
      (y >>= complete call) m' = calling v (some r) args call (m₀.reading r v) :=
    bind_congr_apply _ hy
  have hmaps (n : Nat) : Maps ρ 0 (Value.renumber ρ) (invoke n v (some r) args)
      (invoke n v (some r) args) := by
    have h := maps_invoke (ρ := ρ) (n := 0) n v (some r) args
    rwa [hv, Option.map_some, hr, hargs] at h
  have hxComes (o : Outcome) (m₁ : Machine) :
      ComesTo base (fun call => x >>= complete call) m o m₁ ↔
        ∃ n, invoke n v (some r) args m₀ = ended o m₁ :=
    (comesTo_congr hframes hx').trans (comesTo_calling_iff hbase)
  have hyComes (o : Outcome) (m₂ : Machine) :
      ComesTo base (fun call => y >>= complete call) m' o m₂ ↔
        ∃ n, invoke n v (some r) args (m₀.reading r v) = ended o m₂ := by
    have hbase' : base < (m₀.reading r v).frames.length := hbase
    have hframes'' : (m₀.reading r v).frames = m'.frames := hframes'
    exact (comesTo_congr hframes'' hy').trans (comesTo_calling_iff hbase')
  refine ⟨?_, fun o m₁ h => ?_, fun o m₂ h => ?_⟩
  · rw [hx, hy]
    exact callAndGoOn_reading
  · obtain ⟨n, hn⟩ := (hxComes o m₁).1 h
    obtain ⟨m₂, hm₂, hrenumbers⟩ := ended_of_maps (hmaps n) hρ hn
    exact ⟨m₂, (hyComes _ m₂).2 ⟨n, hm₂⟩, hrenumbers⟩
  · obtain ⟨n, hn⟩ := (hyComes o m₂).1 h
    obtain ⟨o', m₁, ho, hm₁, hrenumbers⟩ := ended_of_maps_back (hmaps n) hρ hn
    exact ⟨o', m₁, ho, (hxComes o' m₁).2 ⟨n, hm₁⟩, hrenumbers⟩

/-- The instructions of a script come to the same. -/
theorem comesAlike_callMethod {f : Frame} {below : List Frame} {i base : Nat} {n : String}
    (hm : m.frames = f :: below) (hfloor : f.stackBase ≤ m.stack.length)
    (hn : f.closure.template.body.nameAt? i = some n) (hbase : base ≤ below.length)
    (hanchored : Machine.Anchored { m with stack := args.reverse ++ r :: m.stack }) :
    ∃ ρ : Renumbering, ρ.SkipsAtMostOne m.store ∧
      ComesAlike ρ base (execute (.callMethod i args.length)) (readThenCall i args)
        { m with stack := args.reverse ++ r :: m.stack } { m with stack := r :: m.stack } := by
  have hcall := execute_callMethod hm hfloor hn r args
  rcases find_cases r n m with ⟨v, hfind⟩ | ⟨s, hfind⟩
  · obtain ⟨hρ, hr, hv, hargs⟩ := hanchored.renumbers_reading v
    have hbase' : base < m.frames.length := by
      rw [hm]
      exact Nat.lt_succ_of_le hbase
    refine ⟨m.store.renumbering v, m.store.renumbering_skipsAtMostOne v, ?_⟩
    exact comesAlike_of_found hbase' hρ hr hv hargs rfl rfl
      (hcall.trans (bind_of_ok hfind)) (readThenCall_of_found hm hfloor hn hfind)
  · refine ⟨.same, .inl rfl, ?_⟩
    exact comesAlike_of_failed (hcall.trans (bind_of_error hfind))
      (readThenCall_of_failed hm hfloor hn hfind)

end Exec

section Host

variable {ρ : Renumbering} {n : Nat} {m m' : Machine}

theorem Machine.Renumbers.raiseText (h : m.Renumbers ρ n m') (v : Value) :
    m'.raiseText (v.renumber ρ) = m.raiseText v := by
  cases v with
  | object id =>
    have hresolve : m'.store.resolve (.object id) "message" =
        (m.store.resolve (.object id) "message").map (Resolved.renumber ρ) :=
      h.store.resolve (.object id) "message"
    change m'.raiseText (.object id) = _
    unfold Machine.raiseText
    rw [hresolve]
    cases m.store.resolve (.object id) "message" with
    | none => exact h.store.text (.object id)
    | some r =>
      simp only [Option.map_some, Resolved.renumber, Attribute.value_renumber,
        Value.isCallable_renumber]
      split
      · exact h.store.text (.object id)
      · exact h.store.text r.attr.value
  | _ => exact h.store.text _

/-- Two answers to the host that are the same up to the numbers of bound methods. -/
inductive HostAlike (ρ : Renumbering) : EStateM.Result (Stop Failure) Machine Value →
    EStateM.Result (Stop Failure) Machine Value → Prop
  | ok (v : Value) {m m' : Machine} (machine : m.Renumbers ρ 0 m') :
      HostAlike ρ (.ok v m) (.ok (v.renumber ρ) m')
  | failed (fault : Fault) (thrown : Option Value) {m m' : Machine}
      (machine : m.Renumbers ρ 0 m') :
      HostAlike ρ (.error (.failed ⟨fault, thrown⟩) m)
        (.error (.failed ⟨fault, thrown.map (Value.renumber ρ)⟩) m')
  | overflow {m m' : Machine} : HostAlike ρ (.error .overflow m) (.error .overflow m')
  | outOfFuel {m m' : Machine} : HostAlike ρ (.error .outOfFuel m) (.error .outOfFuel m')

namespace HostM

theorem alike_report (h : m.Renumbers ρ 0 m') (s : Signal) :
    HostAlike ρ (report s m) (report (s.renumber ρ) m') := by
  cases s with
  | error fault => exact .failed fault none h
  | raise v =>
    have hm : Machine.Renumbers ρ 0 { m with raiseTrace := [], raisePosition := none }
        { m' with raiseTrace := [], raisePosition := none } :=
      { h with raiseTrace := rfl, raisePosition := rfl }
    have hreport : report (α := Value) (Signal.raise (v.renumber ρ)) m' = .error (.failed
        ⟨⟨.uncaught (m.raiseText v), m.raiseTrace, m.raisePosition⟩, some (v.renumber ρ)⟩)
        { m' with raiseTrace := [], raisePosition := none } := by
      rw [← h.raiseText v, ← h.raiseTrace, ← h.raisePosition]
      rfl
    change HostAlike ρ _ (report (Signal.raise (v.renumber ρ)) m')
    rw [hreport]
    exact .failed _ (some v) hm

theorem alike_ofExec {x y : Exec Value} (hxy : Exec.Maps ρ 0 (Value.renumber ρ) x y)
    (h : m.Renumbers ρ 0 m') : HostAlike ρ (ofExec x m) (ofExec y m') := by
  have hend := hxy m m' h
  have hheight : m'.stack.length = m.stack.length := by rw [h.stack, List.length_map]
  unfold ofExec
  rw [hheight]
  generalize x m = a at hend ⊢
  generalize y m' = b at hend ⊢
  cases hend with
  | @ok v _ m₁ m₂ hv hm =>
    subst hv
    exact .ok v hm
  | @failed s m₁ m₂ hm =>
    have hcut : Machine.Renumbers ρ 0 { m₁ with stack := cutTo m.stack.length m₁.stack }
        { m₂ with stack := cutTo m.stack.length m₂.stack } :=
      { hm with stack := by rw [hm.stack, Exec.cutTo_renumber] }
    exact alike_report hcut s
  | overflow => exact .overflow
  | outOfFuel => exact .outOfFuel

theorem callWith_apply (fuel : Nat) (callee : Value) (this : Option Value) (args : List Value) :
    callWith fuel callee this args m = ofExec (Exec.invoke fuel callee this args) m.beforeCall :=
  rfl

theorem beforeCall_reading (r v : Value) :
    (m.reading r v).beforeCall = m.beforeCall.reading r v := by
  have hframes : (m.reading r v).frames = m.frames := rfl
  unfold Machine.beforeCall
  rw [hframes]
  split <;> rfl

theorem alike_beforeCall (h : m.Renumbers ρ n m') :
    m.beforeCall.Renumbers ρ n m'.beforeCall := by
  have hidle : m'.frames.isEmpty = m.frames.isEmpty := by rw [h.frames, List.isEmpty_map]
  unfold Machine.beforeCall
  rw [hidle]
  split
  · exact { h with executed := rfl }
  · exact h

theorem call_bind (fuel : Nat) (r v : Value) (args : List Value) :
    call fuel (m.store.bind r v).1 args (m.reading r v) =
      callWith fuel v (some r) args (m.reading r v) := by
  have hstore : m.beforeCall.store = m.store := by
    unfold Machine.beforeCall
    split <;> rfl
  rw [call, callWith_apply, callWith_apply, beforeCall_reading, ofExec, ofExec, ← hstore,
    Exec.invoke_bind]

/-- The operations of the host come to the same. -/
theorem hostAlike_callMethod {r : Value} {args : List Value}
    (h : Machine.Anchored { m with stack := args.reverse ++ r :: m.stack }) (name : String) :
    ∃ ρ : Renumbering, ρ.SkipsAtMostOne m.store ∧ ∀ fuel,
      HostAlike ρ (callMethod fuel r name args m)
        ((getAttribute .host r name >>= fun v => call fuel v args) m) := by
  have hmethod (fuel : Nat) : callMethod fuel r name args m =
      (ofExcept (m.store.find .host r name) >>= fun v => callWith fuel v (some r) args) m := rfl
  have hread (fuel : Nat) : (getAttribute .host r name >>= fun v => call fuel v args) m =
      (ofExcept (m.store.find .host r name) >>= fun v => fun m =>
        call fuel (m.store.bind r v).1 args (m.reading r v)) m := by
    change ((ofExcept (m.store.find .host r name) >>= fun v => alloc (·.bind r v)) >>=
      fun v => call fuel v args) m = _
    cases m.store.find .host r name <;> rfl
  cases hfind : m.store.find .host r name with
  | error c =>
    refine ⟨.same, .inl rfl, fun fuel => ?_⟩
    rw [hmethod, hread, hfind]
    exact .failed _ none (m.renumbers_same (Nat.zero_le _))
  | ok v =>
    obtain ⟨hρ, hr, hv, hargs⟩ := h.renumbers_reading v
    refine ⟨m.store.renumbering v, m.store.renumbering_skipsAtMostOne v, fun fuel => ?_⟩
    have hmaps := Exec.maps_invoke (ρ := m.store.renumbering v) (n := 0) fuel v (some r) args
    rw [hv, Option.map_some, hr, hargs] at hmaps
    rw [hmethod, hread, hfind]
    change HostAlike _ (callWith fuel v (some r) args m) (call fuel (m.store.bind r v).1 args _)
    rw [call_bind]
    exact alike_ofExec hmaps (alike_beforeCall hρ)

end HostM

end Host

/-- The call of a method comes to the same as a call of the attribute that was read before, be it
found or not and be it callable or not: for the instructions of a script, whichever loop runs them,
and for the operations of the host. -/
theorem callMethod_like_read_then_call (m : Machine) (r : Value) (n : String) (args : List Value)
    (h : Machine.Anchored { m with stack := args.reverse ++ r :: m.stack }) :
    (∀ f below i base, m.frames = f :: below → f.stackBase ≤ m.stack.length →
      f.closure.template.body.nameAt? i = some n → base ≤ below.length →
      ∃ ρ : Renumbering, ρ.SkipsAtMostOne m.store ∧
        Exec.ComesAlike ρ base (Exec.execute (.callMethod i args.length))
          (Exec.readThenCall i args) { m with stack := args.reverse ++ r :: m.stack }
          { m with stack := r :: m.stack }) ∧
    ∃ ρ : Renumbering, ρ.SkipsAtMostOne m.store ∧ ∀ fuel,
      HostAlike ρ (HostM.callMethod fuel r n args m)
        ((HostM.getAttribute .host r n >>= fun v => HostM.call fuel v args) m) :=
  ⟨fun _ _ _ _ hm hfloor hn hbase => Exec.comesAlike_callMethod hm hfloor hn hbase h,
    HostM.hostAlike_callMethod h n⟩

/-- A native function that calls what it is given. -/
def relay : Native where
  name := "relay"
  minimum := 1
  maximum := none
  body := .host fun this args => .call (args.headD .void) (some this) [] .finish

/-- A script at work that holds a method of an object. The method returns its receiver. -/
def greeting : Machine where
  store :=
    { objects := #[⟨Builtin.object.id, .ofList [("greet", ⟨.function ⟨0⟩, {}⟩)]⟩]
      functions := #[⟨⟨{ arity := .fixed 1
                         body := { code := #[⟨.loadThis, none⟩, ⟨.ret, none⟩] } },
        ⟨0, []⟩, ⟨0⟩⟩, .empty⟩]
      natives := #[relay]
      bounds := .push .empty ⟨.object ⟨0⟩, .function ⟨0⟩⟩ trivial }
  frames :=
    [{ function := ⟨1⟩
       closure := ⟨{ body := { constants := #[.string "greet"] } }, ⟨1, []⟩, ⟨0⟩⟩
       locals := #[.bound ⟨0⟩], supplied := 0, this := .void, pc := 0, stackBase := 0 }]

theorem greeting_anchored :
    Machine.Anchored { greeting with stack := [.bound ⟨0⟩, .object ⟨0⟩] } where
  roots := by decide
  cells := by decide
  natives f hf := by
    cases List.mem_singleton.1 (Array.mem_toList_iff.2 hf)
    intro this args
    have halike := HostProgram.Alike.call (ρ := .skip 1) (args.headD .void) (some this) []
      HostProgram.Alike.finish
    cases args <;> exact halike

theorem callMethod_like_read_then_call_greeting :
    (∃ m₁, Exec.ComesTo 0 (fun call => Exec.execute (.callMethod 0 1) >>= Exec.complete call)
      { greeting with stack := [.bound ⟨0⟩, .object ⟨0⟩] } (.ok (.object ⟨0⟩)) m₁) ∧
    (∃ m₂, Exec.ComesTo 0 (fun call => Exec.readThenCall 0 [.bound ⟨0⟩] >>= Exec.complete call)
      { greeting with stack := [.object ⟨0⟩] } (.ok (.object ⟨0⟩)) m₂) ∧
    ∃ ρ : Renumbering, ρ.SkipsAtMostOne greeting.store ∧ ∀ fuel,
      HostAlike ρ (HostM.callMethod fuel (.object ⟨0⟩) "greet" [.bound ⟨0⟩] greeting)
        ((HostM.getAttribute .host (.object ⟨0⟩) "greet" >>= fun v =>
          HostM.call fuel v [.bound ⟨0⟩]) greeting) := by
  obtain ⟨hscript, hhost⟩ := callMethod_like_read_then_call greeting (.object ⟨0⟩) "greet"
    [.bound ⟨0⟩] greeting_anchored
  obtain ⟨ρ, -, halike⟩ := hscript _ [] 0 0 rfl (Nat.le_refl 0) rfl (Nat.le_refl 0)
  have hcomes : ∃ m₁, Exec.ComesTo 0
      (fun call => Exec.execute (.callMethod 0 1) >>= Exec.complete call)
      { greeting with stack := [.bound ⟨0⟩, .object ⟨0⟩] } (.ok (.object ⟨0⟩)) m₁ := by
    refine ⟨_, .value (n := 0) rfl (.step ?_ rfl (.step ?_ rfl (.refl _))) rfl rfl⟩
    all_goals decide
  obtain ⟨m₁, hm₁⟩ := hcomes
  obtain ⟨m₂, hm₂, -⟩ := halike.forth _ _ hm₁
  exact ⟨⟨m₁, hm₁⟩, ⟨m₂, hm₂⟩, hhost⟩

end ScriptMachine
