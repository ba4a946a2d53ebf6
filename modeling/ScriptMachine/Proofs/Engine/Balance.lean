import ScriptMachine.Proofs.Engine.Loop

namespace ScriptMachine

namespace Exec

theorem quiet_loop {call : Callback} (hcall : call.Quiet) {m₀ : Machine} (fuel : Nat) :
    Triple (m₀.Busy fun _ => True) (loop call m₀.frames.length fuel) (fun _ => m₀.Quiet)
      fun _ => m₀.Quiet := by
  induction fuel with
  | zero => exact fun _ _ => trivial
  | succ fuel ih =>
    refine .bind (busy_cycle Frame.invariant_true hcall) fun r => ?_
    cases r with
    | none => exact ih
    | some v => exact .pure fun _ h => h

theorem quiet_invoke (fuel : Nat) : Callback.Quiet (invoke fuel) := by
  induction fuel with
  | zero => exact fun _ _ _ _ _ _ => trivial
  | succ fuel ih =>
    intro callee this args m₀
    refine .get_bind fun m hm => ?_
    dsimp only
    -- the call is balanced against `m`, where it starts, and `m` is quiet since `m₀`
    refine .bind (J := Started m) ?_ fun start => ?_
    · rintro _ ⟨rfl, -⟩
      refine (started_beginCall callee this args none _ (.refl _)).mono (fun _ _ h => h) ?_
      exact fun s m' h => ⟨hm.trans h.1.quiet, trivial⟩
    · cases start with
      | entered =>
        refine (quiet_loop ih fuel).conseq (fun m' h => h.busy Frame.invariant_true)
          (fun _ _ h => hm.trans h) fun _ _ h => ⟨hm.trans h, trivial⟩
      | native body this args constructing =>
        exact (quiet_runNative ih body this args constructing).conseq (fun _ h => h.1.quiet)
          (fun _ _ h => hm.trans h) fun _ _ h => ⟨hm.trans h.1, trivial⟩

end Exec

/-- A computation that comes to an end in `m'`, with a result or a failure. -/
def Completes {ε α : Type} (x : EStateM (Stop ε) Machine α) (m m' : Machine) : Prop :=
  (∃ a, x m = .ok a m') ∨ ∃ e, x m = .error (.failed e) m'

/-- The machine in which a computation stopped. -/
def stoppedAt {ε α : Type} : EStateM.Result (Stop ε) Machine α → Machine
  | .ok _ m => m
  | .error _ m => m

/-- The failure by which a computation came to an end. -/
def failure? {ε α : Type} : EStateM.Result (Stop ε) Machine α → Option ε
  | .error (.failed e) _ => some e
  | _ => none

theorem exists_of_failure {ε α : Type} {r : EStateM.Result (Stop ε) Machine α}
    (h : (failure? r).isSome = true) : ∃ e, r = .error (.failed e) (stoppedAt r) := by
  unfold failure? at h
  split at h
  · exact ⟨_, rfl⟩
  · cases h

theorem Completes.eq_of_ok {ε α : Type} {x : EStateM (Stop ε) Machine α} {a : α}
    {m m₁ m' : Machine} (h : Completes x m m') (hx : x m = .ok a m₁) : m' = m₁ := by
  unfold Completes at h
  rw [hx] at h
  rcases h with ⟨_, h⟩ | ⟨_, h⟩
  · cases h
    rfl
  · cases h

theorem Completes.eq_of_failed {ε α : Type} {x : EStateM (Stop ε) Machine α} {e : ε}
    {m m₁ m' : Machine} (h : Completes x m m') (hx : x m = .error (.failed e) m₁) : m' = m₁ := by
  unfold Completes at h
  rw [hx] at h
  rcases h with ⟨_, h⟩ | ⟨_, h⟩
  · cases h
  · cases h
    rfl

theorem Exec.Keeps.of_completes {α : Type} {I : Machine → Prop} {B : Signal → Prop} {x : Exec α}
    {m m' : Machine} (hx : Keeps I B x) (hm : I m) (h : Completes x m m') : I m' := by
  rcases h with ⟨a, heq⟩ | ⟨s, heq⟩
  · exact hx.of_ok hm heq
  · exact (hx.of_failed hm heq).1

theorem completes_bind {ε α β : Type} {x : EStateM (Stop ε) Machine α}
    {f : α → EStateM (Stop ε) Machine β} {m m' : Machine} (h : Completes (x >>= f) m m') :
    (∃ a m₁, x m = .ok a m₁ ∧ Completes (f a) m₁ m') ∨ Completes x m m' := by
  have hbind : (x >>= f) m = EStateM.bind x f m := rfl
  unfold Completes at h
  rw [hbind, EStateM.bind] at h
  cases hx : x m with
  | ok a m₁ =>
    rw [hx] at h
    exact .inl ⟨a, m₁, rfl, h⟩
  | error stop m₁ =>
    rw [hx] at h
    rcases h with ⟨_, h⟩ | ⟨e, h⟩
    · cases h
    · exact .inr (.inr ⟨e, hx.trans (by cases h; rfl)⟩)

/-- Between `m₀` and `m` the active calls and the operands are the same, and static blocks have kept
their slots. -/
structure Machine.Still (m₀ m : Machine) : Prop where
  frames : m.frames = m₀.frames
  stack : m.stack = m₀.stack
  slots : m₀.store.SlotsKept m.store

namespace Machine.Still

variable {m₀ m m' : Machine}

theorem refl (m : Machine) : m.Still m :=
  ⟨rfl, rfl, .refl _⟩

theorem trans (h : m₀.Still m) (h' : m.Still m') : m₀.Still m' :=
  ⟨h'.frames.trans h.frames, h'.stack.trans h.stack, h.slots.trans h'.slots⟩

theorem of_quiet (h : m₀.Quiet m) : m₀.Still m :=
  ⟨h.frames, h.stack, h.store.slots⟩

end Machine.Still

namespace HostM

variable {α β : Type} {m m' : Machine}

theorem still_ofExcept {r : Except Cause α} (h : Completes (ofExcept r) m m') : m.Still m' := by
  cases r with
  | ok a =>
    rw [h.eq_of_ok rfl]
    exact .refl m
  | error c =>
    rw [h.eq_of_failed rfl]
    exact .refl m

theorem still_report {s : Signal} (h : Completes (report s : HostM α) m m') : m.Still m' := by
  cases s with
  | error fault =>
    rw [h.eq_of_failed rfl]
    exact .refl m
  | raise v =>
    -- the report clears the trace of the raise, and nothing else
    rw [h.eq_of_failed rfl]
    exact ⟨rfl, rfl, .refl _⟩

theorem ofExec_completes {x : Exec α} (h : Completes (ofExec x) m m') :
    (∃ a, x m = .ok a m') ∨ ∃ s m₁, x m = .error (.failed s) m₁ ∧
      Completes (report s : HostM α) { m₁ with stack := cutTo m.stack.length m₁.stack } m' := by
  cases hx : x m with
  | ok a m₁ =>
    have heq : ofExec x m = .ok a m₁ := by rw [ofExec, hx]
    rw [h.eq_of_ok heq]
    exact .inl ⟨a, rfl⟩
  | error stop m₁ =>
    unfold Completes ofExec at h
    rw [hx] at h
    cases stop with
    | failed s => exact .inr ⟨s, m₁, rfl, h⟩
    | overflow => rcases h with ⟨_, h⟩ | ⟨_, h⟩ <;> cases h
    | outOfFuel => rcases h with ⟨_, h⟩ | ⟨_, h⟩ <;> cases h

theorem still_ofExec {x : Exec α} (hx : Exec.Keeps (Machine.Quiet m) (fun _ => True) x)
    (h : Completes (ofExec x) m m') : m.Still m' := by
  rcases ofExec_completes h with ⟨a, heq⟩ | ⟨s, m₁, heq, hreport⟩
  · exact .of_quiet (hx.of_ok (.refl m) heq)
  · have hquiet := (hx.of_failed (.refl m) heq).1
    -- the host cuts the stack after a signal, and finds nothing to cut
    have hcut : cutTo m.stack.length m₁.stack = m.stack := by
      rw [hquiet.stack, cutTo_of_length_le (Nat.le_refl _)]
    have hstill : m.Still { m₁ with stack := cutTo m.stack.length m₁.stack } :=
      ⟨hquiet.frames, hcut, hquiet.store.slots⟩
    exact hstill.trans (still_report hreport)

theorem still_callWith {fuel : Nat} {callee : Value} {this : Option Value} {args : List Value}
    (h : Completes (callWith fuel callee this args) m m') : m.Still m' := by
  have hstart : m.Still (if m.frames.isEmpty then { m with executed := 0 } else m) := by
    split
    · exact ⟨rfl, rfl, .refl _⟩
    · exact .refl m
  exact hstart.trans (still_ofExec (Exec.quiet_invoke fuel callee this args _) h)

theorem still_callMethod {fuel : Nat} {receiver : Value} {name : String} {args : List Value}
    (h : Completes (callMethod fuel receiver name args) m m') : m.Still m' := by
  have hget : Completes (ofExcept (m.store.find .host receiver name) >>= fun method =>
    callWith fuel method (some receiver) args) m m' := h
  rcases completes_bind hget with ⟨method, m₁, hfind, hcall⟩ | hfind
  · exact (still_ofExcept (.inl ⟨method, hfind⟩)).trans (still_callWith hcall)
  · exact still_ofExcept hfind

/-- The function that a load makes of a fragment. -/
def loaded (f : Fragment) (m : Machine) : Closure :=
  ⟨f.main, ⟨m.loads, []⟩, ⟨m.store.statics.size⟩⟩

/-- The machine after a load: one static block and one function more. -/
def afterLoad (f : Fragment) (m : Machine) : Machine :=
  { m with
    store := ((m.store.newStatics (.ofNames f.statics (some f.source))).2.newFunction
      ⟨loaded f m, .empty⟩).2
    loads := m.loads + 1 }

theorem load_eq (f : Fragment) (m : Machine) :
    load f m =
      match if m.config.verifyFragments then f.verify else none with
      | some fault => .error (.failed { fault }) m
      | none => .ok (.function ⟨m.store.functions.size⟩) (afterLoad f m) := by
  change (match if m.config.verifyFragments then f.verify else none with
    | some fault => (failWith fault : HostM Value)
    | none => _) m = _
  cases (if m.config.verifyFragments then f.verify else none) with
  | none => rfl
  | some fault => rfl

theorem load_eq_ok {f : Fragment} {v : Value} (h : load f m = .ok v m') :
    v = .function ⟨m.store.functions.size⟩ ∧ m' = afterLoad f m := by
  rw [load_eq] at h
  split at h
  · cases h
  · cases h
    exact ⟨rfl, rfl⟩

theorem still_afterLoad (f : Fragment) (m : Machine) : m.Still (afterLoad f m) :=
  ⟨rfl, rfl, .newStatics m.store _⟩

theorem still_load {f : Fragment} (h : Completes (load f) m m') : m.Still m' := by
  have heq := load_eq f m
  split at heq
  · rw [h.eq_of_failed heq]
    exact .refl m
  · rw [h.eq_of_ok heq]
    exact still_afterLoad f m

theorem still_execute {fuel : Nat} {f : Fragment} (h : Completes (execute fuel f) m m') :
    m.Still m' := by
  rcases completes_bind h with ⟨v, m₁, hload, hcall⟩ | hload
  · exact (still_load (.inl ⟨v, hload⟩)).trans (still_callWith hcall)
  · exact still_load hload

end HostM

/-- One operation of the host. Those that make no call may change everything but the active calls,
the operands and the number of slots of a static block. -/
inductive HostStep (m m' : Machine) : Prop
  | load (f : Fragment) (h : Completes (HostM.load f) m m')
  | call (fuel : Nat) (callee : Value) (args : List Value)
      (h : Completes (HostM.call fuel callee args) m m')
  | callMethod (fuel : Nat) (receiver : Value) (name : String) (args : List Value)
      (h : Completes (HostM.callMethod fuel receiver name args) m m')
  | execute (fuel : Nat) (f : Fragment) (h : Completes (HostM.execute fuel f) m m')
  | other (h : m.Still m')

/-- Operations of the host one after the other. -/
inductive HostRun (m : Machine) : Machine → Prop
  | refl : HostRun m m
  | step {m' m'' : Machine} : HostRun m m' → HostStep m' m'' → HostRun m m''

theorem HostStep.still {m m' : Machine} (h : HostStep m m') : m.Still m' := by
  cases h with
  | load f h => exact HostM.still_load h
  | call fuel callee args h => exact HostM.still_callWith h
  | callMethod fuel receiver name args h => exact HostM.still_callMethod h
  | execute fuel f h => exact HostM.still_execute h
  | other h => exact h

theorem HostRun.still {m m' : Machine} (h : HostRun m m') : m.Still m' := by
  induction h with
  | refl => exact .refl m
  | step _ hstep ih => exact ih.trans hstep.still

/-- Whichever way a call ends, the active calls and the operands are those from before it. So after a
call of the host there are none. -/
theorem calls_balanced {m m' : Machine} (fuel : Nat) :
    (∀ callee this args, Completes (Exec.invoke fuel callee this args) m m' →
      m'.frames = m.frames ∧ m'.stack = m.stack) ∧
    ∀ config, HostRun (Machine.start config) m →
      ((∃ callee args, Completes (HostM.call fuel callee args) m m') ∨
        (∃ receiver name args, Completes (HostM.callMethod fuel receiver name args) m m') ∨
        ∃ f, Completes (HostM.execute fuel f) m m') →
      m'.frames = [] ∧ m'.stack = [] := by
  constructor
  · intro callee this args h
    have hquiet := (Exec.quiet_invoke fuel callee this args m).of_completes (.refl m) h
    exact ⟨hquiet.frames, hquiet.stack⟩
  · intro config hrun h
    have hstep : HostStep m m' := by
      rcases h with ⟨callee, args, h⟩ | ⟨receiver, name, args, h⟩ | ⟨f, h⟩
      · exact .call fuel callee args h
      · exact .callMethod fuel receiver name args h
      · exact .execute fuel f h
    have hstill := hrun.still.trans hstep.still
    exact ⟨hstill.frames, hstill.stack⟩

/-- A function that raises. -/
def raising : Template where
  body := { code := #[⟨.pushTrue, none⟩, ⟨.throw, none⟩] }

/-- A script at work, with one operand, in a machine with a native function that calls `raising`
twice and passes on the second signal only. -/
def inCall : Machine where
  store :=
    { functions := #[⟨⟨raising, ⟨0, []⟩, ⟨0⟩⟩, .empty⟩]
      natives := #[⟨"twice", 0, none, .host fun _ _ =>
        .call (.function ⟨0⟩) none [] fun _ => .call (.function ⟨0⟩) none [] .finish, []⟩] }
  frames :=
    [{ function := ⟨0⟩, closure := ⟨raising, ⟨0, []⟩, ⟨0⟩⟩, locals := #[], supplied := 0,
       this := .void, pc := 1, stackBase := 0 }]
  stack := [.void]

theorem calls_balanced_raise :
    (∃ m', Completes (Exec.invoke 5 (.native ⟨0⟩) none []) inCall m' ∧
      m'.frames = inCall.frames ∧ m'.stack = inCall.stack) ∧
    ∃ m', Completes (HostM.execute 5 { source := "", main := raising }) (Machine.start {}) m' ∧
      m'.frames = [] ∧ m'.stack = [] := by
  constructor
  · have hfail : (failure? (Exec.invoke 5 (.native ⟨0⟩) none [] inCall)).isSome = true := by
      decide +kernel
    obtain ⟨s, h⟩ := exists_of_failure hfail
    exact ⟨_, .inr ⟨s, h⟩, (calls_balanced 5).1 _ _ _ (.inr ⟨s, h⟩)⟩
  · have hfail : (failure? (HostM.execute 5 { source := "", main := raising }
        (Machine.start {}))).isSome = true := by decide +kernel
    obtain ⟨e, h⟩ := exists_of_failure hfail
    exact ⟨_, .inr ⟨e, h⟩, (calls_balanced 5).2 {} .refl (.inr (.inr ⟨_, .inr ⟨e, h⟩⟩))⟩

end ScriptMachine
