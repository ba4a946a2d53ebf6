import ScriptMachine.Proofs.Engine.Preparation
import ScriptMachine.Proofs.Engine.Refusal

namespace ScriptMachine

/-- An attempt to enter a script function, and the machine in which it is made. -/
structure Attempt where
  machine : Machine
  function : FunctionId
  this : Value
  args : List Value
  constructing : Option Value

namespace Attempt

def closure (a : Attempt) : Closure :=
  (a.machine.store.function a.function).closure

/-- The number of active frames, with the one to be entered. -/
def depth (a : Attempt) : Nat :=
  a.machine.frames.length + 1

/-- What the guard is asked, if there is one and the depth is within the limit. -/
def question? (a : Attempt) : Option (Nat × String) :=
  if a.depth ≤ a.machine.config.maxDepth ∧ a.machine.guard.isSome then
    some (a.depth, a.closure.name)
  else none

/-- What the guard objects to. -/
def objection? (a : Attempt) : Option Cause :=
  a.machine.guard.bind fun g => g.refuse? a.machine.guarded a.depth a.closure.name

/-- What is wrong with the number of arguments. -/
def shortfall? (a : Attempt) : Option Cause :=
  let t := a.closure.template
  if a.args.length < t.arity.minimum then
    some (.arity t.displayName t.arity.minimum t.arity.bound? a.args.length)
  else none

/-- Why the function is not entered. -/
def refusal? (a : Attempt) : Option Cause :=
  if a.depth ≤ a.machine.config.maxDepth then a.objection?.or a.shortfall?
  else some (.breakdown (.tooDeep a.machine.config.maxDepth))

/-- The frame to be entered. -/
def frame (a : Attempt) (locals : Array Value) (stackBase : Nat) : Frame where
  function := a.function
  closure := a.closure
  locals := locals
  supplied := min a.args.length a.closure.template.arity.positionalLimit
  this := a.this
  stackBase := stackBase
  constructing := a.constructing

/-- The machine once the guard was asked. -/
def asked (a : Attempt) : Machine :=
  { a.machine with guarded := a.machine.guarded ++ a.question?.toList }

def enter (a : Attempt) : Exec Unit :=
  Exec.pushFrame a.function a.this a.args a.constructing

end Attempt

namespace Exec

theorem deeper_eq (m : Machine) :
    deeper m =
      if m.frames.length + 1 ≤ m.config.maxDepth then .ok (m.frames.length + 1) m
      else .error (.failed (.ofCause (.breakdown (.tooDeep m.config.maxDepth)))) m := by
  rw [deeper, get_bind_apply]
  by_cases h : m.frames.length + 1 ≤ m.config.maxDepth
  · rw [if_pos h, if_pos h]
    rfl
  · rw [if_neg h, if_neg h]
    rfl

theorem askGuard_of_none {m : Machine} (h : m.guard = none) (depth : Nat) (n : String) :
    askGuard depth n m = .ok () m := by
  rw [askGuard, get_bind_apply, h]
  rfl

theorem askGuard_of_some {m : Machine} {g : Guard} (h : m.guard = some g) (depth : Nat)
    (n : String) :
    askGuard depth n m =
      match g.refuse? m.guarded depth n with
      | some c => .error (.failed (.ofCause c)) { m with guarded := m.guarded ++ [(depth, n)] }
      | none => .ok () { m with guarded := m.guarded ++ [(depth, n)] } := by
  rw [askGuard, get_bind_apply]
  generalize hm' : { m with guarded := m.guarded ++ [(depth, n)] } = m'
  rw [h]
  dsimp only
  rw [modify_bind_apply, hm']
  cases g.refuse? m.guarded depth n <;> rfl

theorem bindArguments_of_lt {t : Template} {args : List Value}
    (h : args.length < t.arity.minimum) (m : Machine) :
    bindArguments t args m =
      .error (.failed (.ofCause (.arity t.displayName t.arity.minimum t.arity.bound? args.length)))
        m := by
  rw [bindArguments, if_pos h]
  rfl

theorem bindArguments_of_le {t : Template} {args : List Value}
    (h : ¬ args.length < t.arity.minimum) (m : Machine) :
    ∃ locals store, bindArguments t args m = .ok locals { m with store } := by
  rw [bindArguments, if_neg h]
  cases t.arity.variadic.filter (· < t.arity.parameters) with
  | none => exact ⟨_, m.store, rfl⟩
  | some slot => exact ⟨_, _, rfl⟩

end Exec

namespace Attempt

variable {a : Attempt} {c : Cause}

theorem asked_of_none (h : a.question? = none) : a.asked = a.machine := by
  rw [asked, h, Option.toList_none, List.append_nil]

theorem askGuard_eq (h : a.depth ≤ a.machine.config.maxDepth) :
    Exec.askGuard a.depth a.closure.name a.machine =
      match a.objection? with
      | some c => .error (.failed (.ofCause c)) a.asked
      | none => .ok () a.asked := by
  cases hguard : a.machine.guard with
  | none =>
    have hobjection : a.objection? = none := by rw [objection?, hguard, Option.bind_none]
    have hquestion : a.question? = none := by simp [question?, hguard]
    rw [Exec.askGuard_of_none hguard, hobjection, asked_of_none hquestion]
  | some g =>
    have hobjection : a.objection? = g.refuse? a.machine.guarded a.depth a.closure.name := by
      rw [objection?, hguard, Option.bind_some]
    have hquestion : a.question? = some (a.depth, a.closure.name) := by
      simp [question?, hguard, h]
    rw [Exec.askGuard_of_some hguard, hobjection, asked, hquestion, Option.toList_some]

theorem enter_eq (h : a.depth ≤ a.machine.config.maxDepth) :
    a.enter a.machine = (do
      Exec.askGuard a.depth a.closure.name
      let locals ← Exec.bindArguments a.closure.template a.args
      modify fun m => { m with frames := a.frame locals m.stack.length :: m.frames } : Exec Unit)
        a.machine := by
  have hdeeper : Exec.deeper a.machine = .ok a.depth a.machine := by
    rw [Exec.deeper_eq]
    exact if_pos h
  rw [enter, Exec.pushFrame, Exec.bind_of_ok hdeeper]
  rfl

theorem enter_of_refused (h : a.refusal? = some c) :
    a.enter a.machine = .error (.failed (.ofCause c)) a.asked := by
  by_cases hdepth : a.depth ≤ a.machine.config.maxDepth
  · rw [refusal?, if_pos hdepth] at h
    have hask := askGuard_eq hdepth
    rw [enter_eq hdepth]
    cases hobjection : a.objection? with
    | some c' =>
      rw [hobjection] at hask h
      cases h
      exact Exec.bind_of_error hask
    | none =>
      rw [hobjection] at hask h
      rw [Exec.bind_of_ok hask]
      simp only [Option.none_or, shortfall?] at h
      split at h
      · rename_i hlt
        cases h
        exact Exec.bind_of_error (Exec.bindArguments_of_lt hlt a.asked)
      · cases h
  · rw [refusal?, if_neg hdepth] at h
    cases h
    have hquestion : a.question? = none := by simp [question?, hdepth]
    have hdeeper : Exec.deeper a.machine = .error
        (.failed (.ofCause (.breakdown (.tooDeep a.machine.config.maxDepth)))) a.machine := by
      rw [Exec.deeper_eq]
      exact if_neg hdepth
    rw [asked_of_none hquestion]
    exact Exec.bind_of_error hdeeper

/-- An attempt that is not refused enters the function at its start, within the limit. -/
theorem enter_of_admitted (h : a.refusal? = none) :
    a.depth ≤ a.machine.config.maxDepth ∧
    ∃ locals store, a.enter a.machine = .ok () { a.asked with
      store := store
      frames := a.frame locals a.machine.stack.length :: a.machine.frames } := by
  by_cases hdepth : a.depth ≤ a.machine.config.maxDepth
  · rw [refusal?, if_pos hdepth] at h
    obtain ⟨hobjection, hshortfall⟩ := Option.or_eq_none_iff.1 h
    have hask := askGuard_eq hdepth
    rw [hobjection] at hask
    have henough : ¬ a.args.length < a.closure.template.arity.minimum := by
      intro hlt
      simp [shortfall?, hlt] at hshortfall
    obtain ⟨locals, store, hbind⟩ := Exec.bindArguments_of_le henough a.asked
    refine ⟨hdepth, locals, store, ?_⟩
    rw [enter_eq hdepth, Exec.bind_of_ok hask, Exec.bind_of_ok hbind]
    rfl
  · rw [refusal?, if_neg hdepth] at h
    cases h

end Attempt

/-- The script function that a method comes to. -/
def Callable.entry? : Callable → Value → Option (FunctionId × Value)
  | .function id, this => some (id, this)
  | .native _, _ => none

/-- The script function that a call comes to, and the receiver with which it does. -/
def Machine.entry? (m : Machine) (callee : Value) (this : Option Value) :
    Option (FunctionId × Value) :=
  match m.store.dispatch m.access callee (this.getD .void) with
  | .ok (method, self) => method.entry? self
  | .error _ => none

/-- The attempt that a call makes. One of a native function makes none. -/
def Machine.attempt? (m : Machine) (callee : Value) (this : Option Value) (args : List Value)
    (constructing : Option Value) : Option Attempt :=
  (m.entry? callee this).map fun e => ⟨m, e.1, e.2, args, constructing⟩

namespace Exec

variable {callee : Value} {this : Option Value} {args : List Value} {constructing : Option Value}
  {m m' : Machine}

/-- How a call starts: it makes its attempt, or leaves the machine as it is. -/
inductive Opens (m : Machine) (args : List Value) (constructing : Option Value) :
    Option (FunctionId × Value) → EStateM.Result (Stop Signal) Machine Start → Prop
  | attempt (id : FunctionId) (this : Value) :
      Opens m args constructing (some (id, this))
        ((do pushFrame id this args constructing; return .entered : Exec Start) m)
  | native (start : Start) : Opens m args constructing none (.ok start m)
  | failed (s : Signal) : Opens m args constructing none (.error (.failed s) m)

theorem opens_startNative (id : NativeId) (this : Value) :
    Opens m args constructing none (startNative id this args constructing m) := by
  rw [startNative, get_bind_apply]
  split
  · exact .failed _
  · exact .native _

theorem opens_beginPlain (c : Callable) (this : Value) :
    Opens m args constructing (c.entry? this) (beginPlain c this args constructing m) := by
  cases c with
  | function id => exact .attempt id this
  | native id => exact opens_startNative id this

theorem opens_beginCall :
    Opens m args constructing (m.entry? callee this)
      (beginCall callee this args constructing m) := by
  unfold Machine.entry?
  split
  · rename_i method self hdispatch
    rw [beginCall_of_dispatch hdispatch]
    exact opens_beginPlain method self
  · rename_i c hdispatch
    rw [beginCall_of_undispatched hdispatch]
    exact .failed _

theorem beginCall_of_attempt {a : Attempt} (h : m.attempt? callee this args constructing = some a) :
    a.machine = m ∧
      beginCall callee this args constructing m = (do a.enter; return .entered : Exec Start) m := by
  obtain ⟨⟨id, self⟩, hentry, rfl⟩ := Option.map_eq_some_iff.1 h
  have hopens : Opens m args constructing _ (beginCall callee this args constructing m) :=
    opens_beginCall
  rw [hentry] at hopens
  generalize hstart : beginCall callee this args constructing m = start at hopens
  cases hopens
  exact ⟨rfl, rfl⟩

theorem beginCall_of_no_attempt (h : m.attempt? callee this args constructing = none)
    (hx : Completes (beginCall callee this args constructing) m m') : m' = m := by
  have hentry : m.entry? callee this = none := Option.map_eq_none_iff.1 h
  have hopens : Opens m args constructing _ (beginCall callee this args constructing m) :=
    opens_beginCall
  rw [hentry] at hopens
  generalize hstart : beginCall callee this args constructing m = start at hopens
  cases hopens with
  | native start => exact hx.eq_of_ok hstart
  | failed s => exact hx.eq_of_failed hstart

theorem beginCall_of_refused {a : Attempt} {c : Cause}
    (h : m.attempt? callee this args constructing = some a) (hc : a.refusal? = some c) :
    beginCall callee this args constructing m = .error (.failed (.ofCause c)) a.asked := by
  obtain ⟨rfl, hbegin⟩ := beginCall_of_attempt h
  rw [hbegin]
  exact bind_of_error (a.enter_of_refused hc)

/-- A call from the host or from a native function hands the error over. -/
theorem invoke_of_refused {a : Attempt} {c : Cause} (h : m.attempt? callee this args none = some a)
    (hc : a.refusal? = some c) (n : Nat) :
    invoke (n + 1) callee this args m = .error (.failed (.ofCause c)) a.asked := by
  rw [invoke, get_bind_apply]
  exact bind_of_error (beginCall_of_refused h hc)

end Exec

/-- The attempt that an instruction makes, for the method of a comparison too. -/
def Opcode.attempt? (o : Opcode) (m : Machine) : Option Attempt :=
  match Exec.prepare o m with
  | .ok (.call callee this args constructing) m' => m'.attempt? callee this args constructing
  | .ok (.step (.compare method a b)) m' => m'.attempt? method (some a) [b] none
  | _ => none

namespace Exec

variable {o : Opcode} {m : Machine} {a : Attempt} {c : Cause} {n : Nat}

theorem execute_cases (h : o.attempt? m = some a) (hc : a.refusal? = some c) :
    execute o m = .error (.failed (.ofCause c)) a.asked ∨
      ∃ method v w m', execute o m = .ok (.compare method v w) m' ∧
        m'.attempt? method (some v) [w] none = some a := by
  rw [execute_eq]
  unfold Opcode.attempt? at h
  split at h
  · rename_i callee this args constructing m' hprepare
    have hbegin := beginCall_of_refused h hc
    exact .inl ((bind_of_ok hprepare).trans (bind_of_error hbegin))
  · rename_i method v w m' hprepare
    exact .inr ⟨method, v, w, m', bind_of_ok hprepare, h⟩
  · cases h

theorem execute_of_refused (h : o.attempt? m = some a) (hc : a.refusal? = some c) :
    (execute o >>= complete (invoke (n + 1))) m = .error (.failed (.ofCause c)) a.asked := by
  rcases execute_cases h hc with hexecute | ⟨method, v, w, m', hexecute, ha⟩
  · exact bind_of_error hexecute
  · rw [bind_of_ok hexecute]
    exact bind_of_error (invoke_of_refused ha hc n)

theorem not_entersCode_of_refused (h : o.attempt? m = some a) (hc : a.refusal? = some c) :
    ¬ EntersCode o m := by
  rcases execute_cases h hc with hexecute | ⟨method, v, w, m', hexecute, ha⟩
  · exact not_entersCode_of_failed hexecute
  · rw [EntersCode, hexecute]
    rintro ⟨start, m₂, hstart⟩
    rw [beginCall_of_refused ha hc] at hstart
    cases hstart

theorem spared_of_refused (h : o.attempt? m = some a) (hc : a.refusal? = some c) :
    m.Spared a.asked :=
  (spared_of_failed (n := 1) (execute_of_refused h hc) (not_entersCode_of_refused h hc)).1

end Exec

end ScriptMachine
