import ScriptMachine.Proofs.Engine.Rounds

namespace ScriptMachine

/-- How many operands an instruction collects into a new array or map. -/
def Opcode.collected? : Opcode → Option Nat
  | .createArray count => some count.toNat
  | .createMap count => some (2 * count.toNat)
  | _ => none

namespace Exec

/-- What becomes of the collection of `k` operands of the machine `m`. -/
inductive Collects {α : Type} (k : Nat) (m : Machine) :
    EStateM.Result (Stop Signal) Machine α → Prop
  | overflow (h : maxWord < m.floor + k) : Collects k m (.error .overflow m)
  | underflow {fault : Fault} (h : m.floor + k ≤ maxWord) (hfew : m.stack.length < m.floor + k)
      (hcause : fault.cause = .breakdown .operandUnderflow) :
    Collects k m (.error (.failed (.error fault)) m)
  /-- An operand that cannot be a key. -/
  | refused {fault : Fault} {m' : Machine} (h : m.floor + k ≤ maxWord)
      (henough : m.floor + k ≤ m.stack.length) (hkind : fault.kind ≠ .internal) :
    Collects k m (.error (.failed (.error fault)) m')
  | built {a : α} {m' : Machine} (h : m.floor + k ≤ maxWord)
      (henough : m.floor + k ≤ m.stack.length) : Collects k m (.ok a m')

namespace Collects

variable {α : Type} {k : Nat} {m : Machine} {r : EStateM.Result (Stop Signal) Machine α}

theorem overflow_iff (h : Collects k m r) :
    (∃ m', r = .error .overflow m') ↔ maxWord < m.floor + k := by
  cases h with
  | overflow hword => exact ⟨fun _ => hword, fun _ => ⟨m, rfl⟩⟩
  | underflow hle | refused hle | built hle =>
    refine ⟨?_, fun hword => absurd hle (Nat.not_le_of_lt hword)⟩
    rintro ⟨_, heq⟩
    cases heq

theorem underflow_iff (h : Collects k m r) :
    (∃ fault m', r = .error (.failed (.error fault)) m' ∧
        fault.cause = .breakdown .operandUnderflow ∧ m'.stack = m.stack) ↔
      m.floor + k ≤ maxWord ∧ m.stack.length < m.floor + k := by
  cases h with
  | overflow hword =>
    refine ⟨?_, fun hle => absurd hle.1 (Nat.not_le_of_lt hword)⟩
    rintro ⟨_, _, heq, -⟩
    cases heq
  | underflow hle hfew hcause => exact ⟨fun _ => ⟨hle, hfew⟩, fun _ => ⟨_, m, rfl, hcause, rfl⟩⟩
  | refused _ henough hkind =>
    refine ⟨?_, fun hfew => absurd henough (Nat.not_le_of_lt hfew.2)⟩
    rintro ⟨_, _, heq, hcause, -⟩
    cases heq
    rw [Fault.kind, hcause] at hkind
    exact absurd rfl hkind
  | built _ henough =>
    refine ⟨?_, fun hfew => absurd henough (Nat.not_le_of_lt hfew.2)⟩
    rintro ⟨_, _, heq, -⟩
    cases heq

end Collects

section Collecting

variable {m : Machine} {o : Opcode} {k : Nat}

theorem collects_popCounted {f : List Value → Exec Unit}
    (hf : ∀ items m', (∃ m'', f items m' = .ok () m'') ∨
      ∃ c m'', c.kind ≠ .internal ∧ f items m' = .error (.failed (.ofCause c)) m'') :
    Collects k m ((popCounted k >>= f) m) := by
  by_cases hword : maxWord < m.floor + k
  · have hpop : popCounted k m = .error .overflow m := by
      rw [popCounted, get_bind_apply, if_pos hword]
      rfl
    rw [bind_of_error hpop]
    exact .overflow hword
  have hmany : popCounted k m = popMany k m := by
    rw [popCounted, get_bind_apply, if_neg hword]
  have hle := Nat.le_of_not_lt hword
  by_cases hfew : m.stack.length < m.floor + k
  · have hpop : popCounted k m = .error (.failed (.ofCause (.breakdown .operandUnderflow))) m := by
      rw [hmany, popMany, get_bind_apply, if_pos hfew]
      rfl
    rw [bind_of_error hpop]
    exact .underflow hle hfew rfl
  · have hpop : popCounted k m =
        .ok (m.stack.take k).reverse { m with stack := m.stack.drop k } := by
      rw [hmany, popMany, get_bind_apply, if_neg hfew]
      rfl
    have henough := Nat.le_of_not_lt hfew
    rw [bind_of_ok hpop]
    rcases hf (m.stack.take k).reverse { m with stack := m.stack.drop k } with
      ⟨m', hok⟩ | ⟨c, m', hc, hfail⟩
    · rw [hok]
      exact .built hle henough
    · rw [hfail]
      exact .refused hle henough hc

theorem collects_createArray (count : UInt64) :
    Collects count.toNat m (Effect.createArray count m) :=
  collects_popCounted fun _ _ => .inl ⟨_, rfl⟩

theorem collects_createMap (count : UInt64) :
    Collects (2 * count.toNat) m (Effect.createMap count m) := by
  rw [Effect.createMap]
  by_cases hword : 2 * count.toNat ≤ maxWord
  · rw [if_pos hword]
    refine collects_popCounted fun items m' => ?_
    cases hentries : Effect.mapEntries .empty items with
    | ok entries => exact .inl ⟨_, rfl⟩
    | error c => exact .inr ⟨c, m', Effect.mapEntries_kind hentries, rfl⟩
  · rw [if_neg hword]
    exact .overflow (by omega)

theorem collects_execute (ho : o.collected? = some k) (m : Machine) :
    ∃ x : Exec Unit, execute o = andNext x ∧ Collects k m (x m) := by
  cases o with
  | createArray count =>
    cases ho
    exact ⟨_, rfl, collects_createArray count⟩
  | createMap count =>
    cases ho
    exact ⟨_, rfl, collects_createMap count⟩
  | _ => cases ho

theorem collects_dispatch (call : Callback) {i : Instruction} {m₁ : Machine}
    (hfetch : fetch m = .ok (some i) m₁) (ho : i.opcode.collected? = some k) :
    Collects k m₁ (dispatch call m) := by
  obtain ⟨x, hi, hx⟩ := collects_execute ho m₁
  have hdispatch : dispatch call m = executeAt call i m₁ := bind_of_ok hfetch
  have hboth : (execute i.opcode >>= complete call) m₁ =
      match x m₁ with
      | .ok _ m' => .ok .next m'
      | .error stop m' => .error stop m' := by
    rw [hi]
    cases hr : x m₁ with
    | ok a m' =>
      have hnext : andNext x m₁ = .ok .next m' := bind_of_ok hr
      exact bind_of_ok hnext
    | error stop m' => exact bind_of_error (bind_of_error hr)
  rw [hdispatch]
  generalize x m₁ = r at hx hboth
  cases hx with
  | overflow hword =>
    rw [executeAt, bind_of_error (attempt_of_overflow hboth)]
    exact .overflow hword
  | underflow hle hfew hcause =>
    rw [executeAt_of_failed hboth]
    exact .underflow hle hfew hcause
  | refused hle henough hkind =>
    rw [executeAt_of_failed hboth]
    exact .refused hle henough hkind
  | built hle henough =>
    rw [executeAt, bind_of_ok (attempt_of_ok hboth)]
    exact .built hle henough

end Collecting

end Exec

/-- The check of code admits every count. -/
theorem Template.operandFlaw_of_collected {o : Opcode} {k : Nat} (ho : o.collected? = some k)
    (t : Template) (statics : Nat) : t.operandFlaw? statics o = none := by
  cases o with
  | createArray count => rfl
  | createMap count => rfl
  | _ => cases ho

/-- An instruction that collects operands, about to be executed in any state of a call. The check of
code has nothing against it. The machine breaks off if and only if the base of the frame and the
count add up to no machine word, and else the operands run short, and stay, if and only if the frame
has fewer of them than it takes. -/
theorem collecting_outcome {fuel : Nat} {callee : Value} {this : Option Value} {args : List Value}
    {m₀ : Machine} {w : Work} (hreach : Reaches ⟨fuel, .call callee this args, m₀⟩ w) {base : Nat}
    (hloop : w.activity = .loop base) {g : Frame} {rest : List Frame}
    (hframes : w.machine.frames = g :: rest) {i : Instruction}
    (hi : g.closure.template.body.code[g.pc]? = some i) {k : Nat}
    (ho : i.opcode.collected? = some k)
    (hlimit : ∀ limit, w.machine.config.instructionLimit = some limit →
      w.machine.executed < limit) :
    (∀ statics, g.closure.template.operandFlaw? statics i.opcode = none) ∧
      g.stackBase ≤ w.machine.stack.length ∧
      ((∃ m', Exec.dispatch (Exec.invoke w.fuel) w.machine = .error .overflow m') ↔
        maxWord < g.stackBase + k) ∧
      ((∃ fault m',
          Exec.dispatch (Exec.invoke w.fuel) w.machine = .error (.failed (.error fault)) m' ∧
            fault.cause = .breakdown .operandUnderflow ∧ m'.stack = w.machine.stack) ↔
        g.stackBase + k ≤ maxWord ∧ w.machine.stack.length - g.stackBase < k) := by
  have hstart : Work.Good (fun _ => True) m₀.store ⟨fuel, .call callee this args, m₀⟩ :=
    ⟨fun _ _ => trivial, .refl _⟩
  have hgood := hreach.good Frame.invariant_true hstart
  obtain ⟨fuel', activity, m⟩ := w
  cases hloop
  obtain ⟨m₁, -, -, f, us, habove, -⟩ := hgood
  obtain rfl : f = g := (List.cons.inj (habove.frames.symm.trans hframes)).1
  have hbase : f.stackBase ≤ m.stack.length := habove.nested.1
  have hfetch : Exec.fetch m = .ok (some i) (Exec.fetched m f rest) := by
    rw [Exec.fetch_eq hframes, hi]
    cases hmax : m.config.instructionLimit with
    | none => rfl
    | some limit => exact if_neg (Nat.not_lt.2 (hlimit limit hmax))
  have hcollects := Exec.collects_dispatch (Exec.invoke fuel') hfetch ho
  refine ⟨Template.operandFlaw_of_collected ho _, hbase, hcollects.overflow_iff,
    hcollects.underflow_iff.trans (and_congr_right fun _ => ?_)⟩
  change m.stack.length < f.stackBase + k ↔ m.stack.length - f.stackBase < k
  omega

/-- A function literal that collects operands. -/
def collector (o : Opcode) : Template :=
  { body := { code := #[⟨o, none⟩] } }

/-- A fragment that calls it, with an operand of its own on the stack. -/
def callsCollector (o : Opcode) : Fragment where
  source := "s"
  main :=
    { body :=
      { code := #[⟨.pushVoid, none⟩, ⟨.createClosure 0, none⟩, ⟨.call 0, none⟩]
        nested := [collector o] } }

/-- The machine with the fragment loaded. -/
def withCollector (o : Opcode) : Machine :=
  HostM.afterLoad (callsCollector o) (Machine.start {})

/-- In the call of its top-level function. -/
def inCaller (o : Opcode) (pc : Nat) (stack : List Value) : Machine :=
  { withCollector o with
    frames := [{ function := ⟨0⟩, closure := HostM.loaded (callsCollector o) (Machine.start {}),
                 locals := #[], supplied := 0, this := .void, pc, stackBase := 0 }]
    stack
    executed := pc }

def collectorClosure (o : Opcode) : Closure where
  template := collector o
  code := ⟨0, [0]⟩
  statics := ⟨0⟩

def afterClosure (o : Opcode) (pc : Nat) (stack : List Value) : Machine :=
  { inCaller o pc stack with
    store := ((inCaller o pc stack).store.newFunction ⟨collectorClosure o, .empty⟩).2 }

def inCollector (o : Opcode) : Machine :=
  { afterClosure o 3 [.void] with
    frames :=
      { function := ⟨1⟩, closure := collectorClosure o, locals := #[], supplied := 0, this := .void,
        stackBase := 1 } :: (afterClosure o 3 [.void]).frames }

theorem reaches_inCollector (o : Opcode) :
    Reaches ⟨2, .call (.function ⟨0⟩) none [], withCollector o⟩ ⟨1, .loop 0, inCollector o⟩ := by
  have henter : Exec.beginCall (.function ⟨0⟩) none [] none (withCollector o) =
      .ok .entered (inCaller o 0 []) := rfl
  have hpush : Exec.cycle (Exec.invoke 1) 0 (inCaller o 0 []) =
      .ok none (inCaller o 1 [.void]) := rfl
  have hcreate : Exec.cycle (Exec.invoke 1) 0 (inCaller o 1 [.void]) =
      .ok none (afterClosure o 2 [.function ⟨1⟩, .void]) := rfl
  have hcall : Exec.cycle (Exec.invoke 1) 0 (afterClosure o 2 [.function ⟨1⟩, .void]) =
      .ok none (inCollector o) := rfl
  exact .step (.step (.step (.step .refl (.enter henter)) (.round hpush)) (.round hcreate))
    (.round hcall)

theorem collecting_outcome_two :
    ∃ fault m', Exec.dispatch (Exec.invoke 1) (inCollector (.createArray 2)) =
        .error (.failed (.error fault)) m' ∧
      fault.cause = .breakdown .operandUnderflow ∧
        m'.stack = (inCollector (.createArray 2)).stack := by
  have houtcome := collecting_outcome (reaches_inCollector (.createArray 2)) rfl rfl rfl rfl nofun
  exact houtcome.2.2.2.2 ⟨by decide, by decide⟩

/-- The fragment is accepted, and its call breaks off at the instruction of the literal. -/
structure BreaksOff (o : Opcode) : Prop where
  accepted : (callsCollector o).verify = none
  loaded : HostM.load (callsCollector o) (Machine.start {}) = .ok (.function ⟨0⟩) (withCollector o)
  reached : Reaches ⟨2, .call (.function ⟨0⟩) none [], withCollector o⟩ ⟨1, .loop 0, inCollector o⟩
  stopped : ∃ m, Exec.dispatch (Exec.invoke 1) (inCollector o) = .error .overflow m

theorem breaksOff {o : Opcode} {k : Nat} (ho : o.collected? = some k) (hk : maxWord < 1 + k) :
    BreaksOff o := by
  have hverify : (callsCollector o).verify = none := by
    cases o with
    | createArray count => rfl
    | createMap count => rfl
    | _ => cases ho
  have hfetch : Exec.fetch (inCollector o) =
      .ok (some ⟨o, none⟩) (Exec.fetched (inCollector o) _ _) := rfl
  have hcollects := Exec.collects_dispatch (Exec.invoke 1) hfetch ho
  refine ⟨hverify, ?_, reaches_inCollector o, hcollects.overflow_iff.2 hk⟩
  rw [HostM.load_eq, hverify]
  rfl

/-- Accepted code breaks off where the double of a count is no machine word, and where its sum with
the base of the frame is none. -/
theorem collecting_breaks_off :
    BreaksOff (.createMap 9223372036854775808) ∧ BreaksOff (.createArray 18446744073709551615) :=
  ⟨breaksOff rfl (by decide), breaksOff rfl (by decide)⟩

end ScriptMachine
