import ScriptMachine.Proofs.Engine.Report
import ScriptMachine.Proofs.Engine.Spending

namespace ScriptMachine

section Calls

open Exec

variable {m₀ m : Machine} {n : Nat} {L : Nat} {log : List Work} {passed : Prop}

theorem Exec.Started.executed {start : Start} {m' : Machine} (h : Started m start m') :
    m'.executed = m.executed := by
  cases start with
  | native body this args constructing => exact h.1.executed
  | entered =>
    obtain ⟨m₁, g, hsilent, -, rfl⟩ := h
    exact hsilent.executed

end Calls

/-- What is paid for inside the machine is so for the host. -/
theorem Bill.ofExec {α : Type} {L c spent : Nat} {passed : Prop} {J : α → Machine → Prop} {x : Exec α}
    {m : Machine} (h : Bill L c spent passed J (x m)) :
    (∀ m', HostM.ofExec x m ≠ .error .outOfFuel m') ∧
    (∀ a m', HostM.ofExec x m = .ok a m' → m'.executed ≤ L) ∧
    (∀ failure m', HostM.ofExec x m = .error (.failed failure) m' → m'.executed ≤ L + 1) ∧
    (passed → ∃ failure m', HostM.ofExec x m = .error (.failed failure) m' ∧
      failure.fault.cause = .breakdown (.outOfInstructions L)) := by
  cases hx : x m with
  | ok a m' =>
    rw [hx] at h
    obtain ⟨⟨-, hle, hpassed⟩, -⟩ := h
    have heq : HostM.ofExec x m = .ok a m' := by rw [HostM.ofExec, hx]
    rw [heq]
    refine ⟨(fun _ h => by cases h), fun _ _ h => ?_, (fun _ _ h => by cases h), (absurd · hpassed)⟩
    cases h
    exact hle
  | error stop m' =>
    rw [hx] at h
    cases stop with
    | outOfFuel => exact h.elim
    | overflow =>
      have heq : HostM.ofExec x m = .error .overflow m' := by rw [HostM.ofExec, hx]
      rw [heq]
      exact ⟨(fun _ h => by cases h), (fun _ _ h => by cases h), (fun _ _ h => by cases h),
        (absurd · h.2)⟩
    | failed s =>
      obtain ⟨failure, m₁, hreport, htold, -, hcount⟩ := HostM.report_eq (α := α) s
        { m' with stack := cutTo m.stack.length m'.stack }
      have heq : HostM.ofExec x m = .error (.failed failure) m₁ := by
        rw [HostM.ofExec, hx]
        exact hreport
      rw [heq]
      refine ⟨(fun _ h => by cases h), (fun _ _ h => by cases h), fun _ _ h' => ?_, fun hpassed => ?_⟩
      · cases h'
        rw [hcount]
        rcases h with ⟨-, hle, -⟩ | ⟨-, hlimit, -⟩
        · exact Nat.le_succ_of_le hle
        · exact Nat.le_of_eq hlimit
      · rcases h with ⟨-, -, hnot⟩ | ⟨-, -, hs⟩
        · exact absurd hpassed hnot
        · rw [hs] at htold
          exact ⟨failure, m₁, rfl, htold.1⟩

end ScriptMachine
