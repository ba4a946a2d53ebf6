import ScriptMachine.Proofs.Engine.Escape

namespace ScriptMachine

/-- No more than `L` instructions, and no native functions but the methods of built-in types. -/
structure Machine.Limited (L : Nat) (m : Machine) : Prop where
  limit : m.config.instructionLimit = some L
  methods : ∀ id, ∃ b, (m.store.native id).body = .method b

namespace Machine.Limited

variable {L : Nat} {m m' : Machine}

theorem retained (h : m.Limited L) (hconfig : m'.config = m.config)
    (hstore : m.store.Retained m'.store) : m'.Limited L := by
  refine ⟨by rw [hconfig, h.limit], fun id => ?_⟩
  rw [hstore.native]
  exact h.methods id

theorem busy (h : m.Limited L) (h' : m.Busy (fun _ => True) m') : m'.Limited L := by
  obtain ⟨f, us, habove, -⟩ := h'
  exact h.retained habove.config habove.store

end Machine.Limited

/-- The state passes an instruction on to be executed. -/
def Work.Executes (w : Work) : Prop :=
  ∃ base i m', w.activity = .loop base ∧ Exec.fetch w.machine = .ok (some i) m'

/-- The state asks for an instruction and is refused. -/
def Work.Exceeds (w : Work) : Prop :=
  ∃ base s m', w.activity = .loop base ∧ Exec.fetch w.machine = .error (.failed s) m'

/-- The states `W` are within the limit, `log` has those of them that execute an instruction, and
`passed` says whether the limit is passed, so that one is refused. -/
structure Account (L : Nat) (W : Work → Prop) (log : List Work) (passed : Prop) : Prop where
  within : ∀ w, W w → w.machine.executed ≤ L
  listed : ∀ w, W w → w.Executes → w ∈ log
  exceeds : ∀ w, W w → w.Exceeds → passed

namespace Account

variable {L : Nat} {W W' : Work → Prop} {log log' : List Work} {passed passed' : Prop}

theorem mono (h : Account L W log passed) (hW : ∀ w, W' w → W w) (hpassed : passed → passed') :
    Account L W' log passed' :=
  ⟨fun w hw => h.within w (hW w hw), fun w hw => h.listed w (hW w hw),
    fun w hw he => hpassed (h.exceeds w (hW w hw) he)⟩

theorem append (h : Account L W log passed) (h' : Account L W' log' passed') :
    Account L (fun w => W w ∨ W' w) (log ++ log') (passed ∨ passed') where
  within w hw := hw.elim (h.within w) (h'.within w)
  listed w hw he := List.mem_append.2 (hw.imp (h.listed w · he) (h'.listed w · he))
  exceeds w hw he := hw.imp (h.exceeds w · he) (h'.exceeds w · he)

end Account

/-- How a computation may end that begins at the count `c`, when `spent` instructions are executed
in it. One that is refused an instruction ends with the error that says so. -/
def Bill {α : Type} (L c spent : Nat) (passed : Prop) (J : α → Machine → Prop) :
    EStateM.Result (Stop Signal) Machine α → Prop
  | .ok a m => (c + spent ≤ m.executed ∧ m.executed ≤ L ∧ ¬ passed) ∧ J a m
  | .error (.failed s) m => (c + spent ≤ m.executed ∧ m.executed ≤ L ∧ ¬ passed) ∨
      c + spent ≤ L ∧ m.executed = L + 1 ∧ s.essence = .inl (.breakdown (.outOfInstructions L))
  | .error .overflow _ => c + spent ≤ L ∧ ¬ passed
  | .error .outOfFuel _ => False

namespace Bill

variable {α : Type} {L c spent : Nat} {passed : Prop} {J J' : α → Machine → Prop}
  {r : EStateM.Result (Stop Signal) Machine α}

theorem before {c' spent' : Nat} (h : Bill L c spent passed J r) (hc : c' + spent' ≤ c) :
    Bill L c' (spent' + spent) passed J r := by
  match r, h with
  | .ok a m, ⟨⟨h₁, h₂, h₃⟩, hJ⟩ => exact ⟨⟨by omega, h₂, h₃⟩, hJ⟩
  | .error (.failed s) m, .inl ⟨h₁, h₂, h₃⟩ => exact .inl ⟨by omega, h₂, h₃⟩
  | .error (.failed s) m, .inr ⟨h₁, h₂⟩ => exact .inr ⟨by omega, h₂⟩
  | .error .overflow _, ⟨h₁, h₂⟩ => exact ⟨by omega, h₂⟩

theorem of_error {β : Type} {K : β → Machine → Prop} {stop : Stop Signal} {m : Machine}
    (h : Bill L c spent passed J (.error stop m)) : Bill L c spent passed K (.error stop m) := by
  cases stop <;> exact h

end Bill

/-- The state itself and those inside it, but not the rounds that follow it. -/
def Inside (w w' : Work) : Prop :=
  w' = w ∨ ∃ w₁, Leads w w₁ ∧ (∀ base, w₁.activity ≠ .loop base) ∧ Reaches w₁ w'

theorem Account.inside {L : Nat} {w : Work} {own log : List Work} {passed : Prop}
    (hw : w.machine.executed ≤ L) (hlisted : w.Executes → w ∈ own) (hexceeds : w.Exceeds → passed)
    (hinner : ∀ w₁, Leads w w₁ → (∀ base, w₁.activity ≠ .loop base) →
      Account L (Reaches w₁) log passed) : Account L (Inside w) (own ++ log) passed where
  within := by
    rintro w' (rfl | ⟨w₁, hlead, hloop, hreach⟩)
    · exact hw
    · exact (hinner w₁ hlead hloop).within w' hreach
  listed := by
    rintro w' (rfl | ⟨w₁, hlead, hloop, hreach⟩) hexecutes
    · exact List.mem_append_left _ (hlisted hexecutes)
    · exact List.mem_append_right _ ((hinner w₁ hlead hloop).listed w' hreach hexecutes)
  exceeds := by
    rintro w' (rfl | ⟨w₁, hlead, hloop, hreach⟩) hw'
    · exact hexceeds hw'
    · exact (hinner w₁ hlead hloop).exceeds w' hreach hw'

section Instruction

open Exec

variable {m₀ m m₁ m₂ : Machine} {n base : Nat} {L c : Nat} {call : Callback}

/-- An instruction leaves nothing to be done that has states of its own. -/
def Step.Plain : Step → Prop
  | .native (.host _) .. => False
  | .compare .. => False
  | _ => True

theorem Bill.pushed {spent : Nat} {passed : Prop} {x : Exec Value} {g : Value → Value}
    (h : Bill L c spent passed (fun _ _ => True) (x m)) :
    Bill L c spent passed (fun _ _ => True) ((x >>= fun v => andNext (push (g v))) m) := by
  cases hx : x m with
  | ok v m' =>
    rw [hx] at h
    rw [bind_of_ok hx]
    exact h
  | error stop m' =>
    rw [hx] at h
    rw [bind_of_error hx]
    exact h.of_error

end Instruction

namespace Exec

variable {m₀ m m₁ m₂ : Machine} {n base : Nat} {L : Nat} {call : Callback}

end Exec

section Rounds

open Exec

variable {m₀ m m₁ : Machine} {n : Nat} {L : Nat}

/-- A bound on the rounds that are left. An instruction makes it one less although it may enter a
frame, and so does leaving a frame. -/
def Machine.roundsLeft (L : Nat) (m : Machine) : Nat :=
  2 * (L - m.executed) + m.frames.length

/-- A round is paid for, and if another one follows then fewer are left. -/
abbrev RoundBill (L : Nat) (m : Machine) (spent : Nat) (passed : Prop) :
    EStateM.Result (Stop Signal) Machine (Option Value) → Prop :=
  Bill L m.executed spent passed fun v m' => v = none → m'.roundsLeft L < m.roundsLeft L

/-- A frame that returns, after a step that has left no more rounds than there were. -/
theorem RoundBill.finishFrame {spent : Nat} {passed : Prop} (hbusy : m₀.Busy (fun _ => True) m₁)
    (hcount : m.executed + spent ≤ m₁.executed ∧ m₁.executed ≤ L ∧ ¬ passed)
    (hleft : m₁.roundsLeft L ≤ m.roundsLeft L) (v : Value) (base : Nat) :
    RoundBill L m spent passed (finishFrame v base m₁) := by
  obtain ⟨f, us, habove, -⟩ := hbusy
  rw [finishFrame_eq habove.frames]
  split
  · exact ⟨hcount, fun h => nomatch h⟩
  · refine ⟨hcount, fun _ => Nat.lt_of_lt_of_le ?_ hleft⟩
    rw [Machine.roundsLeft, Machine.roundsLeft, habove.frames]
    exact Nat.lt_succ_self _

end Rounds

end ScriptMachine
