import ScriptMachine.Code.Verify

namespace ScriptMachine

namespace Template

variable {t : Template} {statics limit depth : Nat} {o : Opcode}

/-- All instructions have their operands in range when there are `statics` static slots. -/
def InRange (t : Template) (statics : Nat) : Prop :=
  ∀ i ∈ t.body.code, t.operandFlaw? statics i.opcode = none

theorem inRange_of_codeFault {offset : Nat} {l : List Instruction}
    (h : t.codeFault? statics offset l = none) : ∀ i ∈ l, t.operandFlaw? statics i.opcode = none := by
  induction l generalizing offset with
  | nil => exact fun _ hi => absurd hi List.not_mem_nil
  | cons i rest ih =>
    rw [codeFault?] at h
    split at h
    · cases h
    · rename_i hi
      exact List.forall_mem_cons.2 ⟨hi, ih h⟩

theorem inRange_of_ownFault (h : t.ownFault? statics = none) : t.InRange statics := by
  unfold ownFault? at h
  split at h
  · cases h
  · intro i hi
    exact inRange_of_codeFault h i (Array.mem_toList_iff.2 hi)

theorem faultIn_eq_none {l : List Template} (h : faultIn? statics limit depth l = none) :
    ∀ u ∈ l, faultAt? statics limit depth u = none := by
  induction l with
  | nil => exact fun _ hu => absurd hu List.not_mem_nil
  | cons u us ih =>
    rw [faultIn?, Option.or_eq_none_iff] at h
    exact List.forall_mem_cons.2 ⟨h.1, ih h.2⟩

theorem of_faultAt (h : t.faultAt? statics limit depth = none) :
    t.InRange statics ∧ ∀ u ∈ t.body.nested, u.faultAt? statics limit (depth + 1) = none := by
  obtain ⟨name, ⟨code, constants, locals, nested⟩, arity, line⟩ := t
  rw [faultAt?] at h
  split at h
  · cases h
  · rw [Option.or_eq_none_iff] at h
    exact ⟨inRange_of_ownFault h.1, faultIn_eq_none h.2⟩

section Operands

variable (h : t.operandFlaw? statics o = none)
include h

theorem jumpTarget_le {target : Nat} (ho : o.jumpTarget? = some target) :
    target ≤ t.body.code.size := by
  have hjump : t.jumpFlaw? o = none := (Option.or_eq_none_iff.1 h).1
  simpa [jumpFlaw?, ho] using hjump

theorem nameAt_ne_none {i : Nat} (ho : o.nameOperand? = some i) : t.body.nameAt? i ≠ none := by
  have hname : t.nameFlaw? o = none := (Option.or_eq_none_iff.1 (Option.or_eq_none_iff.1 h).2).1
  simpa [nameFlaw?, ho, Option.isSome_iff_ne_none] using hname

theorem tableFlaw_eq_none : t.tableFlaw? statics o = none :=
  (Option.or_eq_none_iff.1 (Option.or_eq_none_iff.1 h).2).2

theorem constant_lt {i : Nat} (ho : o = .pushConstant i) : i < t.body.constants.size := by
  simpa [ho, tableFlaw?] using tableFlaw_eq_none h

theorem local_lt {slot : Nat} (ho : o = .loadLocal slot ∨ o = .storeLocal slot) :
    slot < t.frameSize := by
  rcases ho with ho | ho <;> simpa [ho, tableFlaw?] using tableFlaw_eq_none h

theorem static_lt {slot : Nat} (ho : o = .storeStatic slot) : slot < statics := by
  simpa [ho, tableFlaw?] using tableFlaw_eq_none h

theorem nested_lt {i : Nat} (ho : o = .createClosure i) : i < t.body.nested.length := by
  simpa [ho, tableFlaw?] using tableFlaw_eq_none h

end Operands

end Template

end ScriptMachine
