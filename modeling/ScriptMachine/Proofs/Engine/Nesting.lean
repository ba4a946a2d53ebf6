import ScriptMachine.Proofs.Engine.Instruction

namespace ScriptMachine

section Stack

variable {stack low : List Value} {height : Nat}

theorem cutTo_suffix (height : Nat) (stack : List Value) : cutTo height stack <:+ stack :=
  List.drop_suffix ..

@[simp] theorem length_cutTo (height : Nat) (stack : List Value) :
    (cutTo height stack).length = min height stack.length := by
  rw [cutTo, List.length_drop]
  omega

theorem cutTo_of_length_le (h : stack.length ≤ height) : cutTo height stack = stack := by
  rw [cutTo, Nat.sub_eq_zero_of_le h, List.drop_zero]

theorem cutTo_append (h : low.length ≤ height) :
    cutTo height (stack ++ low) = cutTo (height - low.length) stack ++ low := by
  have hk : (stack ++ low).length - height = stack.length - (height - low.length) := by
    rw [List.length_append]
    omega
  rw [cutTo, cutTo, hk, List.drop_append_of_le_length (Nat.sub_le ..)]

theorem cutTo_length_append (stack low : List Value) : cutTo low.length (stack ++ low) = low := by
  rw [cutTo_append (Nat.le_refl _), Nat.sub_self, cutTo, Nat.sub_zero, List.drop_length,
    List.nil_append]

theorem suffix_cutTo (hs : low <:+ stack) (h : low.length ≤ height) : low <:+ cutTo height stack := by
  obtain ⟨own, rfl⟩ := hs
  rw [cutTo_append h]
  exact List.suffix_append ..

theorem cutTo_cutTo {a b : Nat} (h : a ≤ b) : cutTo a (cutTo b stack) = cutTo a stack := by
  -- both sides drop from the top, so compare how many
  simp only [cutTo, List.drop_drop, List.length_drop]
  congr 1
  omega

end Stack

/-- Frames one above the other on a stack of the given height, the outermost at `ground`. -/
def Nested (ground : Nat) : List Frame → Nat → Prop
  | [], height => height = ground
  | f :: below, height =>
    f.stackBase ≤ height ∧ (∀ h ∈ f.handlers, f.stackBase ≤ h.height) ∧
      Nested ground below f.stackBase

theorem Nested.ground_le {ground height : Nat} {fs : List Frame} (h : Nested ground fs height) :
    ground ≤ height := by
  induction fs generalizing height with
  | nil => exact Nat.le_of_eq h.symm
  | cons f below ih => exact Nat.le_trans (ih h.2.2) h.1

/-- A machine at work on a call that was made at `m₀`, with the frames `upper` of its own. -/
structure Machine.Above (m₀ : Machine) (upper : List Frame) (m : Machine) : Prop where
  frames : m.frames = upper ++ m₀.frames
  stack : m₀.stack <:+ m.stack
  nested : Nested m₀.stack.length upper m.stack.length
  config : m.config = m₀.config
  guard : m.guard = m₀.guard
  store : m₀.store.Retained m.store

namespace Machine.Above

variable {m₀ m m' : Machine} {f g : Frame} {us : List Frame}

theorem refl (m : Machine) : m.Above [] m :=
  ⟨rfl, List.suffix_rfl, rfl, rfl, rfl, .refl _⟩

theorem quiet_of_nil (h : m₀.Above [] m) : m₀.Quiet m :=
  ⟨h.frames, (h.stack.eq_of_length h.nested.symm).symm, h.config, h.guard, h.store⟩

theorem quiet (h : m₀.Above us m) (h' : m.Quiet m') : m₀.Above us m' :=
  ⟨h'.frames.trans h.frames, h'.stack ▸ h.stack, h'.stack ▸ h.nested, h'.config.trans h.config,
    h'.guard.trans h.guard, h.store.trans h'.store⟩

theorem push (h : m₀.Above (f :: us) m) (v : Value) :
    m₀.Above (f :: us) { m with stack := v :: m.stack } :=
  ⟨h.frames, h.stack.trans (List.suffix_cons ..), ⟨Nat.le_succ_of_le h.nested.1, h.nested.2⟩,
    h.config, h.guard, h.store⟩

theorem enter (h : m₀.Above us m) (h' : m.Enters m') :
    ∃ m₁ g, Frame.Fresh m₁ g ∧ m₀.Above (g :: us) m' := by
  obtain ⟨m₁, g, hq, hg, rfl⟩ := h'
  have h₁ := h.quiet hq.quiet
  refine ⟨m₁, g, hg, congrArg (g :: ·) h₁.frames, h₁.stack, ⟨Nat.le_of_eq hg.stackBase, ?_, ?_⟩,
    h₁.config, h₁.guard, h₁.store⟩
  · rw [hg.handlers]
    nofun
  · rw [hg.stackBase]
    exact h₁.nested

theorem leave (h : m₀.Above (f :: us) m) :
    m₀.Above us { m with frames := us ++ m₀.frames, stack := cutTo f.stackBase m.stack } := by
  refine ⟨rfl, suffix_cutTo h.stack h.nested.2.2.ground_le, ?_, h.config, h.guard, h.store⟩
  rw [length_cutTo, Nat.min_eq_left h.nested.1]
  exact h.nested.2.2

/-- The start of an instruction of the innermost call. -/
theorem running (h : m₀.Above (f :: us) m) (o : Opcode) :
    Running o m f (us ++ m₀.frames) (cutTo f.stackBase m.stack) m where
  frames := ⟨f, h.frames, .refl f⟩
  base := by rw [length_cutTo, Nat.min_eq_left h.nested.1]
  stack := cutTo_suffix ..
  config := rfl
  guard := rfl
  store := .refl _
  executed := rfl
  clean := id

/-- What an instruction leaves of the innermost call is that call. -/
theorem of_running {o : Opcode} (h : m₀.Above (f :: us) m)
    (h' : Running o m f (us ++ m₀.frames) (cutTo f.stackBase m.stack) m') :
    ∃ g, f.Follows o g ∧ m₀.Above (g :: us) m' := by
  obtain ⟨g, hg, hfg⟩ := h'.frames
  have hlen := h'.stack.length_le
  rw [length_cutTo, Nat.min_eq_left h.nested.1] at hlen
  refine ⟨g, hfg, hg, ?_, ⟨?_, ?_, ?_⟩, h'.config.trans h.config, h'.guard.trans h.guard,
    h.store.trans h'.store⟩
  · exact (suffix_cutTo h.stack h.nested.2.2.ground_le).trans h'.stack
  · rw [hfg.stackBase_eq]
    exact hlen
  · intro r hr
    rw [hfg.stackBase_eq]
    -- a region of the frame is an old one, or opened by the instruction
    rcases hfg.handlers r hr with hold | ⟨_, hnew⟩
    · exact h.nested.2.1 r hold
    · exact hnew
  · rw [hfg.stackBase_eq]
    exact h.nested.2.2

end Machine.Above

end ScriptMachine
