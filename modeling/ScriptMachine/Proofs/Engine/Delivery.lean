import ScriptMachine.Proofs.Engine.Activity

namespace ScriptMachine

theorem Signal.catchable_eq_false_iff (s : Signal) :
    s.catchable = false ↔
      ∃ fault, s = .error fault ∧ (fault.kind = .internal ∨ fault.kind = .unhandled) := by
  cases s with
  | raise v => simp [catchable]
  | error fault =>
    simp only [catchable, error.injEq, exists_eq_left']
    cases fault.kind <;> simp [ErrorKind.recoverable]

/-- The operands of the frame `f` under the frames `above`: from its base up to the next one. -/
def operandsOf (above : List Frame) (f : Frame) (stack : List Value) : List Value :=
  (cutTo (ceiling above stack.length) stack).take (ceiling above stack.length - f.stackBase)

/-- How a signal `s` that arose at `m` ends in the catch region `h` of the frame `f`, when the frames
`above` have left and `rest` stay: `f` is at the target without that region, and its operands are cut
to the height of the region, with the value for the signal on top. -/
structure Caught (s : Signal) (m : Machine) (above : List Frame) (f : Frame) (h : Handler)
    (hs : List Handler) (rest : List Frame) (m' : Machine) : Prop where
  frames : m'.frames = { f with pc := h.target, handlers := hs } :: rest
  height : f.stackBase ≤ h.height
  operands : ∃ v, Delivers m.store s v m'.store ∧
    operandsOf [] f m'.stack = v :: cutTo (h.height - f.stackBase) (operandsOf above f m.stack)
  below : cutTo f.stackBase m'.stack = cutTo f.stackBase m.stack

section

variable {m₀ m : Machine} {s : Signal} {above below : List Frame} {f : Frame} {h : Handler}
  {hs : List Handler}

theorem operandsOf_eq {own seg low : List Value} (hlow : low.length = f.stackBase)
    (hceil : (seg ++ low).length = ceiling above (own ++ (seg ++ low)).length) :
    operandsOf above f (own ++ (seg ++ low)) = seg := by
  have hlen : (seg ++ low).length - f.stackBase = seg.length := by
    rw [List.length_append, hlow, Nat.add_sub_cancel]
  rw [operandsOf, ← hceil, cutTo_length_append, hlen, List.take_left]

theorem Machine.Above.split (habove : m₀.Above (above ++ f :: below) m) :
    ∃ own seg low, m.stack = own ++ (seg ++ low) ∧ low.length = f.stackBase ∧
      (seg ++ low).length = ceiling above m.stack.length ∧ stackBelow m.stack above = seg ++ low := by
  have hnest := habove.nested.below_append
  obtain ⟨own, hown⟩ := cutTo_suffix (ceiling above m.stack.length) m.stack
  obtain ⟨seg, hseg⟩ := cutTo_suffix f.stackBase (cutTo (ceiling above m.stack.length) m.stack)
  have hlen : (cutTo (ceiling above m.stack.length) m.stack).length =
      ceiling above m.stack.length := by
    rw [length_cutTo, Nat.min_eq_left habove.nested.ceiling_le]
  refine ⟨own, seg, cutTo f.stackBase (cutTo (ceiling above m.stack.length) m.stack), ?_, ?_, ?_, ?_⟩
  · rw [hseg, hown]
  · rw [length_cutTo, hlen, Nat.min_eq_left hnest.1]
  · rw [hseg, hlen]
  · rw [hseg, habove.nested.stackBelow_eq]

theorem caught_of_handler (habove : m₀.Above (above ++ f :: below) m)
    (hnone : ∀ g ∈ above, g.handlers = []) (hc : s.catchable = true) (hf : f.handlers = h :: hs) :
    ∃ m', Exec.unwind s m₀.frames.length m = .ok () m' ∧
      Caught s m above f h hs (below ++ m₀.frames) m' := by
  have hframes : m.frames = above ++ f :: (below ++ m₀.frames) := by
    rw [habove.frames, List.append_assoc, List.cons_append]
  have htakes : ∀ g ∈ above, ¬ g.Takes s := fun g hg ht => ht.2 (hnone g hg)
  have hbase : m₀.frames.length ≤ (below ++ m₀.frames).length := by simp
  obtain ⟨v, store, hv, -, heq⟩ := Exec.unwind_caught hframes htakes hc hf hbase
  -- from the top: operands of the frames above, of `f`, and of the frames below
  obtain ⟨own, seg, low, hstack, hlow, hceil, hbelow⟩ := habove.split
  have hheight : f.stackBase ≤ h.height :=
    habove.nested.below_append.2.1 h (by rw [hf]; exact List.mem_cons_self ..)
  -- the region was opened at or above the base, so its cut stays within the operands of `f`
  have hcut : cutTo h.height (seg ++ low) = cutTo (h.height - f.stackBase) seg ++ low := by
    rw [cutTo_append (hlow ▸ hheight), hlow]
  rw [hbelow, hcut] at heq
  refine ⟨_, heq, rfl, hheight, ⟨v, hv, ?_⟩, ?_⟩
  · rw [hstack] at hceil ⊢
    rw [operandsOf_eq hlow hceil]
    have hnew : operandsOf [] f ([] ++ (v :: cutTo (h.height - f.stackBase) seg ++ low)) =
        v :: cutTo (h.height - f.stackBase) seg := operandsOf_eq hlow rfl
    exact hnew
  · rw [hstack, ← hlow, ← List.append_assoc, cutTo_length_append]
    exact cutTo_length_append (v :: cutTo (h.height - low.length) seg) low

/-- How a signal `s` that arose at `m` leaves the loop with the frames `upper` above `lower`: it is
the same failure, and would be above any other frames. -/
structure Escaped (s : Signal) (base : Nat) (m : Machine) (upper lower : List Frame) (s' : Signal)
    (m' : Machine) : Prop where
  frames : m'.frames = lower
  origin : s.SameOrigin s'
  operands : m'.stack = cutTo (ceiling upper m.stack.length) m.stack
  independent : ∀ others : List Frame, others.length = base →
    Exec.unwind s base { m with frames := upper ++ others } =
      .error (.failed s') { m' with frames := others }

theorem escaped_of_no_handler {upper : List Frame} (habove : m₀.Above upper m) (hne : upper ≠ [])
    (hnone : s.catchable = false ∨ ∀ g ∈ upper, g.handlers = []) :
    ∃ s' m', Exec.unwind s m₀.frames.length m = .error (.failed s') m' ∧
      Escaped s m₀.frames.length m upper m₀.frames s' m' := by
  have htakes : ∀ g ∈ upper, ¬ g.Takes s := by
    intro g hg ht
    rcases hnone with hc | hnone
    · rw [ht.1] at hc
      cases hc
    · exact ht.2 (hnone g hg)
  have hstack : stackBelow m.stack upper = cutTo (ceiling upper m.stack.length) m.stack := by
    have hnest := habove.nested
    rw [← List.append_nil upper] at hnest
    exact hnest.stackBelow_eq
  refine ⟨_, _, Exec.unwind_escaped habove.frames hne htakes rfl, rfl, s.sameOrigin_leaveAll .., hstack,
    fun others hlen => ?_⟩
  exact Exec.unwind_escaped rfl hne htakes hlen

end

/-- A signal that arises in a loop goes to the innermost catch region of the loop if it may be
caught, and otherwise leaves the loop. -/
theorem signal_delivery {fuel n base : Nat} {callee : Value} {this : Option Value}
    {args : List Value} {m₀ m m₁ : Machine} {s : Signal}
    (hreach : Reaches ⟨fuel, .call callee this args, m₀⟩ ⟨n, .loop base, m⟩)
    (hsignal : Exec.dispatch (Exec.invoke n) m = .error (.failed s) m₁) :
    (s.catchable = false ↔
      ∃ fault, s = .error fault ∧ (fault.kind = .internal ∨ fault.kind = .unhandled)) ∧
    ∃ upper lower, m₁.frames = upper ++ lower ∧ lower.length = base ∧
      (s.catchable = true → (∃ g ∈ upper, g.handlers ≠ []) →
        ∃ above f h hs below m', upper = above ++ f :: below ∧ (∀ g ∈ above, g.handlers = []) ∧
          f.handlers = h :: hs ∧ Exec.unwind s base m₁ = .ok () m' ∧
          Exec.cycle (Exec.invoke n) base m = .ok none m' ∧
          Caught s m₁ above f h hs (below ++ lower) m') ∧
      ((s.catchable = false ∨ ∀ g ∈ upper, g.handlers = []) →
        ∃ s' m', Exec.unwind s base m₁ = .error (.failed s') m' ∧
          Exec.cycle (Exec.invoke n) base m = .error (.failed s') m' ∧
          Escaped s base m₁ upper lower s' m') := by
  refine ⟨s.catchable_eq_false_iff, ?_⟩
  have hgood : Work.Good (fun _ => True) m₀.store ⟨n, .loop base, m⟩ :=
    hreach.good Frame.invariant_true ⟨fun _ _ => trivial, .refl _⟩
  obtain ⟨m₂, -, rfl, hbusy⟩ := hgood
  obtain ⟨f, us, habove, -⟩ :=
    (Exec.busy_dispatch Frame.invariant_true (Exec.quiet_invoke n)).of_failed hbusy hsignal
  have hcycle : Exec.cycle (Exec.invoke n) m₂.frames.length m =
      (do Exec.unwind s m₂.frames.length; return none) m₁ :=
    Exec.bind_of_ok (Exec.attempt_of_failed hsignal)
  refine ⟨f :: us, m₂.frames, habove.frames, rfl, ?_, ?_⟩
  · rintro hc ⟨g, hg, hhandlers⟩
    obtain ⟨above, r, h, hs, below, hsplit, hnone, hr⟩ := first_handler ⟨g, hg, hhandlers⟩
    rw [hsplit] at habove
    obtain ⟨m', heq, hcaught⟩ := caught_of_handler habove hnone hc hr
    exact ⟨above, r, h, hs, below, m', hsplit, hnone, hr, heq,
      hcycle.trans (Exec.bind_of_ok heq), hcaught⟩
  · intro hnone
    obtain ⟨s', m', heq, hescaped⟩ := escaped_of_no_handler habove (List.cons_ne_nil f us) hnone
    exact ⟨s', m', heq, hcycle.trans (Exec.bind_of_error heq), hescaped⟩

/-- A function that raises in a catch region, with an operand of its own below the region. -/
def trying : Template where
  body :=
    { code := #[⟨.pushVoid, none⟩, ⟨.pushTry 5, none⟩, ⟨.pushTrue, none⟩, ⟨.pushFalse, none⟩,
        ⟨.throw, none⟩] }

/-- A machine in which `trying` is at `pc`. -/
def inTrying (pc : Nat) (handlers : List Handler) (stack : List Value) : Machine where
  store := { functions := #[⟨⟨trying, ⟨0, []⟩, ⟨0⟩⟩, .empty⟩] }
  frames :=
    [{ function := ⟨0⟩, closure := ⟨trying, ⟨0, []⟩, ⟨0⟩⟩, locals := #[], supplied := 0,
       this := .void, pc, stackBase := 0, handlers }]
  stack
  executed := pc

theorem signal_delivery_trying :
    ∃ above f h hs rest m',
      Exec.cycle (Exec.invoke 1) 0 (inTrying 4 [⟨5, 1⟩] [.bool false, .bool true, .void]) =
        .ok none m' ∧
      Caught (.raise (.bool false))
        { inTrying 5 [⟨5, 1⟩] [.bool true, .void] with raisePosition := some ⟨0, 0⟩ }
        above f h hs rest m' := by
  have henter : Exec.beginCall (.function ⟨0⟩) none [] none { inTrying 0 [] [] with frames := [] } =
      .ok .entered (inTrying 0 [] []) := rfl
  have h₁ : Exec.cycle (Exec.invoke 1) 0 (inTrying 0 [] []) = .ok none (inTrying 1 [] [.void]) := rfl
  have h₂ : Exec.cycle (Exec.invoke 1) 0 (inTrying 1 [] [.void]) =
      .ok none (inTrying 2 [⟨5, 1⟩] [.void]) := rfl
  have h₃ : Exec.cycle (Exec.invoke 1) 0 (inTrying 2 [⟨5, 1⟩] [.void]) =
      .ok none (inTrying 3 [⟨5, 1⟩] [.bool true, .void]) := rfl
  have h₄ : Exec.cycle (Exec.invoke 1) 0 (inTrying 3 [⟨5, 1⟩] [.bool true, .void]) =
      .ok none (inTrying 4 [⟨5, 1⟩] [.bool false, .bool true, .void]) := rfl
  have hreach : Reaches
      ⟨2, .call (.function ⟨0⟩) none [], { inTrying 0 [] [] with frames := [] }⟩
      ⟨1, .loop 0, inTrying 4 [⟨5, 1⟩] [.bool false, .bool true, .void]⟩ :=
    .step (.step (.step (.step (.step .refl (.enter henter)) (.round h₁)) (.round h₂)) (.round h₃))
      (.round h₄)
  have hraise : Exec.dispatch (Exec.invoke 1) (inTrying 4 [⟨5, 1⟩] [.bool false, .bool true, .void]) =
      .error (.failed (.raise (.bool false)))
        { inTrying 5 [⟨5, 1⟩] [.bool true, .void] with raisePosition := some ⟨0, 0⟩ } := rfl
  obtain ⟨-, upper, lower, hframes, hlen, hcaught, -⟩ := signal_delivery hreach hraise
  obtain rfl := List.length_eq_zero_iff.1 hlen
  rw [List.append_nil] at hframes
  subst hframes
  obtain ⟨above, f, h, hs, below, m', -, -, -, -, hcycle, hc⟩ :=
    hcaught rfl ⟨_, List.mem_cons_self .., List.cons_ne_nil _ _⟩
  exact ⟨above, f, h, hs, _, m', hcycle, hc⟩

end ScriptMachine
