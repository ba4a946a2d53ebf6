import ScriptMachine.Proofs.Engine.Fuel
import ScriptMachine.Proofs.Engine.Rounds

namespace ScriptMachine

namespace Exec

/-- Rounds of a loop, each taken while more than `depth` calls are active. -/
inductive Rounds (call : Callback) (base depth : Nat) : Machine → Machine → Prop
  | refl (m : Machine) : Rounds call base depth m m
  | step {m m₁ m₂ : Machine} (deep : depth < m.frames.length)
      (round : cycle call base m = .ok none m₁) (rest : Rounds call base depth m₁ m₂) :
      Rounds call base depth m m₂

/-- The instruction at the counter ends in a signal that none of the calls made since `m₀` takes. It
has left them as `s`, and `m'` is the machine without them. -/
def Leaves (call : Callback) (m₀ m : Machine) (s : Signal) (m' : Machine) : Prop :=
  ∃ s₁ m₁ us, dispatch call m = .error (.failed s₁) m₁ ∧ m₁.frames = us ++ m₀.frames ∧
    (∀ g ∈ us, ¬ g.Takes s₁) ∧ s = (s₁.leaveAll m₁.store m₁.raiseTrace us).1 ∧
    m' = { m₁ with
      frames := m₀.frames
      stack := stackBelow m₁.stack us
      raiseTrace := (s₁.leaveAll m₁.store m₁.raiseTrace us).2 }

/-- What a computation that may start calls comes to in a loop once these calls are over: a value on
the operands, which is taken off here, or a signal. -/
inductive ComesTo (base : Nat) (x : Callback → Exec Step) (m : Machine) :
    Except Signal Value → Machine → Prop
  | value {n : Nat} {step : Step} {m₁ m₂ : Machine} {w : Value} {st : List Value}
      (start : x (invoke n) m = .ok step m₁)
      (rounds : Rounds (invoke n) base m.frames.length m₁ m₂) (frames : m₂.frames = m.frames)
      (stack : m₂.stack = w :: st) : ComesTo base x m (.ok w) { m₂ with stack := st }
  | failed {n : Nat} {s : Signal} {m₁ : Machine} (start : x (invoke n) m = .error (.failed s) m₁) :
      ComesTo base x m (.error s) m₁
  | left {n : Nat} {step : Step} {m₁ m₂ m₃ : Machine} {s : Signal}
      (start : x (invoke n) m = .ok step m₁)
      (rounds : Rounds (invoke n) base m.frames.length m₁ m₂)
      (deep : m.frames.length < m₂.frames.length) (leaves : Leaves (invoke n) m m₂ s m₃) :
      ComesTo base x m (.error s) m₃

theorem ComesTo.of_pushed {base n : Nat} {x : Callback → Exec Step} {m m₁ m' : Machine}
    {step : Step} {w : Value} (start : x (invoke n) m = .ok step m₁)
    (rounds : Rounds (invoke n) base m.frames.length m₁ { m' with stack := w :: m'.stack })
    (frames : m'.frames = m.frames) : ComesTo base x m (.ok w) m' := by
  have h := ComesTo.value start rounds frames rfl
  exact h

/-- How a computation has ended that was left to itself. -/
def ended : Except Signal Value → Machine → EStateM.Result (Stop Signal) Machine Value
  | .ok v, m => .ok v m
  | .error s, m => .error (.failed s) m

section Unwind

variable {m m' : Machine} {s : Signal} {base : Nat}

theorem frames_of_unwind {m₁ : Machine} (h : unwind s base m = .ok () m₁) :
    m₁.frames.length ≤ m.frames.length ∧ m₁.frames ≠ m.frames := by
  rw [unwind, get_bind_apply] at h
  cases hland : land m.store base s m.raiseTrace m.stack m.frames with
  | mk landing trace =>
    rw [hland] at h
    cases landing with
    | escaped frames stack s' => cases h
    | caught f below stack s' =>
      obtain ⟨above, g, r, rs, hframes, hg, rfl⟩ := exists_of_caught hland
      have hm₁ : m₁.frames = { g with pc := r.target, handlers := rs } :: below := by
        cases s' <;> cases h <;> rfl
      rw [hm₁, hframes]
      constructor
      · simp
      · intro heq
        have hlength := congrArg List.length heq
        have hnil : above = [] := by
          apply List.eq_nil_of_length_eq_zero
          simp only [List.length_append, List.length_cons] at hlength
          omega
        subst hnil
        -- the region that took the signal is gone
        have hhandlers := congrArg Frame.handlers (List.cons.inj heq).1
        rw [hg] at hhandlers
        exact List.cons_ne_self r rs hhandlers.symm

theorem frames_of_round {m₁ : Machine} {r : Option Value}
    (h : (do unwind s base; return none : Exec (Option Value)) m = .ok r m₁) :
    m₁.frames.length ≤ m.frames.length ∧ m₁.frames ≠ m.frames := by
  cases hu : unwind s base m with
  | error stop m₂ =>
    rw [bind_of_error hu] at h
    cases h
  | ok _ m₂ =>
    rw [bind_of_ok hu] at h
    cases h
    exact frames_of_unwind hu

/-- A signal that leaves some calls on its way is, from there on, the signal that it has become. -/
theorem unwind_leaveAll {us : List Frame} {lower : List Frame} (hm : m.frames = us ++ lower)
    (hus : ∀ g ∈ us, ¬ g.Takes s) (hbase : base < lower.length) :
    unwind s base m =
      unwind (s.leaveAll m.store m.raiseTrace us).1 base
        { m with
          frames := lower
          stack := stackBelow m.stack us
          raiseTrace := (s.leaveAll m.store m.raiseTrace us).2 } := by
  rw [unwind, unwind, get_bind_apply, get_bind_apply, hm, land_append us hus hbase]
  cases land m.store base (s.leaveAll m.store m.raiseTrace us).1
      (s.leaveAll m.store m.raiseTrace us).2 (stackBelow m.stack us) lower with
  | mk landing trace =>
    cases landing with
    | escaped frames stack s' => rfl
    | caught f below stack s' => cases s' <;> rfl

end Unwind

section Simulation

variable {call : Callback} {m₀ m m' : Machine} {base : Nat}

theorem not_deep_of_frames (h : m.frames = m₀.frames) : ¬ m₀.frames.length < m.frames.length := by
  rw [h]
  exact Nat.lt_irrefl _

theorem deep_of_busy {P : Frame → Prop} (h : m₀.Busy P m) : m₀.frames.length < m.frames.length := by
  obtain ⟨f, us, habove, -⟩ := h
  rw [habove.frames, List.length_append, List.length_cons]
  omega

/-- A round in the loop of the caller beside the same round in a loop that the call has to itself. -/
inductive Paired (call : Callback) (base : Nat) (m₀ m : Machine) : Prop
  | on {m' : Machine} (busy : m₀.Busy (fun _ => True) m') (outer : cycle call base m = .ok none m')
      (inner : cycle call m₀.frames.length m = .ok none m')
  | back {v : Value} {m' : Machine} (quiet : m₀.Quiet m')
      (outer : cycle call base m = .ok none { m' with stack := v :: m'.stack })
      (inner : cycle call m₀.frames.length m = .ok (some v) m')
  | left {s : Signal} {m' : Machine} (leaves : Leaves call m₀ m s m') (frames : m'.frames = m₀.frames)
      (outer : cycle call base m = (do unwind s base; return none) m')
      (inner : cycle call m₀.frames.length m = .error (.failed s) m')
  | stopped {stop : Stop Signal} {m' : Machine} (stops : ∀ s, stop ≠ .failed s)
      (outer : cycle call base m = .error stop m')
      (inner : cycle call m₀.frames.length m = .error stop m')

theorem Leaves.cycle_eq {s : Signal} (h : Leaves call m₀ m s m') (hcall : call.Quiet)
    (hbase : base < m₀.frames.length) (hm : m₀.Busy (fun _ => True) m) :
    cycle call base m = (do unwind s base; return none) m' ∧
      cycle call m₀.frames.length m = .error (.failed s) m' := by
  obtain ⟨s₁, m₁, us, hdispatch, hframes, hnone, rfl, rfl⟩ := h
  have hcycle : ∀ b, cycle call b m = (do unwind s₁ b; return none) m₁ := by
    intro b
    rw [cycle, bind_of_ok (attempt_of_failed hdispatch)]
  have hne : us ≠ [] := by
    rintro rfl
    have hdeep := deep_of_busy ((busy_dispatch Frame.invariant_true hcall).of_failed hm hdispatch)
    exact not_deep_of_frames hframes hdeep
  constructor
  · rw [hcycle]
    exact bind_congr_apply _ (unwind_leaveAll hframes hnone hbase)
  · rw [hcycle, bind_of_error (unwind_escaped hframes hne hnone rfl)]

theorem paired_of_returned {v : Value} (hbase : base < m₀.frames.length)
    (hm' : m₀.Busy (fun _ => True) m') (h : dispatch call m = .ok (.returned v) m') :
    Paired call base m₀ m := by
  obtain ⟨f, us, habove, hP⟩ := hm'
  have hcycle : ∀ b, cycle call b m = finishFrame v b m' := fun b => cycle_of_returned h
  cases us with
  -- the frame that returns is the last one of the call
  | nil =>
    have hframes : m'.frames = f :: m₀.frames := habove.frames
    refine .back (v := f.constructing.getD v) habove.leave.quiet_of_nil ?_ ?_
    · rw [hcycle, finishFrame_eq hframes, if_neg (Nat.not_le_of_lt hbase)]
      rfl
    · rw [hcycle, finishFrame_eq hframes, if_pos (Nat.le_refl _)]
      rfl
  | cons g us =>
    have hframes : m'.frames = f :: (g :: us ++ m₀.frames) := habove.frames
    have hlength : (g :: us ++ m₀.frames).length = us.length + 1 + m₀.frames.length := by
      rw [List.length_append, List.length_cons]
    refine .on ⟨g, us, habove.leave.push (f.constructing.getD v), fun r hr => trivial⟩ ?_ ?_
    · rw [hcycle, finishFrame_eq hframes, if_neg (by omega)]
    · rw [hcycle, finishFrame_eq hframes, if_neg (by omega)]

theorem paired_of_failed {s : Signal} (hcall : call.Quiet) (hbase : base < m₀.frames.length)
    (hm : m₀.Busy (fun _ => True) m) (hm' : m₀.Busy (fun _ => True) m')
    (h : dispatch call m = .error (.failed s) m') :
    Paired call base m₀ m := by
  have hbusy := hm'
  obtain ⟨f, us, habove, -⟩ := hm'
  have hcycle : ∀ b, cycle call b m = (do unwind s b; return none) m' := by
    intro b
    rw [cycle, bind_of_ok (attempt_of_failed h)]
  rcases first_taker s (f :: us) with ⟨above, g, r, rs, below, hsplit, hnone, hc, hg⟩ | hnone
  · have hframes : m'.frames = above ++ g :: (below ++ m₀.frames) := by
      rw [habove.frames, hsplit, List.append_assoc, List.cons_append]
    have hdeep : m₀.frames.length ≤ (below ++ m₀.frames).length := by simp
    obtain ⟨v, store, -, -, hinner⟩ := unwind_caught hframes hnone hc hg hdeep
    -- where the signal goes does not depend on the base
    have houter : unwind s base m' = unwind s m₀.frames.length m' := by
      rw [unwind, unwind, get_bind_apply, get_bind_apply, hframes, land_caught hnone hc hg hdeep,
        land_caught hnone hc hg (Nat.le_trans (Nat.le_of_lt hbase) hdeep)]
    refine .on ((busy_unwind Frame.invariant_true s).of_ok hbusy hinner) ?_ ?_
    · rw [hcycle, bind_of_ok (houter.trans hinner)]
      rfl
    · rw [hcycle, bind_of_ok hinner]
      rfl
  · have hleaves : Leaves call m₀ m _ _ := ⟨s, m', f :: us, h, habove.frames, hnone, rfl, rfl⟩
    obtain ⟨houter, hinner⟩ := hleaves.cycle_eq hcall hbase hm
    exact .left hleaves rfl houter hinner

theorem cycle_paired (hcall : call.Quiet) (hbase : base < m₀.frames.length)
    (hm : m₀.Busy (fun _ => True) m) : Paired call base m₀ m := by
  have hend := busy_dispatch Frame.invariant_true hcall m hm
  cases hd : dispatch call m with
  | ok step m' =>
    rw [hd] at hend
    cases step with
    | returned v => exact paired_of_returned hbase hend hd
    | next => exact .on hend (cycle_of_next hd nofun) (cycle_of_next hd nofun)
    | native body this args constructing =>
      exact .on hend (cycle_of_next hd nofun) (cycle_of_next hd nofun)
    | compare method a b => exact .on hend (cycle_of_next hd nofun) (cycle_of_next hd nofun)
  | error stop m' =>
    rw [hd] at hend
    cases stop with
    | failed s => exact paired_of_failed hcall hbase hm hend hd
    | overflow =>
      have hattempt : attempt (dispatch call) m = .error .overflow m' := attempt_of_overflow hd
      exact .stopped (fun _ h => by cases h) (bind_of_error hattempt) (bind_of_error hattempt)
    | outOfFuel =>
      have hattempt : attempt (dispatch call) m = .error .outOfFuel m' := by rw [attempt, hd]
      exact .stopped (fun _ h => by cases h) (bind_of_error hattempt) (bind_of_error hattempt)

theorem Rounds.eq_of_not_deep {depth : Nat} (h : Rounds call base depth m m')
    (hdeep : ¬ depth < m.frames.length) : m' = m := by
  cases h with
  | refl => rfl
  | step deep => exact absurd deep hdeep

theorem loop_of_inner {k : Nat} {r : Option Value} {m₁ : Machine}
    (h : cycle call base m = .ok r m₁) :
    loop call base (k + 1) m =
      match r with
      | some v => .ok v m₁
      | none => loop call base k m₁ := by
  rw [loop, bind_of_ok h]
  cases r <;> rfl

/-- Rounds that come back to the caller with a value are a loop of the call's own with that result. -/
theorem Rounds.loop_eq_ok (h : Rounds call base m₀.frames.length m m') (hcall : call.Quiet)
    (hbase : base < m₀.frames.length) (hm : m₀.Busy (fun _ => True) m)
    (hframes : m'.frames = m₀.frames) {w : Value} {st : List Value} (hstack : m'.stack = w :: st) :
    ∃ k, loop call m₀.frames.length k m = .ok w { m' with stack := st } := by
  induction h with
  | refl m => exact absurd (deep_of_busy hm) (not_deep_of_frames hframes)
  | @step m m₁ m₂ _ round rest ih =>
    cases cycle_paired hcall hbase hm with
    | on busy outer inner =>
      cases round.symm.trans outer
      obtain ⟨k, hk⟩ := ih busy hframes hstack
      exact ⟨k + 1, by rw [loop_of_inner inner]; exact hk⟩
    | back quiet outer inner =>
      cases round.symm.trans outer
      cases rest.eq_of_not_deep (not_deep_of_frames quiet.frames)
      cases hstack
      exact ⟨1, by rw [loop_of_inner inner]⟩
    -- the caller or a call below it has taken the signal
    | left leaves frames outer inner =>
      obtain ⟨hle, hne⟩ := frames_of_round (outer.symm.trans round)
      rw [frames] at hle hne
      cases rest.eq_of_not_deep (Nat.not_lt_of_le hle)
      exact absurd hframes hne
    | stopped stops outer inner => cases round.symm.trans outer

theorem Rounds.inner (h : Rounds call base m₀.frames.length m m') (hcall : call.Quiet)
    (hbase : base < m₀.frames.length) (hm : m₀.Busy (fun _ => True) m)
    (hdeep : m₀.frames.length < m'.frames.length) :
    m₀.Busy (fun _ => True) m' ∧
      ∃ j, ∀ k, loop call m₀.frames.length (k + j) m = loop call m₀.frames.length k m' := by
  induction h with
  | refl m => exact ⟨hm, 0, fun k => rfl⟩
  | @step m m₁ m₂ _ round rest ih =>
    cases cycle_paired hcall hbase hm with
    | on busy outer inner =>
      cases round.symm.trans outer
      obtain ⟨hbusy, j, hj⟩ := ih busy hdeep
      refine ⟨hbusy, j + 1, fun k => ?_⟩
      rw [← Nat.add_assoc, loop_of_inner inner]
      exact hj k
    | back quiet outer inner =>
      cases round.symm.trans outer
      cases rest.eq_of_not_deep (not_deep_of_frames quiet.frames)
      exact absurd hdeep (not_deep_of_frames quiet.frames)
    | left leaves frames outer inner =>
      have hle := (frames_of_round (outer.symm.trans round)).1
      rw [frames] at hle
      cases rest.eq_of_not_deep (Nat.not_lt_of_le hle)
      exact absurd hdeep (Nat.not_lt_of_le hle)
    | stopped stops outer inner => cases round.symm.trans outer

/-- Rounds up to a signal that leaves all calls are a loop of the call's own that ends with it. -/
theorem Rounds.loop_eq_failed (h : Rounds call base m₀.frames.length m m') (hcall : call.Quiet)
    (hbase : base < m₀.frames.length) (hm : m₀.Busy (fun _ => True) m)
    (hdeep : m₀.frames.length < m'.frames.length) {s : Signal} {m₃ : Machine}
    (hleaves : Leaves call m₀ m' s m₃) :
    ∃ k, loop call m₀.frames.length k m = .error (.failed s) m₃ := by
  obtain ⟨hbusy, j, hj⟩ := h.inner hcall hbase hm hdeep
  refine ⟨1 + j, ?_⟩
  rw [hj 1, loop, bind_of_error (hleaves.cycle_eq hcall hbase hbusy).2]

theorem rounds_of_loop_ok {k : Nat} {v : Value} (hcall : call.Quiet)
    (hbase : base < m₀.frames.length) (hm : m₀.Busy (fun _ => True) m)
    (h : loop call m₀.frames.length k m = .ok v m') :
    m'.frames = m₀.frames ∧
      Rounds call base m₀.frames.length m { m' with stack := v :: m'.stack } := by
  induction k generalizing m with
  | zero => cases h
  | succ k ih =>
    have hdeep := deep_of_busy hm
    cases cycle_paired hcall hbase hm with
    | on busy outer inner =>
      rw [loop_of_inner inner] at h
      obtain ⟨hframes, hrounds⟩ := ih busy h
      exact ⟨hframes, .step hdeep outer hrounds⟩
    | back quiet outer inner =>
      rw [loop_of_inner inner] at h
      cases h
      exact ⟨quiet.frames, .step hdeep outer (.refl _)⟩
    | left leaves frames outer inner =>
      rw [loop, bind_of_error inner] at h
      cases h
    | stopped stops outer inner =>
      rw [loop, bind_of_error inner] at h
      cases h

theorem rounds_of_loop_failed {k : Nat} {s : Signal} (hcall : call.Quiet)
    (hbase : base < m₀.frames.length) (hm : m₀.Busy (fun _ => True) m)
    (h : loop call m₀.frames.length k m = .error (.failed s) m') :
    ∃ m₂, Rounds call base m₀.frames.length m m₂ ∧ m₀.frames.length < m₂.frames.length ∧
      Leaves call m₀ m₂ s m' := by
  induction k generalizing m with
  | zero => cases h
  | succ k ih =>
    have hdeep := deep_of_busy hm
    cases cycle_paired hcall hbase hm with
    | on busy outer inner =>
      rw [loop_of_inner inner] at h
      obtain ⟨m₂, hrounds, hdeep₂, hleaves⟩ := ih busy h
      exact ⟨m₂, .step hdeep outer hrounds, hdeep₂, hleaves⟩
    | back quiet outer inner =>
      rw [loop_of_inner inner] at h
      cases h
    | left leaves frames outer inner =>
      rw [loop, bind_of_error inner] at h
      cases h
      exact ⟨m, .refl m, hdeep, leaves⟩
    | stopped stops outer inner =>
      rw [loop, bind_of_error inner] at h
      cases h
      exact absurd rfl (stops s)

end Simulation

section Calls

variable {base : Nat} {m m' m₁ : Machine} {x : Callback → Exec Step}

theorem comesTo_ok_iff_of_balanced
    (hx : ∀ n step m₁, x (invoke n) m = .ok step m₁ → m₁.frames = m.frames) {w : Value} :
    ComesTo base x m (.ok w) m' ↔
      ∃ n step, x (invoke n) m = .ok step { m' with stack := w :: m'.stack } := by
  constructor
  · intro h
    cases h with
    | @value n step m₁ _ _ _ start rounds frames stack =>
      cases rounds.eq_of_not_deep (not_deep_of_frames (hx _ _ _ start))
      refine ⟨n, step, ?_⟩
      rw [start, ← stack]
  · rintro ⟨n, step, hstart⟩
    have hframes := hx n step _ hstart
    exact .of_pushed hstart (.refl _) hframes

theorem comesTo_error_iff_of_balanced
    (hx : ∀ n step m₁, x (invoke n) m = .ok step m₁ → m₁.frames = m.frames) {s : Signal} :
    ComesTo base x m (.error s) m' ↔ ∃ n, x (invoke n) m = .error (.failed s) m' := by
  constructor
  · intro h
    cases h with
    | failed start => exact ⟨_, start⟩
    | left start rounds deep leaves =>
      cases rounds.eq_of_not_deep (not_deep_of_frames (hx _ _ _ start))
      exact absurd deep (not_deep_of_frames (hx _ _ _ start))
  · rintro ⟨n, hstart⟩
    exact .failed hstart

theorem comesTo_iff_of_failed {s : Signal} (hx : ∀ call, x call m = .error (.failed s) m₁)
    {r : Except Signal Value} : ComesTo base x m r m' ↔ r = .error s ∧ m' = m₁ := by
  constructor
  · intro h
    cases h with
    | value start => cases (hx _).symm.trans start
    | left start => cases (hx _).symm.trans start
    | failed start =>
      cases (hx _).symm.trans start
      exact ⟨rfl, rfl⟩
  · rintro ⟨rfl, rfl⟩
    exact .failed (n := 0) (hx _)

theorem eq_of_pushed {v w : Value} (h : { m with stack := v :: m.stack } =
    { m' with stack := w :: m'.stack }) : v = w ∧ m = m' :=
  ⟨(List.cons.inj (congrArg Machine.stack h)).1,
    congrArg (fun m : Machine => { m with stack := m.stack.tail }) h⟩

theorem comesTo_iff_of_pushed {v : Value} (hframes : m₁.frames = m.frames)
    (hx : ∀ call, x call m = .ok .next { m₁ with stack := v :: m₁.stack })
    {r : Except Signal Value} : ComesTo base x m r m' ↔ r = .ok v ∧ m' = m₁ := by
  have hbalanced : ∀ n step m₂, x (invoke n) m = .ok step m₂ → m₂.frames = m.frames := by
    intro n step m₂ h
    cases (hx _).symm.trans h
    exact hframes
  cases r with
  | error s =>
    rw [comesTo_error_iff_of_balanced hbalanced]
    refine ⟨fun ⟨n, h⟩ => ?_, fun h => by cases h.1⟩
    cases (hx _).symm.trans h
  | ok w =>
    rw [comesTo_ok_iff_of_balanced hbalanced]
    constructor
    · rintro ⟨n, step, h⟩
      rw [hx] at h
      obtain ⟨rfl, rfl⟩ := eq_of_pushed (EStateM.Result.ok.inj h).2
      exact ⟨rfl, rfl⟩
    · rintro ⟨hw, rfl⟩
      cases hw
      exact ⟨0, .next, hx _⟩

section Answered

variable {y : Callback → Exec Value} {g : Value → Value}

theorem frames_of_answered
    (hx : ∀ call, x call m = (y call >>= fun v => andNext (push (g v))) m₁)
    (hy : ∀ n v m₂, y (invoke n) m₁ = .ok v m₂ → m₂.frames = m.frames) (n : Nat) (step : Step)
    (m₂ : Machine) (h : x (invoke n) m = .ok step m₂) : m₂.frames = m.frames := by
  rw [hx] at h
  cases hr : y (invoke n) m₁ with
  | ok v m₃ =>
    rw [bind_of_ok hr] at h
    cases h
    exact hy n v m₃ hr
  | error stop m₃ =>
    rw [bind_of_error hr] at h
    cases h

theorem comesTo_ok_iff_of_answered
    (hx : ∀ call, x call m = (y call >>= fun v => andNext (push (g v))) m₁)
    (hy : ∀ n v m₂, y (invoke n) m₁ = .ok v m₂ → m₂.frames = m.frames) {u : Value} :
    ComesTo base x m (.ok u) m' ↔ ∃ n w, u = g w ∧ y (invoke n) m₁ = .ok w m' := by
  rw [comesTo_ok_iff_of_balanced (frames_of_answered hx hy)]
  constructor
  · rintro ⟨n, step, h⟩
    rw [hx] at h
    cases hr : y (invoke n) m₁ with
    | ok w m₂ =>
      rw [bind_of_ok hr] at h
      obtain ⟨hu, rfl⟩ := eq_of_pushed (EStateM.Result.ok.inj h).2
      exact ⟨n, w, hu.symm, hr⟩
    | error stop m₂ =>
      rw [bind_of_error hr] at h
      cases h
  · rintro ⟨n, w, rfl, hr⟩
    refine ⟨n, .next, ?_⟩
    rw [hx, bind_of_ok hr]
    rfl

theorem comesTo_error_iff_of_answered
    (hx : ∀ call, x call m = (y call >>= fun v => andNext (push (g v))) m₁)
    (hy : ∀ n v m₂, y (invoke n) m₁ = .ok v m₂ → m₂.frames = m.frames) {s : Signal} :
    ComesTo base x m (.error s) m' ↔ ∃ n, y (invoke n) m₁ = .error (.failed s) m' := by
  rw [comesTo_error_iff_of_balanced (frames_of_answered hx hy)]
  refine exists_congr fun n => ?_
  rw [hx]
  constructor
  · intro h
    obtain hr | ⟨v, m₂, -, hpush⟩ := bind_eq_failed h
    · exact hr
    · cases hpush
  · exact fun h => bind_of_error h

end Answered

theorem ComesTo.congr {y : Callback → Exec Step} {r : Except Signal Value}
    (h : ComesTo base x m r m') (hframes : m₁.frames = m.frames)
    (hxy : ∀ call, x call m = y call m₁) : ComesTo base y m₁ r m' := by
  cases h with
  | value start rounds frames stack =>
    rw [hxy] at start
    rw [← hframes] at rounds frames
    exact .value start rounds frames stack
  | failed start =>
    rw [hxy] at start
    exact .failed start
  | left start rounds deep leaves =>
    rw [hxy] at start
    rw [← hframes] at rounds deep
    rw [Leaves, ← hframes] at leaves
    exact .left start rounds deep leaves

theorem comesTo_congr {y : Callback → Exec Step} {r : Except Signal Value}
    (hframes : m₁.frames = m.frames) (hxy : ∀ call, x call m = y call m₁) :
    ComesTo base x m r m' ↔ ComesTo base y m₁ r m' :=
  ⟨fun h => h.congr hframes hxy, fun h => h.congr hframes.symm fun call => (hxy call).symm⟩

/-- A call that is started in a loop. -/
abbrev calling (callee : Value) (this : Option Value) (args : List Value) (call : Callback) :
    Exec Step :=
  callAndGoOn callee this args none >>= complete call

variable {callee : Value} {this : Option Value} {args : List Value}

theorem calling_of_entered (h : beginCall callee this args none m = .ok .entered m₁)
    (call : Callback) : calling callee this args call m = .ok .next m₁ := by
  have hstart : callAndGoOn callee this args none m = .ok .next m₁ := by
    rw [callAndGoOn, bind_of_ok h]
    rfl
  rw [calling, bind_of_ok hstart]
  rfl

theorem invoke_of_entered (h : beginCall callee this args none m = .ok .entered m₁) (n : Nat) :
    invoke (n + 1) callee this args m = loop (invoke n) m.frames.length n m₁ := by
  rw [invoke, get_bind_apply, bind_of_ok h]

/-- A script function comes to the same in either loop. -/
theorem comesTo_entered_iff (hbase : base < m.frames.length)
    (h : beginCall callee this args none m = .ok .entered m₁) {r : Except Signal Value} :
    ComesTo base (calling callee this args) m r m' ↔
      ∃ n, invoke n callee this args m = ended r m' := by
  have hbusy : m.Busy (fun _ => True) m₁ := (started_of_ok h).busy Frame.invariant_true
  -- more budget for the loop and for the calls in it gives the same end
  have hmore {n k : Nat} (hloop : loop (invoke n) m.frames.length k m₁ = ended r m') :
      ∃ n, invoke n callee this args m = ended r m' := by
    refine ⟨max n k + 1, ?_⟩
    rw [invoke_of_entered h]
    have hext := loop_extends (invoke_extends (Nat.le_max_left n k)) m.frames.length
      (Nat.le_max_right n k)
    cases r with
    | ok v => exact hext.eq_of_ok hloop
    | error s => exact hext.eq_of_failed hloop
  constructor
  · intro hcomes
    cases hcomes with
    | @value n _ _ _ _ _ start rounds frames stack =>
      cases (calling_of_entered h _).symm.trans start
      obtain ⟨k, hk⟩ := rounds.loop_eq_ok (quiet_invoke n) hbase hbusy frames stack
      exact hmore hk
    | failed start => cases (calling_of_entered h _).symm.trans start
    | @left n _ _ _ _ _ start rounds deep leaves =>
      cases (calling_of_entered h _).symm.trans start
      obtain ⟨k, hk⟩ := rounds.loop_eq_failed (quiet_invoke n) hbase hbusy deep leaves
      exact hmore hk
  · rintro ⟨n, hn⟩
    cases n with
    | zero => cases r <;> cases hn
    | succ n =>
      rw [invoke_of_entered h] at hn
      cases r with
      | ok v =>
        obtain ⟨hframes, hrounds⟩ := rounds_of_loop_ok (quiet_invoke n) hbase hbusy hn
        exact .of_pushed (calling_of_entered h _) hrounds hframes
      | error s =>
        obtain ⟨m₂, hrounds, hdeep, hleaves⟩ :=
          rounds_of_loop_failed (quiet_invoke n) hbase hbusy hn
        exact .left (calling_of_entered h _) hrounds hdeep hleaves

/-- A call that has started is at work in a frame, or over. -/
theorem entered_or_shallow {call : Callback} {step : Step} (hcall : call.Quiet)
    (h : calling callee this args call m = .ok step m₁) :
    beginCall callee this args none m = .ok .entered m₁ ∨ m₁.frames = m.frames := by
  cases hbegin : beginCall callee this args none m with
  | error stop m₂ =>
    have hstart : callAndGoOn callee this args none m = .error stop m₂ := bind_of_error hbegin
    rw [calling, bind_of_error hstart] at h
    cases h
  | ok start m₂ =>
    cases start with
    | entered =>
      cases (calling_of_entered hbegin call).symm.trans h
      exact .inl rfl
    | native body self given constructing =>
      have hstart : callAndGoOn callee this args none m =
          .ok (.native body self given constructing) m₂ := bind_of_ok hbegin
      rw [calling, bind_of_ok hstart] at h
      have hframes := (frames_complete hcall _ m₂.frames).of_ok rfl h
      exact .inr (hframes.trans (started_of_ok hbegin).1.quiet.frames)

theorem comesTo_native_iff {body : NativeBody} {self : Value} {given : List Value}
    {constructing : Option Value}
    (h : beginCall callee this args none m = .ok (.native body self given constructing) m₁)
    {r : Except Signal Value} :
    ComesTo base (calling callee this args) m r m' ↔
      ∃ n, invoke n callee this args m = ended r m' := by
  have hstart : callAndGoOn callee this args none m =
      .ok (.native body self given constructing) m₁ := by
    rw [callAndGoOn, bind_of_ok h]
    rfl
  have hcalling : ∀ call, calling callee this args call m =
      (runNative call body self given constructing >>= fun v => andNext (push v)) m₁ := by
    intro call
    rw [calling, bind_of_ok hstart]
    rfl
  have hinvoke : ∀ n, invoke (n + 1) callee this args m =
      runNative (invoke n) body self given constructing m₁ := by
    intro n
    rw [invoke, get_bind_apply, bind_of_ok h]
  have hframes : ∀ n v m₂, runNative (invoke n) body self given constructing m₁ = .ok v m₂ →
      m₂.frames = m.frames := by
    intro n v m₂ hrun
    have hquiet := (quiet_runNative (quiet_invoke n) body self given constructing).of_ok
      (.refl m₁) hrun
    exact hquiet.frames.trans (started_of_ok h).1.quiet.frames
  have hmore : (∃ n, invoke n callee this args m = ended r m') ↔
      ∃ n, runNative (invoke n) body self given constructing m₁ = ended r m' := by
    constructor
    · rintro ⟨n, hn⟩
      cases n with
      | zero => cases r <;> cases hn
      | succ n => exact ⟨n, (hinvoke n).symm.trans hn⟩
    · rintro ⟨n, hn⟩
      exact ⟨n + 1, (hinvoke n).trans hn⟩
  rw [hmore]
  cases r with
  | ok v =>
    rw [comesTo_ok_iff_of_answered (g := id) hcalling hframes]
    constructor
    · rintro ⟨n, w, rfl, hrun⟩
      exact ⟨n, hrun⟩
    · rintro ⟨n, hrun⟩
      exact ⟨n, v, rfl, hrun⟩
  | error s => exact comesTo_error_iff_of_answered (g := id) hcalling hframes

/-- A call that is refused fails in the same way in either loop. -/
theorem comesTo_refused_iff {stop : Stop Signal}
    (h : beginCall callee this args none m = .error stop m₁) {r : Except Signal Value} :
    ComesTo base (calling callee this args) m r m' ↔
      ∃ n, invoke n callee this args m = ended r m' := by
  have hcalling : ∀ call, calling callee this args call m = .error stop m₁ := by
    intro call
    have hstart : callAndGoOn callee this args none m = .error stop m₁ := by
      rw [callAndGoOn, bind_of_error h]
    rw [calling, bind_of_error hstart]
  have hinvoke : ∀ n, invoke (n + 1) callee this args m = .error stop m₁ := by
    intro n
    rw [invoke, get_bind_apply, bind_of_error h]
  constructor
  · intro hcomes
    cases hcomes with
    | value start => cases (hcalling _).symm.trans start
    | left start => cases (hcalling _).symm.trans start
    | failed start =>
      cases (hcalling _).symm.trans start
      exact ⟨1, hinvoke 0⟩
  · rintro ⟨n, hn⟩
    cases n with
    | zero => cases r <;> cases hn
    | succ n =>
      cases r with
      | ok v => cases (hinvoke n).symm.trans hn
      | error s =>
        cases (hinvoke n).symm.trans hn
        exact .failed (n := 0) (hcalling _)

/-- A call comes to the same whether the loop of the caller or a loop of its own runs it. -/
theorem comesTo_calling_iff (hbase : base < m.frames.length) {r : Except Signal Value} :
    ComesTo base (calling callee this args) m r m' ↔
      ∃ n, invoke n callee this args m = ended r m' := by
  cases h : beginCall callee this args none m with
  | ok start m₁ =>
    cases start with
    | entered => exact comesTo_entered_iff hbase h
    | native body self given constructing => exact comesTo_native_iff h
  | error stop m₁ => exact comesTo_refused_iff h

end Calls

end Exec

end ScriptMachine
