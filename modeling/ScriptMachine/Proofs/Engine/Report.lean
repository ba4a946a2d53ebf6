import Mathlib.Data.List.Forall2
import ScriptMachine.Proofs.Engine.Escape

namespace ScriptMachine

open List (Forall₂)

namespace Exec

/-- A computation that may fail only while the frames are still `fs`. -/
abbrev FailsFirst {α : Type} (fs : List Frame) (x : Exec α) : Prop :=
  Triple (fun m => m.frames = fs) x (fun _ _ => True) (fun _ m => m.frames = fs) False

section Jumps

variable {f : Frame} {rest : List Frame}

theorem frames_pop {fs : List Frame} :
    Triple (fun m => m.frames = fs) pop (fun _ m => m.frames = fs) (fun _ m => m.frames = fs)
      False := by
  refine .get_bind fun m hm => ?_
  split
  · exact .fail fun _ h => h.2
  · split
    · exact .bind (J := fun _ m => m.frames = fs) (.set fun _ _ => hm) fun _ => .pure fun _ h => h
    · exact .fail fun _ h => h.2

theorem frames_top :
    Triple (fun m => m.frames = f :: rest) top (fun _ m => m.frames = f :: rest)
      (fun _ m => m.frames = f :: rest) False := by
  intro m hm
  rw [top_eq hm]
  exact hm

theorem failsFirst_setTop (g : Frame → Frame) : FailsFirst (f :: rest) (setTop g) := by
  intro m hm
  rw [setTop_eq hm]
  trivial

theorem failsFirst_jumpIf (expected : Bool) (target : Nat) :
    FailsFirst (f :: rest) (Effect.jumpIf expected target) := by
  refine .bind frames_pop fun v => ?_
  split
  · exact failsFirst_setTop _
  · exact .pure fun _ _ => trivial

theorem failsFirst_jumpIfArgumentSupplied (p target : Nat) :
    FailsFirst (f :: rest) (Effect.jumpIfArgumentSupplied p target) := by
  refine .bind frames_top fun g => ?_
  split
  · exact failsFirst_setTop _
  · exact .pure fun _ _ => trivial

theorem failsFirst_jumpIfStaticInitialized (slot target : Nat) :
    FailsFirst (f :: rest) (Effect.jumpIfStaticInitialized slot target) := by
  refine .bind (J := fun _ m => m.frames = f :: rest) (.bind frames_top fun g => ?_) fun block => ?_
  · exact .get_bind fun m _ => .pure fun _ h => h.2
  · split
    · exact failsFirst_setTop _
    · exact .pure fun _ _ => trivial

theorem failsFirst_pushTry (target : Nat) : FailsFirst (f :: rest) (Effect.pushTry target) :=
  .get_bind fun _ _ =>
    (failsFirst_setTop _).conseq (fun _ h => h.2) (fun _ _ h => h) fun _ _ h => h

theorem failsFirst_execute {o : Opcode} {target : Nat} (ho : o.jumpTarget? = some target) :
    FailsFirst (f :: rest) (execute o) := by
  have next {x : Exec Unit} (hx : FailsFirst (f :: rest) x) : FailsFirst (f :: rest) (andNext x) :=
    .bind hx fun _ => .pure fun _ _ => trivial
  cases o with
  | jump t => exact next (failsFirst_setTop _)
  | jumpIfTrue t => exact next (failsFirst_jumpIf true t)
  | jumpIfFalse t => exact next (failsFirst_jumpIf false t)
  | pushTry t => exact next (failsFirst_pushTry t)
  | jumpIfArgumentSupplied p t => exact next (failsFirst_jumpIfArgumentSupplied p t)
  | jumpIfStaticInitialized slot t => exact next (failsFirst_jumpIfStaticInitialized slot t)
  | _ => cases ho

end Jumps

theorem raise_spec {m₀ : Machine} :
    Triple (fun m => m = m₀) Effect.raise (fun _ _ => True)
      (fun s m => ∀ v, s = .raise v → m₀.stack = v :: m.stack ∧ m.Clean) False := by
  refine .bind (J := fun v m => m₀.stack = v :: m.stack) (.get_bind fun m hm => ?_) fun v => ?_
  · subst hm
    split
    · exact .fail fun _ _ v h => nomatch h
    · split
      · next v rest hstack =>
        exact .bind (J := fun _ m' => m'.stack = rest) (.set fun _ _ => rfl) fun _ =>
          .pure fun _ h => h ▸ hstack
      · exact .fail fun _ _ v h => nomatch h
  · refine .bind (J := fun _ m => m₀.stack = v :: m.stack ∧ m.Clean)
      (.modify fun _ h => ⟨h, rfl, rfl⟩) fun _ => .signal fun m h w hw => ?_
    cases hw
    exact h

section Failed

variable {m₀ m m₁ m₂ : Machine} {i : Instruction} {s : Signal}

theorem executing_of_failed (hbusy : m₀.Busy (fun _ => True) m)
    (hfetch : fetch m = .ok (some i) m₁) (hfail : execute i.opcode m₁ = .error (.failed s) m₂) :
    ∃ g us, m₂.frames = (g :: us) ++ m₀.frames ∧ m.frames.tail = us ++ m₀.frames ∧
      g.Executing i := by
  obtain ⟨f, us, habove, -⟩ := hbusy
  have htail : m.frames.tail = us ++ m₀.frames := by
    rw [habove.frames]
    rfl
  have hspec := fetch_spec habove.frames
  rw [hfetch] at hspec
  obtain ⟨hi, rfl⟩ := hspec
  cases hjump : i.opcode.jumpTarget? with
  | none =>
    have hrun := (advances_execute i.opcode).of_failed (habove.fetched.running i.opcode) hfail
    obtain ⟨g, hg, hfollow⟩ := hrun.1.frames
    exact ⟨g, us, hg, htail, hfollow.executing hi.symm hjump⟩
  | some target =>
    refine ⟨_, us, (failsFirst_execute hjump).of_failed rfl hfail, htail, Nat.succ_pos _, ?_⟩
    exact hi.symm

theorem record_of_failed (hbusy : m₀.Busy (fun _ => True) m)
    (hfetch : fetch m = .ok (some i) m₁) (hfail : execute i.opcode m₁ = .error (.failed s) m₂) :
    s.record m₂ = ([], none) ∧
      ∀ v, s = .raise v → i.opcode = .throw ∧ m₁.stack = v :: m₂.stack := by
  obtain ⟨f, us, habove, -⟩ := hbusy
  have hspec := fetch_spec habove.frames
  rw [hfetch] at hspec
  obtain ⟨-, rfl⟩ := hspec
  have hblames := ((advances_execute i.opcode).of_failed (habove.fetched.running i.opcode) hfail).2
  cases s with
  | error fault => exact ⟨Prod.ext hblames.1.1 hblames.1.2, fun v h => nomatch h⟩
  | raise v =>
    have hthrow : i.opcode = .throw := hblames
    rw [hthrow] at hfail ⊢
    rcases bind_eq_failed hfail with hraise | ⟨_, _, -, hpure⟩
    · obtain ⟨hstack, htrace, hposition⟩ := raise_spec.of_failed rfl hraise v rfl
      refine ⟨Prod.ext htrace hposition, fun w hw => ?_⟩
      cases hw
      exact ⟨rfl, hstack⟩
    · cases hpure

end Failed

end Exec

/-- The host is told the value of a raise, or the cause of an error. -/
def Failure.Reports (failure : Failure) : Cause ⊕ Value → Prop
  | .inr v => failure.fault.kind = .unhandled ∧ failure.thrown = some v
  | .inl c => failure.fault.cause = c ∧ failure.thrown = none

/-- The entry shows the call: its name, its source, and the line of the instruction that it is in the
middle of. -/
def Frame.ShownAs (store : Store) (f : Frame) (entry : TraceEntry) : Prop :=
  ∃ i, f.Executing i ∧ entry =
    { function := some f.closure.name
      source := (store.staticsCell f.closure.statics).source
      line := (i.position.map (·.line)).getD f.closure.template.line }

theorem Frame.Executing.shownAs {f : Frame} {i : Instruction} (h : f.Executing i) (store : Store) :
    f.ShownAs store (f.entry store) := by
  refine ⟨i, h, ?_⟩
  rw [Frame.entry, Frame.traceEntry, h.line_eq]

theorem Machine.Suspended.shownAs {m : Machine} (h : m.Suspended) (store : Store) :
    Forall₂ (Frame.ShownAs store) m.frames (m.frames.map (Frame.entry store)) := by
  rw [List.forall₂_map_right_iff, List.forall₂_same]
  intro f hf
  obtain ⟨i, hi⟩ := h f hf
  exact hi.shownAs store

namespace HostM

variable {α : Type} {s : Signal} {m : Machine}

theorem report_eq (s : Signal) (m : Machine) :
    ∃ failure m', (report s : HostM α) m = .error (.failed failure) m' ∧
      failure.Reports s.essence ∧
      (failure.fault.trace, failure.fault.position) = s.record m ∧ m'.executed = m.executed := by
  cases s with
  | error fault => exact ⟨_, _, rfl, ⟨rfl, rfl⟩, rfl, rfl⟩
  | raise v => exact ⟨_, _, rfl, ⟨rfl, rfl⟩, rfl, rfl⟩

theorem record_withStack (s : Signal) (m : Machine) (stack : List Value) :
    s.record { m with stack } = s.record m := by
  cases s <;> rfl

theorem callWith_eq (hidle : m.frames = []) (k : Nat) (callee : Value) (this : Option Value)
    (args : List Value) :
    callWith k callee this args m =
      ofExec (Exec.invoke k callee this args) { m with executed := 0 } := by
  have hstart : (if m.frames.isEmpty then { m with executed := 0 } else m) =
      { m with executed := 0 } := by
    rw [hidle]
    rfl
  rw [← hstart]
  rfl

/-- A call of the host fails with the signal that leaves it. The report has an entry for each of the
calls `F`. -/
theorem callWith_of_escaping {callee : Value} {this : Option Value} {args : List Value}
    {F : List Frame} {store : Store} {e : Cause ⊕ Value} {m₁ : Machine} (hidle : m.frames = [])
    (hframes : m₁.frames = []) (h : Escaping F store e s m₁) :
    ∃ failure m', (∀ k, Exec.invoke k callee this args { m with executed := 0 } =
        .error (.failed s) m₁ → callWith k callee this args m = .error (.failed failure) m') ∧
      failure.Reports e ∧ failure.fault.trace = F.map (Frame.entry store) ∧
      failure.fault.position = F.head?.map Frame.place := by
  -- no call is active any more, so that all of `F` are on record
  obtain ⟨gone, hF, hrecord⟩ := h.left
  rw [hframes, List.append_nil] at hF
  obtain ⟨failure, m', hreport, htold, heq, -⟩ := report_eq (α := Value) s
    { m₁ with stack := cutTo m.stack.length m₁.stack }
  rw [record_withStack, hrecord, ← hF] at heq
  rw [h.essence] at htold
  refine ⟨failure, m', fun k hinvoke => ?_, htold, congrArg Prod.fst heq, congrArg Prod.snd heq⟩
  rw [callWith_eq hidle, ofExec, hinvoke]
  exact hreport

end HostM

end ScriptMachine
