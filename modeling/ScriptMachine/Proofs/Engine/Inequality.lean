import ScriptMachine.Proofs.Engine.NestedLoop

namespace ScriptMachine

namespace Exec

/-- An instruction with what it leaves to be done. -/
abbrev performing (o : Opcode) (call : Callback) : Exec Step :=
  execute o >>= complete call

/-- How the two comparisons start, from one and the same machine. -/
inductive Compared (m : Machine) : Prop
  /-- Neither comes to compare anything. -/
  | refused {s : Signal} {m₁ : Machine}
      (equal : execute .equal m = .error (.failed s) m₁)
      (notEqual : execute .notEqual m = .error (.failed s) m₁)
  /-- Without a method. -/
  | builtin {t : Bool} {m₁ : Machine} (frames : m₁.frames = m.frames)
      (equal : execute .equal m = .ok .next { m₁ with stack := .bool t :: m₁.stack })
      (notEqual : execute .notEqual m = .ok .next { m₁ with stack := .bool (!t) :: m₁.stack })
  /-- With a method that was found. -/
  | method {f a b : Value} {m₁ : Machine} (frames : m₁.frames = m.frames)
      (config : m₁.config = m.config)
      (equal : execute .equal m = callAndGoOn f (some a) [b] none m₁)
      (notEqual : execute .notEqual m = .ok (.compare f a b) m₁)

theorem compared_of_operands {m : Machine} {a b : Value} (m₁ : Machine)
    (frames : m₁.frames = m.frames) (config : m₁.config = m.config)
    (h : ∀ k : Value → Value → Exec Step, (do let b ← pop; let a ← pop; k a b) m = k a b m₁) :
    Compared m := by
  have hmethod : hasEqualityMethod a m₁ =
      .ok (!a.hasBuiltinEquality && (m₁.store.resolve a "==").isSome) m₁ := rfl
  cases hask : !a.hasBuiltinEquality && (m₁.store.resolve a "==").isSome with
  | false =>
    rw [hask] at hmethod
    refine .builtin (t := a == b) frames ((h _).trans ?_) ((h _).trans ?_)
    · exact bind_of_ok hmethod
    · exact bind_of_ok hmethod
  | true =>
    rw [hask] at hmethod
    obtain ⟨r, hr⟩ := Option.isSome_iff_exists.1 (Bool.and_eq_true_iff.1 hask).2
    have hoperator : callOperator .equal a [b] m₁ =
        (find a "==" >>= fun f => callAndGoOn f (some a) [b] none) m₁ := by
      rw [callOperator]
      dsimp only [Opcode.operator?]
      rw [get_bind_apply, hr]
    have hequal : execute .equal m =
        (find a "==" >>= fun f => callAndGoOn f (some a) [b] none) m₁ :=
      (h _).trans ((bind_of_ok hmethod).trans hoperator)
    have hnotEqual : execute .notEqual m =
        (find a "==" >>= fun f => pure (.compare f a b)) m₁ := (h _).trans (bind_of_ok hmethod)
    rcases find_cases a "==" m₁ with ⟨f, hfind⟩ | ⟨s, hfind⟩
    · exact .method frames config (hequal.trans (bind_of_ok hfind))
        (hnotEqual.trans (bind_of_ok hfind))
    · exact .refused (hequal.trans (bind_of_error hfind)) (hnotEqual.trans (bind_of_error hfind))

theorem compared (m : Machine) : Compared m := by
  rcases pop_cases m with ⟨b, rest, -, hb⟩ | hb
  · rcases pop_cases { m with stack := rest } with ⟨a, rest', -, ha⟩ | ha
    · refine compared_of_operands (a := a) (b := b) { m with stack := rest' } rfl rfl fun k => ?_
      rw [bind_of_ok hb, bind_of_ok ha]
    · exact .refused ((bind_of_ok hb).trans (bind_of_error ha))
        ((bind_of_ok hb).trans (bind_of_error ha))
  · exact .refused (bind_of_error hb) (bind_of_error hb)

variable {base : Nat} {m m' m₁ : Machine} {f a b : Value}

theorem frames_of_invoke {callee : Value} {this : Option Value} {args : List Value}
    (hm₁ : m₁.frames = m.frames) (n : Nat) (v : Value) (m₂ : Machine)
    (h : invoke n callee this args m₁ = .ok v m₂) : m₂.frames = m.frames :=
  ((quiet_invoke n callee this args m₁).of_ok (.refl m₁) h).frames.trans hm₁

theorem performing_equal (h : execute .equal m = callAndGoOn f (some a) [b] none m₁)
    (call : Callback) : performing .equal call m = calling f (some a) [b] call m₁ :=
  bind_congr_apply _ h

theorem comesTo_equal_of_method (hbase : base < m.frames.length) (frames : m₁.frames = m.frames)
    (h : execute .equal m = callAndGoOn f (some a) [b] none m₁) (r : Except Signal Value) :
    ComesTo base (performing .equal) m r m' ↔
      ∃ n, invoke n f (some a) [b] m₁ = ended r m' := by
  rw [comesTo_congr frames (performing_equal h)]
  exact comesTo_calling_iff (by rw [frames]; exact hbase)

theorem performing_compare (h : execute .notEqual m = .ok (.compare f a b) m₁) (call : Callback) :
    performing .notEqual call m =
      (call f (some a) [b] >>= fun v => andNext (push (.bool !v.truthy))) m₁ := by
  rw [performing, bind_of_ok h]
  rfl

theorem performing_next {o : Opcode} (h : execute o m = .ok .next m₁) (call : Callback) :
    performing o call m = .ok .next m₁ := by
  rw [performing, bind_of_ok h]
  rfl

theorem performing_failed {o : Opcode} {s : Signal} (h : execute o m = .error (.failed s) m₁)
    (call : Callback) : performing o call m = .error (.failed s) m₁ :=
  bind_of_error h

theorem notEqual_value_iff (hbase : base < m.frames.length) (u : Value) :
    ComesTo base (performing .notEqual) m (.ok u) m' ↔
      ∃ w, u = .bool (!w.truthy) ∧ ComesTo base (performing .equal) m (.ok w) m' := by
  cases compared m with
  | refused equal notEqual =>
    simp only [comesTo_iff_of_failed (performing_failed equal),
      comesTo_iff_of_failed (performing_failed notEqual), reduceCtorEq, false_and, and_false,
      exists_false]
  | builtin frames equal notEqual =>
    simp only [comesTo_iff_of_pushed frames (performing_next equal),
      comesTo_iff_of_pushed frames (performing_next notEqual)]
    constructor
    · rintro ⟨hu, rfl⟩
      exact ⟨_, Except.ok.inj hu, rfl, rfl⟩
    · rintro ⟨w, rfl, hw, rfl⟩
      cases hw
      exact ⟨rfl, rfl⟩
  | method frames config equal notEqual =>
    rw [comesTo_ok_iff_of_answered (performing_compare notEqual) (frames_of_invoke frames)]
    constructor
    · rintro ⟨n, w, rfl, h⟩
      exact ⟨w, rfl, (comesTo_equal_of_method hbase frames equal (.ok w)).2 ⟨n, h⟩⟩
    · rintro ⟨w, rfl, h⟩
      obtain ⟨n, h⟩ := (comesTo_equal_of_method hbase frames equal (.ok w)).1 h
      exact ⟨n, w, rfl, h⟩

theorem notEqual_signal_iff (hbase : base < m.frames.length) (s : Signal) :
    ComesTo base (performing .notEqual) m (.error s) m' ↔
      ComesTo base (performing .equal) m (.error s) m' := by
  cases compared m with
  | refused equal notEqual =>
    rw [comesTo_iff_of_failed (performing_failed equal),
      comesTo_iff_of_failed (performing_failed notEqual)]
  | builtin frames equal notEqual =>
    simp only [comesTo_iff_of_pushed frames (performing_next equal),
      comesTo_iff_of_pushed frames (performing_next notEqual), reduceCtorEq]
  | method frames config equal notEqual =>
    rw [comesTo_error_iff_of_answered (performing_compare notEqual) (frames_of_invoke frames)]
    exact (comesTo_equal_of_method hbase frames equal (.error s)).symm

/-- The signal has its place. -/
def Placed : Signal → Machine → Prop
  | .error fault, _ => fault.position.isSome = true
  | .raise _, m => m.raisePosition.isSome = true

theorem located_of_placed {s : Signal} (h : Placed s m) (position : Option Position) :
    located s position m = (s, m) := by
  cases s with
  | error fault =>
    obtain ⟨p, hp⟩ := Option.isSome_iff_exists.1 h
    obtain ⟨cause, trace, place⟩ := fault
    cases hp
    rfl
  | raise v =>
    obtain ⟨p, hp⟩ := Option.isSome_iff_exists.1 h
    obtain ⟨_, _, _, _, _, _, _, _, _, place, _⟩ := m
    cases hp
    rfl

theorem placed_located (s : Signal) (position : Option Position) (h : m.frames ≠ []) :
    Placed (located s position m).1 (located s position m).2 := by
  obtain ⟨f, rest, hm⟩ := List.exists_cons_of_ne_nil h
  cases s with
  | error fault => simp [located, hm, Placed]
  | raise v => simp [located, hm, Placed]

theorem placed_leaveAll {s : Signal} (h : Placed s m) (us : List Frame) (m₁ : Machine)
    (hm₁ : m₁.raisePosition = m.raisePosition) :
    Placed (s.leaveAll m.store m.raiseTrace us).1 m₁ := by
  have horigin := s.sameOrigin_leaveAll m.store m.raiseTrace us
  revert h horigin
  generalize (s.leaveAll m.store m.raiseTrace us).1 = s'
  rintro h (⟨-, hposition⟩ | v)
  · rw [Placed, hposition]
    exact h
  · rw [Placed, hm₁]
    exact h

theorem fetched_of_unlimited {m₀ : Machine} :
    Triple (fun m => m₀.Busy (fun _ => True) m ∧ m.config.instructionLimit = none) fetch
      (fun r => match r with | some i => Fetched (fun _ => True) m₀ i | none => fun _ => True)
      Placed := by
  rintro m ⟨⟨f, us, habove, hP⟩, hlimit⟩
  refine (fetch_spec habove.frames).weaken.mono (fun r m' hm' => ?_) fun s m' hm' => ?_
  · obtain ⟨hr, rfl⟩ := hm'
    cases r with
    | none => trivial
    | some i => exact ⟨m, f, us, habove, hP, hr.symm, rfl⟩
  · obtain ⟨_, limit, -, hsome, -⟩ := hm'
    rw [hlimit] at hsome
    cases hsome

theorem placed_dispatch {call : Callback} {m₀ : Machine} (hcall : call.Quiet) :
    Triple (fun m => m₀.Busy (fun _ => True) m ∧ m.config.instructionLimit = none) (dispatch call)
      (fun _ _ => True) Placed := by
  refine dispatch_rule (X := Fetched (fun _ => True) m₀) fetched_of_unlimited fun i => ?_
  refine (busy_instruction Frame.invariant_true hcall i).conseq (fun _ h => h)
    (fun _ _ _ => trivial) ?_
  rintro s m ⟨f, us, habove, -⟩
  refine placed_located s i.position ?_
  rw [habove.frames]
  exact List.cons_ne_nil _ _

theorem Leaves.placed {call : Callback} {m₀ : Machine} {s : Signal} (h : Leaves call m₀ m s m')
    (hcall : call.Quiet) (hm : m₀.Busy (fun _ => True) m)
    (hlimit : m₀.config.instructionLimit = none) : Placed s m' := by
  obtain ⟨s₁, m₁, us, hdispatch, -, -, rfl, rfl⟩ := h
  have hconfig : m.config = m₀.config := by
    obtain ⟨f, us, habove, -⟩ := hm
    exact habove.config
  have hplaced : Placed s₁ m₁ :=
    (placed_dispatch hcall).of_failed ⟨hm, by rw [hconfig, hlimit]⟩ hdispatch
  exact placed_leaveAll hplaced us _ rfl

theorem busy_of_equal (hbase : base < m.frames.length) {n : Nat} {step : Step} {m₂ : Machine}
    (h : performing .equal (invoke n) m = .ok step m₁)
    (hrounds : Rounds (invoke n) base m.frames.length m₁ m₂)
    (hdeep : m.frames.length < m₂.frames.length) :
    ∃ m₀ : Machine, m₀.frames = m.frames ∧ m₀.config = m.config ∧
      m₀.Busy (fun _ => True) m₂ := by
  have hshallow (hm₁ : m₁.frames = m.frames) : False := by
    cases hrounds.eq_of_not_deep (not_deep_of_frames hm₁)
    exact not_deep_of_frames hm₁ hdeep
  cases compared m with
  | refused equal notEqual => cases (performing_failed equal _).symm.trans h
  | builtin frames equal notEqual =>
    cases (performing_next equal _).symm.trans h
    exact (hshallow frames).elim
  | @method f a b m₀ frames config equal notEqual =>
    rw [performing_equal equal] at h
    rcases entered_or_shallow (quiet_invoke n) h with hentered | hm₁
    · rw [← frames] at hbase hrounds hdeep
      have hbusy : m₀.Busy (fun _ => True) m₁ := (started_of_ok hentered).busy Frame.invariant_true
      exact ⟨m₀, frames, config, (hrounds.inner (quiet_invoke n) hbase hbusy hdeep).1⟩
    · exact (hshallow (hm₁.trans frames)).elim

/-- The operator `!=` comes to the negation of what `==` comes to, with the same machine, and to the
same signals. A call comes to the same in the loop of its caller and in a loop of its own. And where
a signal has left the method `==`, it goes on alike: the round of the loop hands it to the calls
below as it would hand the signal of `!=`, which keeps the place that it has. -/
theorem notEqual_negates_equal (hbase : base < m.frames.length) :
    (∀ u m', ComesTo base (performing .notEqual) m (.ok u) m' ↔
      ∃ w, u = .bool (!w.truthy) ∧ ComesTo base (performing .equal) m (.ok w) m') ∧
    (∀ s m', ComesTo base (performing .notEqual) m (.error s) m' ↔
      ComesTo base (performing .equal) m (.error s) m') ∧
    (∀ callee this args r m', ComesTo base (calling callee this args) m r m' ↔
      ∃ n, invoke n callee this args m = ended r m') ∧
    ∀ n step m₁ m₂ s m₃, m.config.instructionLimit = none →
      performing .equal (invoke n) m = .ok step m₁ →
      Rounds (invoke n) base m.frames.length m₁ m₂ → m.frames.length < m₂.frames.length →
      Leaves (invoke n) m m₂ s m₃ →
      cycle (invoke n) base m₂ = (do unwind s base; return none) m₃ ∧
        ∀ position, located s position m₃ = (s, m₃) := by
  refine ⟨fun u m' => notEqual_value_iff hbase u, fun s m' => notEqual_signal_iff hbase s,
    fun callee this args r m' => comesTo_calling_iff hbase, ?_⟩
  intro n step m₁ m₂ s m₃ hlimit hequal hrounds hdeep hleaves
  obtain ⟨m₀, hframes, hconfig, hbusy⟩ := busy_of_equal hbase hequal hrounds hdeep
  rw [Leaves, ← hframes] at hleaves
  rw [← hframes] at hbase
  refine ⟨(Leaves.cycle_eq hleaves (quiet_invoke n) hbase hbusy).1, fun position => ?_⟩
  exact located_of_placed (Leaves.placed hleaves (quiet_invoke n) hbusy (hconfig ▸ hlimit)) position

/-- A method `==` that raises and answers with what it has caught. -/
def answering : Template where
  arity := .fixed 1
  body := { code := #[⟨.pushTry 3, none⟩, ⟨.pushTrue, none⟩, ⟨.throw, none⟩, ⟨.ret, none⟩] }

/-- A script at work, about to compare an object that has such a method, or that has one which only
raises. -/
def comparing (method : Template) : Machine where
  store :=
    { objects := #[⟨⟨0⟩, .ofList [("==", ⟨.function ⟨0⟩, {}⟩)]⟩]
      functions := #[⟨⟨method, ⟨0, []⟩, ⟨0⟩⟩, .empty⟩] }
  frames :=
    [{ function := ⟨1⟩, closure := ⟨raising, ⟨1, []⟩, ⟨0⟩⟩, locals := #[], supplied := 0,
       this := .void, pc := 1, stackBase := 0 }]
  stack := [.void, .object ⟨0⟩]

theorem notEqual_negates_equal_answering :
    (∃ m', ComesTo 0 (performing .equal) (comparing answering) (.ok (.bool true)) m' ∧
      ComesTo 0 (performing .notEqual) (comparing answering) (.ok (.bool false)) m') ∧
    ∃ m', ComesTo 0 (performing .notEqual) (comparing raising) (.error (.raise (.bool true))) m' ∧
      ComesTo 0 (performing .equal) (comparing raising) (.error (.raise (.bool true))) m' := by
  constructor
  · have hequal : ∃ m', ComesTo 0 (performing .equal) (comparing answering) (.ok (.bool true)) m' := by
      refine ⟨_, .value (n := 0) rfl (.step ?_ rfl (.step ?_ rfl
        (.step ?_ rfl (.step ?_ rfl (.refl _))))) rfl rfl⟩
      all_goals decide
    obtain ⟨m', hequal⟩ := hequal
    exact ⟨m', hequal, ((notEqual_negates_equal (by decide)).1 _ m').2 ⟨_, rfl, hequal⟩⟩
  · have hnotEqual : ∃ m', ComesTo 0 (performing .notEqual) (comparing raising)
        (.error (.raise (.bool true))) m' := ⟨_, .failed (n := 3) rfl⟩
    obtain ⟨m', hnotEqual⟩ := hnotEqual
    exact ⟨m', hnotEqual, ((notEqual_negates_equal (by decide)).2.1 _ m').1 hnotEqual⟩

end Exec

end ScriptMachine
