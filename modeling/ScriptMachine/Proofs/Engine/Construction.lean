import ScriptMachine.Proofs.Engine.Inequality
import ScriptMachine.Proofs.Engine.Lasting
import ScriptMachine.Proofs.Engine.PrivateAccess

namespace ScriptMachine

/-- The machine with a type and arguments on its operands. -/
def Machine.instantiating (m : Machine) (t : TypeId) (args : List Value) : Machine :=
  { m with stack := args.reverse ++ .type t :: m.stack }

/-- The object that an instantiation makes next. -/
def Machine.nextObject (m : Machine) : Value :=
  .object ⟨m.store.objects.size⟩

/-- The machine with a new instance of a type, before its constructor is called. -/
def Machine.making (m : Machine) (t : TypeId) : Machine :=
  { m with store := (m.store.instantiate t).2 }

theorem Store.resolve_of_find {s : Store} {access : Access} {v w : Value} {name : String}
    (h : s.find access v name = .ok w) : ∃ r, s.resolve v name = some r := by
  unfold Store.find at h
  split at h
  · cases h
  · rename_i r hr
    exact ⟨r, hr⟩

namespace Exec

variable {m m' : Machine} {f : Frame} {below : List Frame} {t : TypeId} {args : List Value}
  {base k : Nat} {obj c : Value}

theorem performing_instantiate (args : List Value) (hm : m.frames = f :: below)
    (hfloor : f.stackBase ≤ m.stack.length) (harray : t ≠ Builtin.array.id)
    (hmap : t ≠ Builtin.map.id) (hsealed : Builtin.isSealed t = false) (call : Callback) :
    performing (.instantiate args.length) call (m.instantiating t args) =
      (Effect.constructOn m.nextObject args >>= complete call) (m.making t) := by
  have hmade : execute (.instantiate args.length) (m.instantiating t args) =
      Effect.constructOn m.nextObject args (m.making t) := by
    refine (operands_bind args (.type t) _ hm hfloor).trans ?_
    change Effect.construct t args m = _
    have hopen : ¬ Builtin.isSealed t = true := by
      rw [hsealed]
      exact Bool.false_ne_true
    have hnext : m.nextObject = .object (m.store.instantiate t).1 := by
      rw [Store.instantiate_fst]
      rfl
    rw [Effect.construct, if_neg harray, if_neg hmap, if_neg hopen, hnext]
    rfl
  exact bind_congr_apply _ hmade

theorem constructOn_of_none (h : m.store.resolve obj "_constructor" = none) :
    Effect.constructOn obj args m = .ok .next { m with stack := obj :: m.stack } := by
  rw [Effect.constructOn, get_bind_apply]
  rw [h]
  rfl

theorem constructOn_of_find (h : m.store.find (.within obj) obj "_constructor" = .ok c) :
    Effect.constructOn obj args m = callAndGoOn c (some obj) args (some obj) m := by
  obtain ⟨r, hr⟩ := Store.resolve_of_find h
  rw [Effect.constructOn, get_bind_apply]
  rw [hr, h]
  rfl

theorem constructOn_of_refused {e : Cause} {r : Resolved}
    (hr : m.store.resolve obj "_constructor" = some r)
    (h : m.store.find (.within obj) obj "_constructor" = .error e) :
    Effect.constructOn obj args m = .error (.failed (.ofCause e)) m := by
  rw [Effect.constructOn, get_bind_apply]
  rw [hr, h]
  rfl

/-- A native function starts with the arguments and the object that were given. -/
def GivenTo (m : Machine) (args : List Value) (constructing : Option Value) :
    Start → Machine → Prop
  | .native _ _ given marked, m' => given = args ∧ marked = constructing ∧ m' = m
  | .entered, _ => True

theorem given_beginCall (callee : Value) (this constructing : Option Value) :
    Triple (fun m' => m' = m) (beginCall callee this args constructing)
      (GivenTo m args constructing) fun _ _ => True := by
  have plain (c : Callable) (v : Value) : Triple (fun m' => m' = m)
      (beginPlain c v args constructing) (GivenTo m args constructing) fun _ _ => True := by
    cases c with
    | function id => exact .bind (triple_true _ _) fun _ => .pure fun _ _ => trivial
    | native id =>
      refine .get_bind fun m' _ => ?_
      dsimp only
      split
      · exact .fail fun _ _ => trivial
      · exact .pure fun _ h => ⟨rfl, rfl, h.2⟩
  refine .get_bind fun m' _ => .bind (J := fun _ m' => m' = m) ?_ fun p => plain p.1 p.2
  exact .ofExcept (fun _ _ _ h => h.2) fun _ _ _ _ => trivial

/-- A constructor is called for the object `obj`. -/
abbrev constructing (c obj : Value) (args : List Value) (call : Callback) : Exec Step :=
  callAndGoOn c (some obj) args (some obj) >>= complete call

theorem constructing_of_entered (h : beginCall c (some obj) args (some obj) m = .ok .entered m')
    (call : Callback) : constructing c obj args call m = .ok .next m' := by
  have hstart : callAndGoOn c (some obj) args (some obj) m = .ok .next m' := bind_of_ok h
  exact bind_of_ok hstart

theorem constructing_of_native {body : NativeBody} {self : Value}
    (h : beginCall c (some obj) args (some obj) m = .ok (.native body self args (some obj)) m)
    (call : Callback) : constructing c obj args call m =
      (runNative call body self args (some obj) >>= fun v => andNext (push v)) m := by
  have hstart : callAndGoOn c (some obj) args (some obj) m =
      .ok (.native body self args (some obj)) m := bind_of_ok h
  exact bind_of_ok hstart

theorem constructOn_bind (h : m.store.find (.within obj) obj "_constructor" = .ok c)
    (call : Callback) :
    (Effect.constructOn obj args >>= complete call) m = constructing c obj args call m :=
  bind_congr_apply _ (constructOn_of_find h)

/-- What a constructor does that was started. -/
inductive Constructor (m : Machine) (c obj : Value) (args : List Value) : Prop
  | script {m' : Machine} (h : beginCall c (some obj) args (some obj) m = .ok .entered m')
  | native {body : NativeBody} {self : Value}
      (h : beginCall c (some obj) args (some obj) m = .ok (.native body self args (some obj)) m)

theorem constructor_of_ok {call : Callback} {step : Step}
    (h : constructing c obj args call m = .ok step m') : Constructor m c obj args := by
  cases hbegin : beginCall c (some obj) args (some obj) m with
  | error stop m₁ =>
    have hstart : callAndGoOn c (some obj) args (some obj) m = .error stop m₁ :=
      bind_of_error hbegin
    cases (bind_of_error hstart).symm.trans h
  | ok start m₁ =>
    cases start with
    | entered => exact .script hbegin
    | native body self given marked =>
      obtain ⟨rfl, rfl, rfl⟩ := (given_beginCall _ _ _).of_ok rfl hbegin
      exact .native hbegin

theorem comesTo_constructing_entered {w : Value} {m₁ : Machine} (hbase : base < m.frames.length)
    (hbegin : beginCall c (some obj) args (some obj) m = .ok .entered m₁)
    (h : ComesTo base (constructing c obj args) m (.ok w) m') : w = obj ∧ m.Quiet m' := by
  have hbusy : m.Busy (fun _ => True) m₁ := (started_of_ok hbegin).busy Frame.invariant_true
  cases h with
  | @value n _ _ m₂ _ _ start rounds frames stack =>
    cases (constructing_of_entered hbegin _).symm.trans start
    obtain ⟨k, hk⟩ := rounds.loop_eq_ok (quiet_invoke n) hbase hbusy frames stack
    obtain ⟨f, hf, hobj⟩ := frame_of_entered hbegin
    have hlasts : Lasts 0 f m.frames m m₁ :=
      ⟨hbusy, Nat.zero_le _, [], f, hf, .refl f, nofun⟩
    obtain ⟨v, hv⟩ := constructing_of_loop hlasts hk
    rw [hobj] at hv
    exact ⟨hv, (quiet_loop (quiet_invoke n) k).of_ok hbusy hk⟩

theorem comesTo_constructing_native {body : NativeBody} {self w : Value}
    (hbegin : beginCall c (some obj) args (some obj) m =
      .ok (.native body self args (some obj)) m)
    (h : ComesTo base (constructing c obj args) m (.ok w) m') :
    (∃ n v, runBody (invoke n) body self args m = .ok v m' ∧ w = if v.isVoid then obj else v) ∧
      m.Quiet m' := by
  have hframes (n : Nat) (v : Value) (m₂ : Machine)
      (hrun : runNative (invoke n) body self args (some obj) m = .ok v m₂) : m.Quiet m₂ :=
    (quiet_runNative (quiet_invoke n) body self args (some obj)).of_ok (.refl m) hrun
  rw [comesTo_ok_iff_of_answered (g := id) (constructing_of_native hbegin)
    fun n v m₂ hrun => (hframes n v m₂ hrun).frames] at h
  obtain ⟨n, v, hw, hrun⟩ := h
  cases hw
  refine ⟨?_, hframes n v m' hrun⟩
  cases hbody : runBody (invoke n) body self args m with
  | error stop m₁ => cases (bind_of_error hbody).symm.trans hrun
  | ok v' m₁ =>
    cases (bind_of_ok hbody).symm.trans hrun
    exact ⟨n, v', hbody, rfl⟩

/-- The constructor was a script function that has the object for its result, or a native function
that was asked for one. -/
theorem constructed {w : Value} (hbase : base < m.frames.length)
    (h : ComesTo base (constructing c obj args) m (.ok w) m') :
    m.Quiet m' ∧ ((∃ m₁, beginCall c (some obj) args (some obj) m = .ok .entered m₁ ∧ w = obj) ∨
      ∃ body self n v,
        beginCall c (some obj) args (some obj) m = .ok (.native body self args (some obj)) m ∧
          runBody (invoke n) body self args m = .ok v m' ∧ w = if v.isVoid then obj else v) := by
  have hconstructor : Constructor m c obj args := by
    cases h with
    | value start => exact constructor_of_ok start
  cases hconstructor with
  | script hbegin =>
    obtain ⟨hw, hquiet⟩ := comesTo_constructing_entered hbase hbegin h
    exact ⟨hquiet, .inl ⟨_, hbegin, hw⟩⟩
  | native hbegin =>
    obtain ⟨⟨n, v, hrun, hw⟩, hquiet⟩ := comesTo_constructing_native hbegin h
    exact ⟨hquiet, .inr ⟨_, _, n, v, hbegin, hrun, hw⟩⟩

theorem size_making (m : Machine) (t : TypeId) :
    m.store.objects.size < (m.making t).store.objects.size ∧
      ((m.making t).store.object ⟨m.store.objects.size⟩).type = t := by
  have h := m.store.object_instantiate t
  rw [Store.instantiate_fst] at h
  exact h

theorem constructor_keeps {n : Nat} {m₁ : Machine} {w : Work} (hobj : obj = .object ⟨k⟩)
    (hk : k < m.store.objects.size)
    (hbegin : beginCall c (some obj) args (some obj) m = .ok .entered m₁)
    (hf : m₁.frames = f :: m.frames)
    (h : Reaches ⟨n, .loop m.frames.length, m₁⟩ w) :
    ∃ us g, w.machine.frames = us ++ g :: m.frames ∧ f.Continues g ∧
      ∀ u ∈ us, u.constructing ≠ some obj := by
  have hbusy : m.Busy (fun _ => True) m₁ := (started_of_ok hbegin).busy Frame.invariant_true
  have hobjects : k + 1 ≤ m₁.store.objects.size :=
    (objects_of_tracks (tracks_beginCall c (some obj) (some obj))).of_ok hk hbegin
  obtain ⟨us, g, hframes, hg, hus⟩ := h.within_of_entered hbusy hf hobjects
  refine ⟨us, g, hframes, hg, fun u hu hmark => ?_⟩
  obtain ⟨id, hid, hle⟩ := hus u hu obj hmark
  rw [hobj] at hid
  cases hid
  exact absurd hle (Nat.not_succ_le_self k)

/-- An instantiation that completes has left one value. Without a constructor it is the new object,
and no frame is entered. After a script constructor it is the new object too: the frame of the
constructor keeps the object, whatever happens above it, and no call that it makes has it. After a
native constructor it is the new object or what the constructor has returned in its place. -/
theorem instantiate_leaves_instance (args : List Value) (hm : m.frames = f :: below)
    (hfloor : f.stackBase ≤ m.stack.length) (hbase : base ≤ below.length)
    (harray : t ≠ Builtin.array.id) (hmap : t ≠ Builtin.map.id)
    (hsealed : Builtin.isSealed t = false) :
    (m.store.objects.size < (m.making t).store.objects.size ∧
      ((m.making t).store.object ⟨m.store.objects.size⟩).type = t) ∧
    (∀ w m', ComesTo base (performing (.instantiate args.length)) (m.instantiating t args)
        (.ok w) m' →
      m'.frames = m.frames ∧ m'.stack = m.stack) ∧
    ((m.making t).store.resolve m.nextObject "_constructor" = none →
      ∀ call, performing (.instantiate args.length) call (m.instantiating t args) =
        .ok .next { m.making t with stack := m.nextObject :: m.stack }) ∧
    ∀ c, (m.making t).store.find (.within m.nextObject) m.nextObject "_constructor" = .ok c →
      ((Machine.entry? (m.making t) c (some m.nextObject)).isSome →
        (∀ w m', ComesTo base (performing (.instantiate args.length)) (m.instantiating t args)
          (.ok w) m' → w = m.nextObject) ∧
        ∀ n step m₁, performing (.instantiate args.length) (invoke n) (m.instantiating t args) =
            .ok step m₁ →
          ∃ g, m₁.frames = g :: m.frames ∧ g.constructing = some m.nextObject ∧
            (∀ w, Reaches ⟨n, .loop m.frames.length, m₁⟩ w →
              ∃ us g', w.machine.frames = us ++ g' :: m.frames ∧ g.Continues g' ∧
                ∀ u ∈ us, u.constructing ≠ some m.nextObject) ∧
            ∀ m₂, Rounds (invoke n) base m.frames.length m₁ m₂ →
              m.frames.length < m₂.frames.length →
              Reaches ⟨n, .loop m.frames.length, m₁⟩ ⟨n, .loop m.frames.length, m₂⟩) ∧
      (Machine.entry? (m.making t) c (some m.nextObject) = none →
        ∀ w m', ComesTo base (performing (.instantiate args.length)) (m.instantiating t args)
            (.ok w) m' →
          ∃ body self n v, beginCall c (some m.nextObject) args (some m.nextObject) (m.making t) =
              .ok (.native body self args (some m.nextObject)) (m.making t) ∧
            runBody (invoke n) body self args (m.making t) = .ok v m' ∧
            w = if v.isVoid then m.nextObject else v) := by
  have hstart := performing_instantiate args hm hfloor harray hmap hsealed
  have hdepth : base < (m.making t).frames.length := by
    rw [Machine.making, hm, List.length_cons]
    omega
  have hfound {c : Value}
      (hc : (m.making t).store.find (.within m.nextObject) m.nextObject "_constructor" = .ok c)
      (call : Callback) : performing (.instantiate args.length) call (m.instantiating t args) =
        constructing c m.nextObject args call (m.making t) :=
    (hstart call).trans (constructOn_bind hc call)
  have hcomes {c w : Value} {m' : Machine}
      (hc : (m.making t).store.find (.within m.nextObject) m.nextObject "_constructor" = .ok c)
      (h : ComesTo base (performing (.instantiate args.length)) (m.instantiating t args)
        (.ok w) m') :
      ComesTo base (constructing c m.nextObject args) (m.making t) (.ok w) m' :=
    h.congr rfl (hfound hc)
  have hnone (h : (m.making t).store.resolve m.nextObject "_constructor" = none) (call : Callback) :
      performing (.instantiate args.length) call (m.instantiating t args) =
        .ok .next { m.making t with stack := m.nextObject :: m.stack } := by
    rw [hstart, bind_of_ok (constructOn_of_none h)]
    rfl
  refine ⟨size_making m t, fun w m' h => ?_, hnone, fun c hc => ⟨fun hentry => ⟨?_, ?_⟩, ?_⟩⟩
  · cases hresolve : (m.making t).store.resolve m.nextObject "_constructor" with
    | none =>
      have hframes : (m.making t).frames = (m.instantiating t args).frames := rfl
      have hpushed := (comesTo_iff_of_pushed hframes (hnone hresolve)).1 h
      rw [hpushed.2]
      exact ⟨rfl, rfl⟩
    | some r =>
      cases hfind : (m.making t).store.find (.within m.nextObject) m.nextObject "_constructor" with
      | error e =>
        have hfailed (call : Callback) : performing (.instantiate args.length) call
            (m.instantiating t args) = .error (.failed (.ofCause e)) (m.making t) := by
          rw [hstart, bind_of_error (constructOn_of_refused hresolve hfind)]
        cases ((comesTo_iff_of_failed hfailed).1 h).1
      | ok c =>
        have hquiet := (constructed hdepth (hcomes hfind h)).1
        exact ⟨hquiet.frames, hquiet.stack⟩
  · intro w m' h
    rcases (constructed hdepth (hcomes hc h)).2 with ⟨m₁, -, hw⟩ | ⟨body, self, n, v, hbegin, -⟩
    · exact hw
    · cases (entered_iff hbegin).2 hentry
  · intro n step m₁ h
    rw [hfound hc] at h
    cases constructor_of_ok h with
    | native hbegin => cases (entered_iff hbegin).2 hentry
    | @script m₂ hbegin =>
      cases (constructing_of_entered hbegin _).symm.trans h
      obtain ⟨g, hg, hobj⟩ := frame_of_entered hbegin
      refine ⟨g, hg, hobj, fun w hreach => ?_, fun m₂ hrounds hdeep => ?_⟩
      · exact constructor_keeps (m := m.making t) rfl (size_making m t).1 hbegin hg hreach
      · have hbusy := (started_of_ok hbegin).busy Frame.invariant_true
        have hinner : Rounds (invoke n) base (m.making t).frames.length m₁ m₂ := hrounds
        exact hinner.reaches (Nat.le_of_lt hdepth) hbusy hdeep
  · intro hentry w m' h
    rcases (constructed hdepth (hcomes hc h)).2 with ⟨m₁, hbegin, -⟩ | hnative
    · have hsome := (entered_iff hbegin).1 rfl
      rw [hentry] at hsome
      cases hsome
    · exact hnative

/-- A script at work, in a machine where the constructor of all objects raises and returns what it
has caught. -/
def building : Machine where
  store :=
    { types := #[⟨"Object", none, .ofList [("_constructor", ⟨.function ⟨0⟩, {}⟩)], []⟩]
      functions := #[⟨⟨answering, ⟨0, []⟩, ⟨0⟩⟩, .empty⟩] }
  frames :=
    [{ function := ⟨1⟩, closure := ⟨raising, ⟨1, []⟩, ⟨0⟩⟩, locals := #[], supplied := 0,
       this := .void, pc := 1, stackBase := 0 }]

/-- That machine with one object. -/
def built : Machine :=
  { building with store := { building.store with objects := #[⟨Builtin.object.id, .empty⟩] } }

theorem instantiate_leaves_instance_building :
    (∃ w m', ComesTo 0 (performing (.instantiate 1))
      (building.instantiating Builtin.object.id [.void]) (.ok w) m') ∧
    ∀ w m', ComesTo 0 (performing (.instantiate 1))
      (building.instantiating Builtin.object.id [.void]) (.ok w) m' →
        w = .object ⟨0⟩ ∧ m'.frames = building.frames ∧ m'.stack = [] := by
  have hmade : building.making Builtin.object.id = built := by
    -- the bases of a type are found by recursion on its number
    have hchain : building.store.chain Builtin.object.id = [Builtin.object.id] := by decide +kernel
    rw [Machine.making, Store.instantiate, Store.instanceDeclarations, hchain]
    rfl
  have hfind : built.store.find (.within (.object ⟨0⟩)) (.object ⟨0⟩) "_constructor" =
      .ok (.function ⟨0⟩) := by
    have hchain : built.store.chain Builtin.object.id = [Builtin.object.id] := by decide +kernel
    have htype : built.store.typeOf (.object ⟨0⟩) = Builtin.object.id := rfl
    rw [Store.find, Store.resolve, Store.lookup, htype, hchain]
    rfl
  have hbase : 0 ≤ ([] : List Frame).length := Nat.le_refl 0
  have hprotocol := instantiate_leaves_instance (m := building) (t := Builtin.object.id) [.void] rfl
    (Nat.le_refl 0) hbase (by decide) (by decide) (by decide)
  rw [hmade] at hprotocol
  obtain ⟨-, hleft, -, hfound⟩ := hprotocol
  refine ⟨?_, fun w m' h => ⟨((hfound _ hfind).1 rfl).1 w m' h, hleft w m' h⟩⟩
  have hcomes : ∃ w m', ComesTo 0 (constructing (.function ⟨0⟩) (.object ⟨0⟩) [.void]) built
      (.ok w) m' := by
    refine ⟨_, _, .value (n := 0) rfl (.step ?_ rfl (.step ?_ rfl
      (.step ?_ rfl (.step ?_ rfl (.refl _))))) rfl rfl⟩
    all_goals decide
  obtain ⟨w, m', hcomes⟩ := hcomes
  refine ⟨w, m', hcomes.congr rfl fun call => ?_⟩
  have hstart := performing_instantiate (m := building) (t := Builtin.object.id) [.void] rfl
    (Nat.le_refl 0) (by decide) (by decide) (by decide) call
  rw [hmade] at hstart
  exact ((hstart.trans (constructOn_bind hfind call))).symm

end Exec

end ScriptMachine
