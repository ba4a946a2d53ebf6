import ScriptMachine.Proofs.Engine.Attempt
import ScriptMachine.Proofs.Engine.Deeds

namespace ScriptMachine

/-- What code does aside from attempts. -/
inductive Exec.Errand : {α : Type} → Exec α → Prop
  | fetch : Errand fetch
  | prepare (o : Opcode) : Errand (prepare o)
  | find (receiver : Value) (name : String) : Errand (find receiver name)
  | newArray (items : List Value) : Errand (newArray items)
  | writeDatum (id : HostedId) (d : Datum) :
      Errand (modify fun m => { m with store := m.store.setDatum id d })
  | push (v : Value) : Errand (push v)
  | locate (s : Signal) (position : Option Position) : Errand (locate s position)
  | finishFrame (v : Value) (base : Nat) : Errand (finishFrame v base)
  | unwind (s : Signal) (base : Nat) : Errand (unwind s base)

/-- What is done aside from attempts, by code, a built-in method or the host. -/
inductive Aside (m : Machine) : Machine → Prop
  | errand {α : Type} {x : Exec α} {m' : Machine} (hx : Exec.Errand x) (h : Completes x m m') :
      Aside m m'
  | method {b : Method} {this v : Value} {args : List Value} {store : Store}
      (h : b.apply m.store this args = .ok (v, store)) : Aside m { m with store }
  | host {h es : History} {m' : Machine} (hdeed : HostDeed h m es m') : Aside m m'

/-- From `m₀` to another machine, with the attempts on the way, first one first. -/
inductive Course (m₀ : Machine) : List Attempt → Machine → Prop
  | refl : Course m₀ [] m₀
  | aside {as : List Attempt} {m m' : Machine} :
      Course m₀ as m → Aside m m' → Course m₀ as m'
  | attempt {as : List Attempt} {a : Attempt} {m' : Machine} :
      Course m₀ as a.machine → Completes a.enter a.machine m' → Course m₀ (as ++ [a]) m'

namespace Course

variable {m₀ m m' : Machine} {as as' : List Attempt}

theorem trans (h : Course m₀ as m) (h' : Course m as' m') : Course m₀ (as ++ as') m' := by
  induction h' with
  | refl =>
    rw [List.append_nil]
    exact h
  | aside _ haside ih => exact ih.aside haside
  | attempt _ henter ih =>
    rw [← List.append_assoc]
    exact ih.attempt henter

/-- An attempt of a run is made in a state of the run, after the attempts before it. -/
theorem before {a : Attempt} {after : List Attempt} (h : Course m₀ (as ++ a :: after) m) :
    Course m₀ as a.machine := by
  generalize hall : as ++ a :: after = all at h
  induction h generalizing after with
  | refl => cases as <;> cases hall
  | aside _ _ ih => exact ih hall
  | @attempt bs last _ hcourse _ ih =>
    rcases List.eq_nil_or_concat after with rfl | ⟨rest, b, rfl⟩
    · obtain ⟨rfl, hlast⟩ := List.append_inj' hall rfl
      cases hlast
      exact hcourse
    · have hsplit : (as ++ a :: rest) ++ [b] = bs ++ [last] := by simpa using hall
      exact ih (List.append_inj' hsplit rfl).1

end Course

namespace Exec

variable {m₀ : Machine}

theorem plain_fetch : Plain m₀ fetch := by
  unfold fetch
  refine .bind plain_top fun f => ?_
  split
  · exact plain_pure _
  · refine .bind (plain_setTop _) fun _ => .bind (plain_modify fun _ => ?_) fun _ => ?_
    · exact ⟨Nat.le_refl _, rfl, rfl⟩
    · refine plain_get fun m _ => ?_
      split
      · split
        · exact plain_fail _
        · exact plain_pure _
      · exact plain_pure _

theorem plain_locate (s : Signal) (position : Option Position) : Plain m₀ (locate s position) := by
  unfold locate
  refine plain_get fun m hm => ?_
  cases s with
  | error fault => exact plain_pure _
  | raise v => exact .bind (plain_set ⟨hm.depth, hm.guarded, hm.config⟩) fun _ => plain_pure _

theorem plain_finishFrame (v : Value) (base : Nat) : Plain m₀ (finishFrame v base) := by
  unfold finishFrame
  refine plain_get fun m hm => ?_
  split
  · exact plain_pure _
  · rename_i f below hframes
    have hbelow : below.length ≤ m₀.frames.length := by
      have hdepth := hm.depth
      rw [hframes, List.length_cons] at hdepth
      exact Nat.le_of_succ_le hdepth
    refine .bind (J := fun _ => m₀.NoDeeper)
      (.modify fun _ h => ⟨hbelow, h.guarded, h.config⟩) fun _ => ?_
    dsimp only
    split
    · exact plain_pure _
    · exact .bind (plain_push _) fun _ => plain_pure _

theorem plain_exceptionOf (s : Signal) : Plain m₀ (exceptionOf s) := by
  cases s with
  | raise v => exact plain_pure v
  | error fault => exact plain_alloc (·.makeException fault.kind.name fault.message fault.line?)

theorem plain_unwind (s : Signal) (base : Nat) : Plain m₀ (unwind s base) := by
  unfold unwind
  refine plain_get fun m hm => ?_
  cases hland : land m.store base s m.raiseTrace m.stack m.frames with
  | mk landing trace =>
    cases landing with
    | escaped frames stack s' =>
      have hdepth := Nat.le_trans (suffix_of_escaped hland).length_le hm.depth
      exact .bind (plain_set ⟨hdepth, hm.guarded, hm.config⟩) fun _ => plain_signal s'
    | caught f below stack s' =>
      have hdepth : (f :: below).length ≤ m₀.frames.length := by
        obtain ⟨above, g, r, rs, hframes, -, rfl⟩ := exists_of_caught hland
        refine Nat.le_trans ?_ hm.depth
        rw [hframes, List.length_append]
        exact Nat.le_add_left _ _
      refine .bind (plain_set ⟨hdepth, hm.guarded, hm.config⟩) fun _ => ?_
      refine .bind (plain_exceptionOf s') fun v => .bind (plain_push v) fun _ => ?_
      exact plain_modify fun _ => ⟨Nat.le_refl _, rfl, rfl⟩

theorem Errand.plain {α : Type} {x : Exec α} (hx : Errand x) : Plain m₀ x := by
  cases hx with
  | fetch => exact plain_fetch
  | prepare o => exact plain_prepare o
  | find receiver name => exact plain_find receiver name
  | newArray items => exact plain_newArray items
  | writeDatum id d => exact plain_modify fun _ => ⟨Nat.le_refl _, rfl, rfl⟩
  | push v => exact plain_push v
  | locate s position => exact plain_locate s position
  | finishFrame v base => exact plain_finishFrame v base
  | unwind s base => exact plain_unwind s base

end Exec

namespace HostM

variable {α : Type} {m m' : Machine}

theorem noDeeper_alloc {f : Store → α × Store} (h : Completes (alloc f) m m') : m.NoDeeper m' := by
  rw [h.eq_of_ok rfl]
  exact ⟨Nat.le_refl _, rfl, rfl⟩

theorem noDeeper_alter {f : Store → Except Cause Store} (h : Completes (alter f) m m') :
    m.NoDeeper m' := by
  have h' : Completes (ofExcept (f m.store) >>= fun store => modify fun m => { m with store })
    m m' := h
  rcases completes_ofExcept h' with ⟨s, -, hset⟩ | rfl
  · rw [hset.eq_of_ok rfl]
    exact ⟨Nat.le_refl _, rfl, rfl⟩
  · exact .refl _

theorem noDeeper_getAttribute {access : Access} {receiver : Value} {name : String}
    (h : Completes (getAttribute access receiver name) m m') : m.NoDeeper m' := by
  have h' : Completes (ofExcept (m.store.find access receiver name) >>= fun v =>
    alloc (·.bind receiver v)) m m' := h
  rcases completes_ofExcept h' with ⟨v, -, halloc⟩ | rfl
  · exact noDeeper_alloc halloc
  · exact .refl _

theorem Chore.noDeeper {x : HostM α} (hx : Chore x) (h : Completes x m m') : m.NoDeeper m' := by
  cases hx with
  | getAttribute access receiver name => exact noDeeper_getAttribute h
  | setAttribute | defineAttribute | writeElement => exact noDeeper_alter h
  | newArray | newMap | newObject | tie | newInstance | breakReferences => exact noDeeper_alloc h
  | beforeCall =>
    rw [h.eq_of_ok rfl, Machine.beforeCall]
    split
    · exact ⟨Nat.le_refl _, rfl, rfl⟩
    · exact .refl m
  | report s =>
    cases s with
    | error fault =>
      rw [h.eq_of_failed rfl]
      exact .refl m
    | raise v =>
      rw [h.eq_of_failed rfl]
      exact ⟨Nat.le_refl _, rfl, rfl⟩
  | setGlobal | declareType | declareTrait | compose | newNative | declareNative | wrap | setGuard
  | cut =>
    rw [h.eq_of_ok rfl]
    exact ⟨Nat.le_refl _, rfl, rfl⟩

end HostM

theorem HostDeed.noDeeper {h es : History} {m m' : Machine} (hd : HostDeed h m es m') :
    m.NoDeeper m' := by
  cases hd with
  | load hx =>
    obtain ⟨-, rfl⟩ := HostM.load_eq_ok hx
    exact ⟨Nat.le_refl _, rfl, rfl⟩
  | found hx | instantiate _ _ hx | clone _ hx =>
    cases hx
    exact ⟨Nat.le_refl _, rfl, rfl⟩
  | breakReferences _ hx => exact HostM.noDeeper_alloc hx
  | chore hchore hx => exact hchore.noDeeper hx

/-- Aside from attempts no frame is entered and the guard is not asked. -/
theorem Aside.noDeeper {m m' : Machine} (h : Aside m m') : m.NoDeeper m' := by
  cases h with
  | errand hx h => exact hx.plain.of_completes (.refl m) h
  | method h => exact ⟨Nat.le_refl _, rfl, rfl⟩
  | host hdeed => exact hdeed.noDeeper

/-- The depth is within the limit, and the guard was asked about the attempts in their order. -/
structure Course.Orderly (config : Config) (as : List Attempt) (m : Machine) : Prop where
  same : m.config = config
  depth : m.frames.length ≤ config.maxDepth
  guarded : m.guarded = as.filterMap Attempt.question?

theorem Attempt.orderly {config : Config} {as : List Attempt} {a : Attempt} {m' : Machine}
    (hm : Course.Orderly config as a.machine) (h : Completes a.enter a.machine m') :
    Course.Orderly config (as ++ [a]) m' := by
  have hasked : a.asked.guarded = (as ++ [a]).filterMap question? := by
    rw [List.filterMap_append, ← hm.guarded]
    cases hquestion : a.question? <;> simp [asked, hquestion]
  cases hrefusal : a.refusal? with
  | some c =>
    rw [h.eq_of_failed (a.enter_of_refused hrefusal)]
    exact ⟨hm.same, hm.depth, hasked⟩
  | none =>
    obtain ⟨hdepth, locals, store, henter⟩ := a.enter_of_admitted hrefusal
    rw [h.eq_of_ok henter]
    rw [hm.same] at hdepth
    exact ⟨hm.same, hdepth, hasked⟩

theorem Course.orderly {config : Config} {as : List Attempt} {m : Machine}
    (h : Course (.start config) as m) : Course.Orderly config as m := by
  induction h with
  | refl => exact ⟨rfl, Nat.zero_le _, rfl⟩
  | aside _ haside ih =>
    have hno := haside.noDeeper
    exact ⟨hno.config.trans ih.same, Nat.le_trans hno.depth ih.depth, hno.guarded.trans ih.guarded⟩
  | attempt _ henter ih => exact Attempt.orderly ih henter

theorem Course.of_errand {α : Type} {x : Exec α} {m m' : Machine} (hx : Exec.Errand x)
    (h : Completes x m m') : ∃ as, Course m as m' :=
  ⟨[], .aside .refl (.errand hx h)⟩

namespace Exec

variable {m m' : Machine}

theorem course_beginCall {callee : Value} {this : Option Value} {args : List Value}
    {constructing : Option Value} (h : Completes (beginCall callee this args constructing) m m') :
    ∃ as, Course m as m' := by
  cases hattempt : m.attempt? callee this args constructing with
  | none =>
    rw [beginCall_of_no_attempt hattempt h]
    exact ⟨[], .refl⟩
  | some a =>
    obtain ⟨rfl, hbegin⟩ := beginCall_of_attempt hattempt
    have h' : Completes (a.enter >>= fun _ => pure Start.entered) a.machine m' := by
      rw [Completes, hbegin] at h
      exact h
    rcases completes_bind h' with ⟨u, m₁, henter, hpure⟩ | henter
    · rw [hpure.eq_of_ok rfl]
      exact ⟨[a], .attempt .refl (.inl ⟨u, henter⟩)⟩
    · exact ⟨[a], .attempt .refl henter⟩

theorem course_perform {p : Prepared} (h : Completes (perform p) m m') : ∃ as, Course m as m' := by
  cases p with
  | step s =>
    rw [h.eq_of_ok rfl]
    exact ⟨[], .refl⟩
  | call callee this args constructing =>
    rcases completes_bind h with ⟨start, m₁, hbegin, hpure⟩ | hbegin
    · have hm' : m' = m₁ := by cases start <;> exact hpure.eq_of_ok rfl
      rw [hm']
      exact course_beginCall (.inl ⟨start, hbegin⟩)
    · exact course_beginCall hbegin

/-- An instruction prepares a call and then makes its attempt, or makes none. -/
theorem course_execute {o : Opcode} (h : Completes (execute o) m m') : ∃ as, Course m as m' := by
  rw [execute_eq] at h
  rcases completes_bind h with ⟨p, m₁, hprepare, hperform⟩ | hprepare
  · obtain ⟨as, hcourse⟩ := course_perform hperform
    have hprepared : Course m [] m₁ := .aside .refl (.errand (.prepare o) (.inl ⟨p, hprepare⟩))
    exact ⟨as, hprepared.trans hcourse⟩
  · exact Course.of_errand (.prepare o) hprepare

theorem Chore.course {α : Type} {x : Exec α} (hx : Chore x) (h : Completes x m m') :
    ∃ as, Course m as m' := by
  cases hx with
  | beginCall => exact course_beginCall h
  | fetch => exact Course.of_errand .fetch h
  | find receiver name => exact Course.of_errand (.find receiver name) h
  | newArray items => exact Course.of_errand (.newArray items) h
  | writeDatum id d => exact Course.of_errand (.writeDatum id d) h
  | push v => exact Course.of_errand (.push v) h
  | locate s position => exact Course.of_errand (.locate s position) h
  | finishFrame v base => exact Course.of_errand (.finishFrame v base) h
  | unwind s base => exact Course.of_errand (.unwind s base) h

end Exec

theorem Deed.course {es : History} {m m' : Machine} (h : Deed m es m') : ∃ as, Course m as m' := by
  cases h with
  | instruction _ _ hx => exact Exec.course_execute (.inl ⟨_, hx⟩)
  | refusal hx => exact Exec.course_execute (.inr ⟨_, hx⟩)
  | method hx => exact ⟨[], .aside .refl (.method hx)⟩
  | chore hchore hx => exact hchore.course hx

theorem Goes.course {h h' : History} {m m' : Machine} (hgoes : Goes h m h' m') :
    ∃ as, Course m as m' := by
  induction hgoes with
  | refl => exact ⟨[], .refl⟩
  | deed _ hdeed ih =>
    obtain ⟨as, hcourse⟩ := ih
    obtain ⟨as', hcourse'⟩ := hdeed.course
    exact ⟨as ++ as', hcourse.trans hcourse'⟩
  | host _ hdeed ih =>
    obtain ⟨as, hcourse⟩ := ih
    exact ⟨as, hcourse.aside (.host hdeed)⟩

theorem Course.onward {config : Config} {as : List Attempt} {m m' : Machine}
    (hm : Course (.start config) as m) (h : Reached [] m m') :
    ∃ as', Course (.start config) (as ++ as') m' := by
  obtain ⟨_, hgoes⟩ := h
  obtain ⟨as', hcourse⟩ := hgoes.course
  exact ⟨as', hm.trans hcourse⟩

theorem Exec.cycle_of_refused {n base : Nat} {i : Instruction} {m m₁ : Machine} {a : Attempt}
    {c : Cause} (hfetch : fetch m = .ok (some i) m₁) (ha : i.opcode.attempt? m₁ = some a)
    (hc : a.refusal? = some c) :
    (∃ f rest, m.frames = f :: rest ∧ a.asked.frames = { f with pc := f.pc + 1 } :: rest) ∧
    a.asked.executed = m.executed + 1 ∧
    cycle (invoke (n + 1)) base m = (do
      unwind (located (.ofCause c) i.position a.asked).1 base
      return none : Exec (Option Value)) a.asked := by
  have hspared : m₁.Spared a.asked := spared_of_refused ha hc
  have hcycle : cycle (invoke (n + 1)) base m = _ :=
    cycle_of_failed hfetch (execute_of_refused ha hc)
  obtain ⟨f, rest, hframes, -, rfl⟩ := frames_of_fetch hfetch
  refine ⟨⟨f, rest, hframes, hspared.frames_eq⟩, ?_, hcycle⟩
  rw [hspared.same]
  rfl

/-- At any point of a run, with the attempts made so far: the active frames are within the limit,
and the guard was asked once about each attempt within the limit, in their order. Each attempt was
made in a state of the run. One that is refused has only asked the guard, and any other enters its
function at the start. The error goes to the frame of the instruction, or to the host or native
function that made the call. All calls of the host, and the states inside them, are part of it. -/
theorem call_depth_and_guard {config : Config} {as : List Attempt} {m : Machine}
    (hm : Course (.start config) as m) :
    m.frames.length ≤ config.maxDepth ∧
    m.guarded = as.filterMap Attempt.question? ∧
    (∀ earlier a later, as = earlier ++ a :: later →
      Course (.start config) earlier a.machine ∧
      (∀ c, a.refusal? = some c → a.enter a.machine = .error (.failed (.ofCause c)) a.asked) ∧
      (a.refusal? = none → ∃ locals store, a.enter a.machine = .ok () { a.asked with
        store := store
        frames := a.frame locals a.machine.stack.length :: a.machine.frames })) ∧
    (∀ n base i m₁ a c, Exec.fetch m = .ok (some i) m₁ → i.opcode.attempt? m₁ = some a →
      a.refusal? = some c →
      (∃ f rest, m.frames = f :: rest ∧ a.asked.frames = { f with pc := f.pc + 1 } :: rest) ∧
      a.asked.executed = m.executed + 1 ∧
      Exec.cycle (Exec.invoke (n + 1)) base m = (do
        Exec.unwind (Exec.located (.ofCause c) i.position a.asked).1 base
        return none : Exec (Option Value)) a.asked) ∧
    (∀ n callee this args a c, m.attempt? callee this args none = some a → a.refusal? = some c →
      Exec.invoke (n + 1) callee this args m =
        .error (.failed (.ofCause c)) { m with guarded := m.guarded ++ a.question?.toList }) ∧
    (∀ fuel callee this args m', Completes (HostM.callWith fuel callee this args) m m' →
      ∃ as', Course (.start config) (as ++ as') m') ∧
    (∀ fuel receiver name args m', Completes (HostM.callMethod fuel receiver name args) m m' →
      ∃ as', Course (.start config) (as ++ as') m') ∧
    (∀ fuel f m', Completes (HostM.execute fuel f) m m' →
      ∃ as', Course (.start config) (as ++ as') m') ∧
    ∀ fuel callee this args w, Reaches ⟨fuel, .call callee this args, m.beforeCall⟩ w →
      ∃ as', Course (.start config) (as ++ as') w.machine := by
  have horderly := hm.orderly
  have hreached : Reached [] m m := .refl [] m
  refine ⟨horderly.depth, horderly.guarded, ?_,
    fun _ _ _ _ _ _ hfetch ha hc => Exec.cycle_of_refused hfetch ha hc, ?_,
    fun _ _ _ _ _ hcall => hm.onward (HostM.reached_callWith hreached hcall),
    fun _ _ _ _ _ hcall => hm.onward (HostM.reached_callMethod hreached hcall),
    fun _ _ _ hcall => hm.onward (HostM.reached_execute hreached hcall),
    fun _ _ _ _ _ hw => hm.onward (hw.reached (HostM.reached_beforeCall hreached))⟩
  · intro earlier a later has
    rw [has] at hm
    exact ⟨hm.before, fun c hc => a.enter_of_refused hc, fun hnone => (a.enter_of_admitted hnone).2⟩
  · intro n callee this args a c ha hc
    rw [Exec.invoke_of_refused ha hc n]
    obtain ⟨rfl, -⟩ := Exec.beginCall_of_attempt ha
    rfl

/-- A fragment that calls a function without the argument it needs, catches the error, and then
calls another function, which calls a third. -/
def descent : Fragment where
  source := "descent"
  main :=
    { name := some "main"
      body :=
        { code := #[⟨.pushTry 3, none⟩, ⟨.createClosure 0, none⟩, ⟨.call 0, none⟩,
            ⟨.createClosure 1, none⟩, ⟨.call 0, none⟩]
          nested :=
            [{ name := some "needy", arity := .fixed 1, body := {} },
             { name := some "inner",
               body :=
                { code := #[⟨.createClosure 0, none⟩, ⟨.call 0, none⟩]
                  nested := [{ name := some "innermost", body := {} }] } }] } }

/-- The depth is limited to two, and the guard lets every call pass. -/
def watched : Machine :=
  { Machine.start { maxDepth := 2, verifyFragments := false } with
    guard := some ⟨fun _ _ _ => none⟩ }

/-- The guard is asked about the function that lacks an argument, but not about the one that is too
deep. -/
theorem call_depth_and_guard_descent :
    ∃ as, Course (.start { maxDepth := 2, verifyFragments := false }) as
        (stoppedAt (HostM.execute 9 descent watched)) ∧
      as.filterMap Attempt.question? = [(1, "main"), (2, "needy"), (2, "inner")] := by
  have hwatched : Course (.start { maxDepth := 2, verifyFragments := false }) [] watched :=
    .aside .refl (.host (h := []) (.chore (.setGuard _) (.inl ⟨(), rfl⟩)))
  have hfailure : (failure? (HostM.execute 9 descent watched)).isSome = true := by decide +kernel
  have hasked : (stoppedAt (HostM.execute 9 descent watched)).guarded =
      [(1, "main"), (2, "needy"), (2, "inner")] := by decide +kernel
  obtain ⟨failure, hexecute⟩ := exists_of_failure hfailure
  obtain ⟨-, -, -, -, -, -, -, honward, -⟩ := call_depth_and_guard hwatched
  obtain ⟨as, hcourse⟩ := honward 9 descent _ (.inr ⟨failure, hexecute⟩)
  have hguarded := (call_depth_and_guard hcourse).2.1
  exact ⟨_, hcourse, hguarded.symm.trans hasked⟩

end ScriptMachine
