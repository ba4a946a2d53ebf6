import ScriptMachine.Proofs.Engine.RaiseRecord

namespace ScriptMachine

open List (Forall₂)

/-- The state raises `v`, with the machine as in `m'`: a program ends with it, or an instruction. -/
inductive Raises : Work → Value → Machine → Prop
  | program {n : Nat} {v : Value} {m : Machine} :
      Raises ⟨n, .program (.finish (.error (.raise v))), m⟩ v m
  | instruction {n base : Nat} {v : Value} {m m₁ m₂ : Machine} {i : Instruction}
      (hfetch : Exec.fetch m = .ok (some i) m₁)
      (hexec : Exec.execute i.opcode m₁ = .error (.failed (.raise v)) m₂) :
      Raises ⟨n, .loop base, m⟩ v m₂

/-- The raise of `v` arose in a state passed through from `w`, with nothing on record. By `m'` it has
recorded the calls that it has left since. -/
def Traced (w : Work) (v : Value) (m' : Machine) : Prop :=
  ∃ w' m₁, Reaches w w' ∧ Raises w' v m₁ ∧ m₁.Clean ∧ m₁.Suspended ∧
    Escaping m₁.frames m₁.store (.inr v) (.raise v) m'

theorem Leads.traced {w w' : Work} {v : Value} {m' : Machine} (h : Leads w w')
    (h' : Traced w' v m') : Traced w v m' := by
  obtain ⟨w'', m₁, hreach, hraises⟩ := h'
  exact ⟨w'', m₁, .head h hreach, hraises⟩

theorem Traced.withStore {w : Work} {v : Value} {m' : Machine} {store : Store} (h : Traced w v m')
    (hstore : m'.store.Untouched store) : Traced w v { m' with store } := by
  obtain ⟨w', m₁, hreach, hraises, hclean, hsuspended, hescaping⟩ := h
  exact ⟨w', m₁, hreach, hraises, hclean, hsuspended, hescaping.withStore hstore⟩

theorem Machine.Clean.escaping {m : Machine} (h : m.Clean) (v : Value) :
    Escaping m.frames m.store (.inr v) (.raise v) m :=
  ⟨rfl, ⟨[], rfl, Prod.ext h.1 h.2⟩, rfl⟩

theorem Signal.eq_raise_of_essence {s : Signal} {v : Value}
    (h : (Signal.raise v).essence = s.essence) : s = .raise v := by
  cases s with
  | error fault => cases h
  | raise v' =>
    cases h
    rfl

/-- Raises that leave calls of this budget are traced. -/
def CallsTraced (n : Nat) : Prop :=
  ∀ {callee this args} {m m' : Machine} {v : Value}, Work.Settled ⟨n, .call callee this args, m⟩ →
    Exec.invoke n callee this args m = .error (.failed (.raise v)) m' →
    Traced ⟨n, .call callee this args, m⟩ v m'

section Origins

variable {n : Nat} {m m' : Machine} {v : Value}

theorem HostProgram.traced_answered {p : HostProgram} {x : Exec Value}
    {next : Outcome → HostProgram} (hm : m.Orderly) (hx : Exec.Tidies x)
    (hraise : ∀ v, (next (.error (.raise v))).PassesOn (.raise v))
    (hfailed : ∀ {v m'}, x m = .error (.failed (.raise v)) m' → Traced ⟨n, .program p, m⟩ v m')
    (hnext : ∀ {outcome m₁}, (∀ v, outcome ≠ .error (.raise v)) → m₁.Orderly →
      Exec.attempt x m = .ok outcome m₁ →
      (next outcome).run (Exec.invoke n) m₁ = .error (.failed (.raise v)) m' →
      Traced ⟨n, .program p, m⟩ v m')
    (h : (Exec.attempt x >>= fun outcome => (next outcome).run (Exec.invoke n)) m =
      .error (.failed (.raise v)) m') : Traced ⟨n, .program p, m⟩ v m' := by
  rcases Exec.bind_eq_failed h with hfail | ⟨outcome, m₁, hok, hrest⟩
  · exact absurd hfail Exec.attempt_ne_failed
  by_cases hraised : ∃ v', outcome = .error (.raise v')
  · obtain ⟨v', rfl⟩ := hraised
    obtain ⟨store, hstore, hrun⟩ := (hraise v').run m₁
    cases (hrun _).symm.trans hrest
    rcases Exec.attempt_eq_ok hok with ⟨_, heq, -⟩ | ⟨s, heq, hfail⟩
    · cases heq
    · cases heq
      exact (hfailed hfail).withStore hstore
  · have hne := not_exists.1 hraised
    exact hnext hne (Exec.orderly_of_answered hx hm hne hok) hok hrest

theorem HostProgram.traced {p : HostProgram} (hcall : CallsTraced n)
    (hw : Work.Settled ⟨n, .program p, m⟩) (hclean : m.Clean) (hp : p.Relays)
    (h : p.run (Exec.invoke n) m = .error (.failed (.raise v)) m') :
    Traced ⟨n, .program p, m⟩ v m' := by
  induction p generalizing m with
  | finish outcome =>
    cases outcome with
    | ok v => cases h
    | error s =>
      cases h
      exact ⟨_, _, .refl, .program, hclean, hw.suspended, hclean.escaping v⟩
  | call callee this args next ih =>
    refine traced_answered ⟨hclean, hw.relaying⟩ (Exec.tidy_invoke n callee this args) hp.1
      (fun hfail => ?_) (fun hne hm₁ hok hrest => ?_) h
    · exact Leads.calls.traced (hcall (Leads.calls.settled hw) hfail)
    · have hstep : Leads ⟨n, .program (.call callee this args next), m⟩ _ := .resumes hok
      exact hstep.traced (ih _ (hstep.settled hw) hm₁.clean (hp.2 _ hne) hrest)
  | callMethod receiver name args next ih =>
    refine traced_answered ⟨hclean, hw.relaying⟩ (.bind (Exec.tidies_find receiver name) fun method =>
      Exec.tidy_invoke n method (some receiver) args) hp.1 (fun hfail => ?_)
      (fun hne hm₁ hok hrest => ?_) h
    · rcases Exec.bind_eq_failed hfail with hfind | ⟨method, m₁, hfind, hrest⟩
      · exact ((Exec.silent_find receiver name (F := True)).of_failed (.refl m) hfind).2.elim
      · have hstep : Leads ⟨n, .program (.callMethod receiver name args next), m⟩ _ :=
          .callsMethod hfind
        exact hstep.traced (hcall (hstep.settled hw) hrest)
    · have hstep : Leads ⟨n, .program (.callMethod receiver name args next), m⟩ _ :=
        .resumesMethod hok
      exact hstep.traced (ih _ (hstep.settled hw) hm₁.clean (hp.2 _ hne) hrest)
  | newArray items next ih =>
    rcases Exec.bind_eq_failed h with hfail | ⟨a, m₁, hok, hrest⟩
    · cases hfail
    · have hstep : Leads ⟨n, .program (.newArray items next), m⟩ _ := .newArray hok
      have hm₁ := (Exec.tidies_newArray items).of_ok ⟨hclean, hw.relaying⟩ hok
      exact hstep.traced (ih a (hstep.settled hw) hm₁.clean (hp a) hrest)
  | typeName a next ih =>
    exact Leads.typeName.traced (ih _ (Leads.typeName.settled hw) hclean (hp _) h)
  | readDatum id next ih =>
    exact Leads.readDatum.traced (ih _ (Leads.readDatum.settled hw) hclean (hp _) h)
  | writeDatum id d next ih =>
    exact Leads.writeDatum.traced (ih (Leads.writeDatum.settled hw) hclean hp h)

/-- A raise that ends a round comes from its instruction, or from what that leaves to be done. -/
theorem Exec.cycle_eq_raise {call : Callback} {base : Nat} {m₀ : Machine}
    (hbusy : m₀.Busy (fun _ => True) m)
    (h : cycle call base m = .error (.failed (.raise v)) m') :
    ∃ i m₁ m₂, fetch m = .ok (some i) m₁ ∧
      (execute i.opcode m₁ = .error (.failed (.raise v)) m₂ ∨ ∃ step m₃,
        execute i.opcode m₁ = .ok step m₃ ∧
          complete call step m₃ = .error (.failed (.raise v)) m₂) := by
  obtain ⟨s₁, m₁, hs₁, hdispatch⟩ := cycle_eq_failed h
  cases Signal.eq_raise_of_essence hs₁
  rcases bind_eq_failed hdispatch with hfail | ⟨r, m₂, hfetch, hrest⟩
  · obtain ⟨f, us, habove, -⟩ := hbusy
    have hspec := fetch_spec habove.frames
    rw [hfail] at hspec
    obtain ⟨_, _, -, -, hs, -⟩ := hspec
    cases hs
  · cases r with
    | none => cases hrest
    | some i =>
      obtain ⟨s₂, m₃, hs₂, hcase⟩ := executeAt_eq_failed hrest
      cases Signal.eq_raise_of_essence hs₂
      exact ⟨i, m₂, m₃, hfetch, hcase⟩

theorem traced_complete {base : Nat} {step : Step} {m₁ : Machine} (hcall : CallsTraced n)
    (hw : Work.Settled ⟨n, .loop base, m⟩) (hstep : Exec.instruct m = .ok (some step) m₁)
    (h : Exec.complete (Exec.invoke n) step m₁ = .error (.failed (.raise v)) m') :
    Traced ⟨n, .loop base, m⟩ v m' := by
  cases step with
  | next => cases h
  | returned v => cases h
  | native body this args constructing =>
    rcases Exec.bind_eq_failed h with hnative | ⟨_, _, -, hpush⟩
    · rcases Exec.runNative_eq_failed hnative with ⟨_, _, -, -, hs⟩ | ⟨p, rfl, hp⟩
      · cases hs
      · have hlead : Leads ⟨n, .loop base, m⟩ _ := .host hstep
        obtain ⟨store, m₀, -, -, hbusy⟩ := hw.good
        obtain ⟨hm₁, hbody⟩ := Exec.handed_of_instruct hbusy ⟨hw.tidy, hw.relaying⟩ hstep
        exact hlead.traced (HostProgram.traced hcall (hlead.settled hw) hm₁.clean (hbody _ _) hp)
    · cases hpush
  | compare method a b =>
    rcases Exec.bind_eq_failed h with hmethod | ⟨_, _, -, hpush⟩
    · have hlead : Leads ⟨n, .loop base, m⟩ _ := .compare hstep
      exact hlead.traced (hcall (hlead.settled hw) hmethod)
    · cases hpush

theorem traced_cycle {base : Nat} (hcall : CallsTraced n)
    (hw : Work.Settled ⟨n, .loop base, m⟩)
    (h : Exec.cycle (Exec.invoke n) base m = .error (.failed (.raise v)) m') :
    Traced ⟨n, .loop base, m⟩ v m' := by
  obtain ⟨store, m₀, -, rfl, hbusy⟩ := hw.good
  obtain ⟨i, m₁, m₂, hfetch, hfail | ⟨step, m₃, hexec, hcomplete⟩⟩ := Exec.cycle_eq_raise hbusy h
  · obtain ⟨g, us, hframes, htail, hg⟩ := Exec.executing_of_failed hbusy hfetch hfail
    have hrecord := (Exec.record_of_failed hbusy hfetch hfail).1
    have hclean : m₂.Clean := ⟨congrArg Prod.fst hrecord, congrArg Prod.snd hrecord⟩
    refine ⟨_, m₂, .refl, .instruction hfetch hfail, hclean, ?_, ?_⟩
    · rw [Machine.Suspended, hframes]
      exact List.forall_mem_cons.2 ⟨⟨i, hg⟩, fun f hf => hw.suspended f (htail ▸ hf)⟩
    · exact (hclean.escaping v).of_cycle hframes hg rfl hfetch (Exec.bind_of_error hfail) h
  · have hstep : Exec.instruct m = .ok (some step) m₃ :=
      (Exec.bind_of_ok hfetch).trans (Exec.bind_of_ok hexec)
    obtain ⟨w', m₄, hreach, hraises, hclean, hsuspended, hescaping⟩ :=
      traced_complete hcall hw hstep hcomplete
    refine ⟨w', m₄, hreach, hraises, hclean, hsuspended, ?_⟩
    obtain ⟨i', m₅, g, us, hfetch', hrun, hg, hexecuting⟩ :=
      Exec.executing_of_complete (Exec.quiet_invoke n) hbusy hstep hcomplete
    exact hescaping.of_cycle hg hexecuting rfl hfetch' hrun h

theorem traced_loop {base fuel : Nat} (hcall : CallsTraced n)
    (hw : Work.Settled ⟨n, .loop base, m⟩)
    (h : Exec.loop (Exec.invoke n) base fuel m = .error (.failed (.raise v)) m') :
    Traced ⟨n, .loop base, m⟩ v m' := by
  induction fuel generalizing m with
  | zero => cases h
  | succ fuel ih =>
    rcases Exec.bind_eq_failed h with hcycle | ⟨r, m₁, hround, hrest⟩
    · exact traced_cycle hcall hw hcycle
    · cases r with
      | some v => cases hrest
      | none => exact (Leads.round hround).traced (ih ((Leads.round hround).settled hw) hrest)

theorem traced_invoke (n : Nat) : CallsTraced n := by
  intro callee this args m m' v hw h
  induction n generalizing callee this args m m' v with
  | zero => cases h
  | succ n ih =>
    rw [Exec.invoke, Exec.get_bind_apply] at h
    rcases Exec.bind_eq_failed h with hstart | ⟨start, m₁, hstart, hrest⟩
    · have hfailed := (Exec.started_beginCall callee this args none (F := True)).of_failed
        (.refl m) hstart
      exact hfailed.2.elim
    · cases start with
      | entered =>
        have hlead := Leads.enter (n := n) hstart
        exact hlead.traced (traced_loop ih (hlead.settled hw) hrest)
      | native body self given constructing =>
        rcases Exec.runNative_eq_failed hrest with ⟨_, _, -, -, hs⟩ | ⟨p, rfl, hp⟩
        · cases hs
        · have hlead := Leads.native (n := n) hstart
          obtain ⟨hsilent, id, hid⟩ := Exec.started_of_ok hstart
          have hbody := hw.relaying id
          rw [← hid] at hbody
          exact hlead.traced (HostProgram.traced ih (hlead.settled hw) (hsilent.clean hw.tidy)
            (hbody _ _) hp)

end Origins

/-- A call of the host that comes to an end, or an operation without a call, which leaves the record
of raises alone. -/
inductive RecordedStep (m m' : Machine) : Prop
  | call (fuel : Nat) (callee : Value) (args : List Value)
      (h : Completes (HostM.call fuel callee args) m m')
  | callMethod (fuel : Nat) (receiver : Value) (name : String) (args : List Value)
      (h : Completes (HostM.callMethod fuel receiver name args) m m')
  | execute (fuel : Nat) (f : Fragment) (h : Completes (HostM.execute fuel f) m m')
  | other (hstill : m.Still m') (htrace : m'.raiseTrace = m.raiseTrace)
      (hposition : m'.raisePosition = m.raisePosition)

/-- Operations of the host one after the other, on machines whose native functions hand raises on. -/
inductive RelayedRun (m : Machine) : Machine → Prop
  | refl : RelayedRun m m
  | step {m' m'' : Machine} : RelayedRun m m' → m'.store.Relaying → RecordedStep m' m'' →
      RelayedRun m m''

namespace HostM

variable {m m' : Machine}

theorem clean_callWith {fuel : Nat} {callee : Value} {this : Option Value} {args : List Value}
    (hm : m.Orderly) (h : Completes (callWith fuel callee this args) m m') : m'.Clean := by
  have hstart : (if m.frames.isEmpty then { m with executed := 0 } else m).Orderly := by
    split
    · exact ⟨hm.clean, hm.relaying⟩
    · exact hm
  have hofExec : Completes (ofExec (Exec.invoke fuel callee this args))
      (if m.frames.isEmpty then { m with executed := 0 } else m) m' := h
  rcases ofExec_completes hofExec with ⟨a, hok⟩ | ⟨s, m₁, hfail, hreport⟩
  · exact ((Exec.tidy_invoke fuel callee this args).of_ok hstart hok).clean
  · have htidy := ((Exec.tidy_invoke fuel callee this args).of_failed hstart hfail).1
    cases s with
    | error fault =>
      rw [hreport.eq_of_failed rfl]
      exact htidy
    | raise v =>
      rw [hreport.eq_of_failed rfl]
      exact ⟨rfl, rfl⟩

theorem clean_callMethod {fuel : Nat} {receiver : Value} {name : String} {args : List Value}
    (hm : m.Orderly) (h : Completes (callMethod fuel receiver name args) m m') : m'.Clean := by
  have hget : Completes (ofExcept (m.store.find .host receiver name) >>= fun method =>
    callWith fuel method (some receiver) args) m m' := h
  cases hfind : m.store.find .host receiver name with
  | ok method =>
    rw [hfind] at hget
    exact clean_callWith hm hget
  | error c =>
    rw [hfind] at hget
    rw [hget.eq_of_failed rfl]
    exact hm.clean

theorem clean_execute {fuel : Nat} {f : Fragment} (hm : m.Orderly)
    (h : Completes (execute fuel f) m m') : m'.Clean := by
  rcases completes_bind h with ⟨v, m₁, hload, hcall⟩ | hload
  · have hloaded : (afterLoad f m).Orderly := ⟨hm.clean, hm.relaying⟩
    rw [(load_eq_ok hload).2] at hcall
    exact clean_callWith hloaded hcall
  · have heq := load_eq f m
    split at heq
    · rw [hload.eq_of_failed heq]
      exact hm.clean
    · rw [hload.eq_of_ok heq]
      exact hm.clean

theorem callWith_eq_raised {k : Nat} {callee : Value} {this : Option Value} {args : List Value}
    {failure : Failure} {v : Value} (hidle : m.frames = [])
    (h : callWith k callee this args m = .error (.failed failure) m')
    (hv : failure.thrown = some v) :
    ∃ m₁, Exec.invoke k callee this args { m with executed := 0 } =
      .error (.failed (.raise v)) m₁ := by
  rw [callWith_eq hidle, ofExec] at h
  cases hinvoke : Exec.invoke k callee this args { m with executed := 0 } with
  | ok a m₁ =>
    rw [hinvoke] at h
    cases h
  | error stop m₁ =>
    rw [hinvoke] at h
    cases stop with
    | overflow => cases h
    | outOfFuel => cases h
    | failed s =>
      cases s with
      | error fault =>
        cases h
        cases hv
      | raise v' =>
        cases h
        cases hv
        exact ⟨m₁, rfl⟩

end HostM

theorem RecordedStep.clean {m m' : Machine} (h : RecordedStep m m') (hm : m.Orderly) : m'.Clean := by
  cases h with
  | call fuel callee args h => exact HostM.clean_callWith hm h
  | callMethod fuel receiver name args h => exact HostM.clean_callMethod hm h
  | execute fuel f h => exact HostM.clean_execute hm h
  | other hstill htrace hposition =>
    exact ⟨htrace.trans hm.clean.1, hposition.trans hm.clean.2⟩

theorem RecordedStep.still {m m' : Machine} (h : RecordedStep m m') : m.Still m' := by
  cases h with
  | call fuel callee args h => exact HostM.still_callWith h
  | callMethod fuel receiver name args h => exact HostM.still_callMethod h
  | execute fuel f h => exact HostM.still_execute h
  | other hstill => exact hstill

theorem RelayedRun.clean {m m' : Machine} (h : RelayedRun m m') (hm : m.Clean) : m'.Clean := by
  induction h with
  | refl => exact hm
  | step _ hrelaying hstep ih => exact hstep.clean ⟨ih, hrelaying⟩

theorem RelayedRun.still {m m' : Machine} (h : RelayedRun m m') : m.Still m' := by
  induction h with
  | refl => exact .refl m
  | step _ _ hstep ih => exact ih.trans hstep.still

/-- When native functions hand raises on, no raise is on record between calls of the host, nor in a
call but where a raise is being handed on. Then the report of a raise that nobody caught is about the
calls that were active when it arose, and about nothing else. -/
theorem raise_record_of_relayed {config : Config} {m : Machine}
    (hrun : RelayedRun (Machine.start config) m) :
    m.Clean ∧ (m.store.Relaying → ∀ k callee this args,
      (∀ w, Reaches ⟨k, .call callee this args, { m with executed := 0 }⟩ w → w.Tidy) ∧
      ∀ failure m' v, HostM.callWith k callee this args m = .error (.failed failure) m' →
        failure.thrown = some v →
        ∃ w m₁, Reaches ⟨k, .call callee this args, { m with executed := 0 }⟩ w ∧
          Raises w v m₁ ∧ m₁.Clean ∧
          Forall₂ (Frame.ShownAs m₁.store) m₁.frames failure.fault.trace ∧
          failure.fault.position = m₁.frames.head?.map Frame.place) := by
  have hclean : m.Clean := hrun.clean ⟨rfl, rfl⟩
  have hidle : m.frames = [] := hrun.still.frames
  refine ⟨hclean, fun hrelaying k callee this args => ?_⟩
  have hstart : Work.Settled ⟨k, .call callee this args, { m with executed := 0 }⟩ := by
    refine ⟨⟨m.store, fun _ _ => trivial, .refl _⟩, fun g hg => ?_, hrelaying, hclean⟩
    rw [hidle] at hg
    cases hg
  refine ⟨fun w hreach => (hreach.settled hstart).tidy, fun failure m' v hcall hv => ?_⟩
  obtain ⟨m₂, hinvoke⟩ := HostM.callWith_eq_raised hidle hcall hv
  obtain ⟨w, m₁, hreach, hraises, hm₁, hsuspended, hescaping⟩ := traced_invoke k hstart hinvoke
  have hquiet := (Exec.quiet_invoke k callee this args _).of_failed (.refl _) hinvoke
  obtain ⟨failure', m₃, hfails, -, htrace, hposition⟩ :=
    HostM.callWith_of_escaping hidle (hquiet.1.frames.trans hidle) hescaping
  cases hcall.symm.trans (hfails k hinvoke)
  refine ⟨w, m₁, hreach, hraises, hm₁, ?_, hposition⟩
  rw [htrace]
  exact hsuspended.shownAs m₁.store

/-- A function that calls its argument. -/
def calling : Template where
  name := some "caller"
  body := { code := #[⟨.loadLocal 0, some ⟨10, 1⟩⟩, ⟨.call 0, some ⟨11, 5⟩⟩] }
  arity := .fixed 1
  line := 9

/-- A host function that raises. -/
def alarm : Native where
  name := "alarm"
  minimum := 0
  maximum := none
  body := .host fun _ _ => .finish (.error (.raise (.bool true)))

def withAlarm : Machine :=
  { Machine.start {} with
    store :=
      { (Store.initial.newNative alarm).2 with
        functions := #[⟨⟨calling, ⟨0, []⟩, ⟨0⟩⟩, .empty⟩] } }

theorem raise_record_of_relayed_alarm :
    ∃ failure m', HostM.callWith 3 (.function ⟨0⟩) none [.native ⟨25⟩] withAlarm =
        .error (.failed failure) m' ∧
      ∃ m₁ : Machine, m₁.Clean ∧ Forall₂ (Frame.ShownAs m₁.store) m₁.frames failure.fault.trace ∧
        failure.fault.position = m₁.frames.head?.map Frame.place := by
  have hcall : ∃ failure m', HostM.callWith 3 (.function ⟨0⟩) none [.native ⟨25⟩] withAlarm =
      .error (.failed failure) m' ∧ failure.thrown = some (.bool true) := ⟨_, _, rfl, rfl⟩
  have hstill : (Machine.start {}).Still withAlarm :=
    ⟨rfl, rfl, fun id hid => absurd hid (Nat.not_lt_zero _)⟩
  have hrun : RelayedRun (Machine.start {}) withAlarm :=
    .step .refl Store.relaying_initial (.other hstill rfl rfl)
  have hrelaying : (Store.initial.newNative alarm).2.Relaying :=
    Store.relaying_initial.newNative fun _ _ => trivial
  obtain ⟨failure, m', hcall, hthrown⟩ := hcall
  obtain ⟨w, m₁, -, -, hclean, hshown, hposition⟩ :=
    ((raise_record_of_relayed hrun).2 hrelaying 3 _ _ _).2 failure m' _ hcall hthrown
  exact ⟨failure, m', hcall, m₁, hclean, hshown, hposition⟩

/-- A function that raises. -/
def throwingAt : Template where
  name := some "thrower"
  body := { code := #[⟨.pushFalse, some ⟨3, 1⟩⟩, ⟨.throw, some ⟨4, 2⟩⟩] }
  line := 2

/-- A host function that calls its argument and goes on, whatever comes of it. -/
def heedless : Native where
  name := "attempt"
  minimum := 0
  maximum := none
  body := .host fun _ args => .call (args.headD .void) none [] fun _ => .ret .void

def withHeedless : Machine :=
  { withAlarm with
    store :=
      { (withAlarm.store.newNative heedless).2 with
        functions := withAlarm.store.functions.push ⟨⟨throwingAt, ⟨1, []⟩, ⟨0⟩⟩, .empty⟩ } }

/-- What a raise leaves on record that `heedless` has dealt with. -/
def afterHeedless : Machine :=
  { withHeedless with
    executed := 2
    raiseTrace := [⟨some "thrower", none, 4⟩]
    raisePosition := some ⟨4, 2⟩ }

theorem raise_record_kept :
    HostM.call 5 (.native ⟨26⟩) [.function ⟨1⟩] withHeedless = .ok .void afterHeedless ∧
    ¬ afterHeedless.Clean ∧
    ∃ failure m', HostM.call 5 (.function ⟨0⟩) [.native ⟨25⟩] afterHeedless =
        .error (.failed failure) m' ∧
      failure.thrown = some (.bool true) ∧
      failure.fault.trace.map (·.function) = [some "thrower", some "caller"] ∧
      failure.fault.position = some ⟨4, 2⟩ := by
  have hkept : ¬ afterHeedless.Clean := fun h => nomatch h.2
  exact ⟨rfl, hkept, _, _, rfl, rfl, rfl, rfl⟩

end ScriptMachine
