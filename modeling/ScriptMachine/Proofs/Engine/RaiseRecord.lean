import ScriptMachine.Proofs.Engine.Report

namespace ScriptMachine

open List (Forall₂)

/-- When a call of the program ends with a raise, the program ends with it. -/
def HostProgram.Relays : HostProgram → Prop
  | finish _ => True
  | call _ _ _ next => (∀ v, (next (.error (.raise v))).PassesOn (.raise v)) ∧
      ∀ outcome, (∀ v, outcome ≠ .error (.raise v)) → (next outcome).Relays
  | callMethod _ _ _ next => (∀ v, (next (.error (.raise v))).PassesOn (.raise v)) ∧
      ∀ outcome, (∀ v, outcome ≠ .error (.raise v)) → (next outcome).Relays
  | newArray _ next => ∀ v, (next v).Relays
  | typeName _ next => ∀ name, (next name).Relays
  | readDatum _ next => ∀ d, (next d).Relays
  | writeDatum _ _ next => next.Relays

def NativeBody.Relays : NativeBody → Prop
  | method _ => True
  | host p => ∀ this args, (p this args).Relays

/-- All native functions hand raises on. -/
def Store.Relaying (s : Store) : Prop :=
  ∀ id, (s.native id).body.Relays

theorem Store.Relaying.retained {s s' : Store} (h : s.Relaying) (hs : s.Retained s') :
    s'.Relaying := by
  intro id
  rw [hs.native]
  exact h id

theorem Store.relaying_initial : Store.initial.Relaying := by
  intro id
  obtain ⟨b, hb⟩ := Store.native_initial id
  rw [hb]
  trivial

theorem Store.Relaying.newNative {s : Store} (h : s.Relaying) {n : Native} (hn : n.body.Relays) :
    (s.newNative n).2.Relaying := by
  intro id
  have hnative := h id
  rw [Store.native, Array.getD_eq_getD_getElem?] at hnative ⊢
  rw [Store.newNative, Array.getElem?_push]
  split
  · exact hn
  · exact hnative

/-- No raise is on record, and no native function will leave one there. -/
structure Machine.Orderly (m : Machine) : Prop where
  clean : m.Clean
  relaying : m.store.Relaying

/-- Where a signal has come, only a raise has something on record. -/
def Signal.Tidy (m : Machine) : Signal → Prop
  | error _ => m.Clean
  | raise _ => True

theorem Signal.Tidy.of_clean {m : Machine} (h : m.Clean) (s : Signal) : s.Tidy m := by
  cases s with
  | error fault => exact h
  | raise v => trivial

theorem Machine.Silent.clean {m m' : Machine} (h : m.Silent m') (hm : m.Clean) : m'.Clean := by
  rw [h.same]
  exact hm

theorem Machine.Silent.orderly {m m' : Machine} (h : m.Silent m') (hm : m.Orderly) : m'.Orderly :=
  ⟨h.clean hm.clean, hm.relaying.retained h.retained⟩

namespace Exec

/-- A computation that leaves nothing on record, unless it ends with a raise. -/
abbrev Tidies {α : Type} (x : Exec α) : Prop :=
  Triple Machine.Orderly x (fun _ => Machine.Orderly) fun s m => s.Tidy m ∧ m.store.Relaying

variable {α : Type} {x : Exec α}

theorem tidies_of_silent {B : Machine → Signal → Prop}
    (hx : ∀ m, Keeps (Machine.Silent m) (B m) x) : Tidies x := by
  intro m hm
  refine (hx m m (.refl m)).mono (fun _ _ h => h.orderly hm) fun s _ h => ?_
  have horderly := h.1.orderly hm
  exact ⟨.of_clean horderly.clean s, horderly.relaying⟩

theorem tidies_of_quiet (hquiet : ∀ m₀, Keeps (Machine.Quiet m₀) (fun _ => True) x)
    (hx : Triple Machine.Orderly x (fun _ => Machine.Clean) fun s m => s.Tidy m) : Tidies x := by
  intro m hm
  refine ((hx m hm).and (hquiet m m (.refl m))).mono (fun _ _ h => ?_) fun _ _ h => ?_
  · exact ⟨h.1, hm.relaying.retained h.2.store⟩
  · exact ⟨h.1, hm.relaying.retained h.2.1.store⟩

theorem tidies_find (receiver : Value) (name : String) : Tidies (find receiver name) :=
  tidies_of_silent fun _ => silent_find receiver name

theorem tidies_newArray (items : List Value) : Tidies (newArray items) :=
  tidies_of_silent (B := fun _ _ => True) fun _ => silent_newArray items _

end Exec

def Callback.Tidy (call : Callback) : Prop :=
  ∀ callee this args, Exec.Tidies (call callee this args)

section Callbacks

variable {call : Callback}

open Exec

theorem HostProgram.tidies_answered {x : Exec Value} {next : Outcome → HostProgram} (hx : Tidies x)
    (hraise : ∀ v, (next (.error (.raise v))).PassesOn (.raise v))
    (hnext : ∀ outcome, (∀ v, outcome ≠ .error (.raise v)) → Tidies ((next outcome).run call)) :
    Tidies (attempt x >>= fun outcome => (next outcome).run call) := by
  refine .bind (Triple.attempt hx) fun outcome => ?_
  match outcome with
  | .ok v => exact hnext (.ok v) nofun
  | .error (.error fault) =>
    exact (hnext (.error (.error fault)) nofun).conseq (fun _ h => ⟨h.1, h.2⟩) (fun _ _ h => h)
      fun _ _ h => h
  | .error (.raise v) =>
    intro m hm
    obtain ⟨store, hstore, hrun⟩ := (hraise v).run m
    rw [hrun call]
    exact ⟨trivial, hm.2.retained hstore.retained⟩

theorem HostProgram.tidies_run (hcall : call.Tidy) {p : HostProgram} (hp : p.Relays) :
    Tidies (p.run call) := by
  induction p with
  | finish outcome =>
    cases outcome with
    | ok v => exact .pure fun _ h => h
    | error s => exact .signal fun _ h => ⟨.of_clean h.clean s, h.relaying⟩
  | call callee this args next ih =>
    exact tidies_answered (hcall callee this args) hp.1 fun outcome hne => ih outcome (hp.2 _ hne)
  | callMethod receiver name args next ih =>
    exact tidies_answered
      (.bind (tidies_find receiver name) fun method => hcall method (some receiver) args) hp.1
      fun outcome hne => ih outcome (hp.2 _ hne)
  | newArray items next ih => exact .bind (tidies_newArray items) fun v => ih v (hp v)
  | typeName v next ih =>
    exact .get_bind fun m _ => (ih _ (hp _)).conseq (fun _ h => h.2) (fun _ _ h => h) fun _ _ h => h
  | readDatum id next ih =>
    exact .get_bind fun m _ => (ih _ (hp _)).conseq (fun _ h => h.2) (fun _ _ h => h) fun _ _ h => h
  | writeDatum id d next ih =>
    refine .bind (J := fun _ => Machine.Orderly) (.modify fun m hm => ?_) fun _ => ih hp
    exact ⟨hm.clean, hm.relaying.retained (m.store.untouched_setDatum id d).retained⟩

namespace Exec

theorem tidies_runNative (hcall : call.Tidy) {body : NativeBody} (hbody : body.Relays) (this : Value)
    (args : List Value) (constructing : Option Value) :
    Tidies (runNative call body this args constructing) := by
  refine .bind (J := fun _ => Machine.Orderly) ?_ fun result => ?_
  · cases body with
    | host p => exact HostProgram.tidies_run hcall (hbody this args)
    | method b =>
      refine .get_bind fun m hm => .bind (J := fun r m' => m' = m ∧ m.store.Untouched r.2)
        (.ofExcept ?_ ?_) fun r => .bind (J := fun _ => Machine.Orderly) (.modify ?_) fun _ =>
          .pure fun _ h => h
      · exact fun r m' hr hm' => ⟨hm'.1, Method.untouched_apply hr⟩
      · exact fun c m' _ hm' => ⟨hm'.2.clean, hm'.2.relaying⟩
      · rintro _ ⟨rfl, hstore⟩
        exact ⟨hm.clean, hm.relaying.retained hstore.retained⟩
  · cases constructing with
    | none => exact .pure fun _ h => h
    | some obj => exact .pure fun _ h => h

end Exec

end Callbacks

namespace Exec

variable {call : Callback} {m₀ : Machine}

/-- An instruction that leaves a native function to be run leaves one that hands raises on. -/
def Handed : Step → Machine → Prop
  | .native body .., m => m.Orderly ∧ body.Relays
  | _, m => m.Orderly

theorem orderly_of_running {o : Opcode} {f : Frame} {rest : List Frame} {low : List Value}
    {m : Machine} (h : Running o m₀ f rest low m) (hm₀ : m₀.Orderly) : m.Orderly :=
  ⟨h.clean hm₀.clean, hm₀.relaying.retained h.store⟩

theorem handed_of_advanced {o : Opcode} {f : Frame} {rest : List Frame} {low : List Value}
    {step : Step} {m : Machine} (h : Advanced o m₀ f rest low step m) (hm₀ : m₀.Orderly) :
    Handed step m := by
  have horderly : m.Orderly := by
    rcases h.running_or_enters with hm | ⟨m₁, hm₁, m₂, g, hsilent, -, rfl⟩
    · exact orderly_of_running hm hm₀
    · obtain ⟨hclean, hrelaying⟩ := hsilent.orderly (orderly_of_running hm₁ hm₀)
      exact ⟨hclean, hrelaying⟩
  cases step with
  | native body this args constructing =>
    obtain ⟨-, -, id, rfl⟩ := h
    exact ⟨horderly, hm₀.relaying id⟩
  | _ => exact horderly

/-- At the start of an instruction, with no raise on record. -/
def Begun (m₀ m' : Machine) : Prop :=
  ∃ m f us, m₀.Above (f :: us) m ∧ m.Orderly ∧ m' = fetched m f (us ++ m₀.frames)

theorem begun_fetch :
    Triple (fun m => m₀.Busy (fun _ => True) m ∧ m.Orderly) fetch
      (fun r => match r with | some _ => Begun m₀ | none => Machine.Orderly)
      (fun s m => s.Tidy m) False := by
  rintro m ⟨⟨f, us, h, -⟩, hm⟩
  refine (fetch_spec h.frames).mono (fun r m' hm' => ?_) fun s m' hm' => ?_
  · obtain ⟨-, rfl⟩ := hm'
    cases r with
    | none => exact hm
    | some i => exact ⟨m, f, us, h, hm, rfl⟩
  · obtain ⟨_, _, -, -, rfl, rfl⟩ := hm'
    exact hm.clean

theorem handed_execute (i : Instruction) :
    Triple (Begun m₀) (execute i.opcode) Handed (fun _ => Machine.Orderly) False := by
  rintro _ ⟨m, f, us, h, hm, rfl⟩
  have hm' : (fetched m f (us ++ m₀.frames)).Orderly := ⟨hm.clean, hm.relaying⟩
  refine (advances_execute i.opcode _ (h.fetched.running i.opcode)).mono ?_ ?_
  · exact fun step m' h' => handed_of_advanced h' hm'
  · exact fun s m' h' => orderly_of_running h'.1 hm'

theorem tidies_complete (hcall : call.Tidy) (step : Step) :
    Triple (Handed step) (complete call step) (fun _ => Machine.Orderly)
      fun s m => s.Tidy m ∧ m.store.Relaying := by
  have answered {x : Exec Value} (hx : Tidies x) (g : Value → Value) :
      Tidies (x >>= fun v => andNext (push (g v))) :=
    .bind hx fun v => .bind (J := fun _ => Machine.Orderly)
      (.modify fun m hm => ⟨hm.clean, hm.relaying⟩) fun _ => .pure fun _ h => h
  cases step with
  | next => exact .pure fun _ h => h
  | returned v => exact .pure fun _ h => h
  | native body this args constructing =>
    intro m hm
    exact answered (tidies_runNative hcall hm.2 this args constructing) id m hm.1
  | compare method a b => exact answered (hcall method (some a) [b]) fun v => .bool !v.truthy

theorem tidy_located {s : Signal} {m : Machine} (h : s.Tidy m) (position : Option Position) :
    (located s position m).1.Tidy (located s position m).2 := by
  cases s with
  | error fault => exact h
  | raise v => trivial

theorem tidy_dispatch (hcall : call.Tidy) :
    Triple (fun m => m₀.Busy (fun _ => True) m ∧ m.Orderly) (dispatch call)
      (fun _ => Machine.Clean) fun s m => s.Tidy m := by
  refine dispatch_rule (X := fun _ => Begun m₀)
    (begun_fetch.weaken.conseq (fun _ h => h) ?_ fun _ _ h => h)
    fun i => ?_
  · intro r m hm
    cases r with
    | none => exact hm.clean
    | some i => exact hm
  · refine .bind ((handed_execute i).weaken.conseq (fun _ h => h) (fun _ _ h => h) ?_) fun step =>
      (tidies_complete hcall step).conseq (fun _ h => h) (fun _ _ h => h.clean) ?_
    · exact fun s m hm => tidy_located (.of_clean hm.clean s) i.position
    · exact fun s m hm => tidy_located hm.1 i.position

theorem trace_of_escaped {store : Store} {base : Nat} {s s' : Signal}
    {trace trace' : List TraceEntry} {stack stack' : List Value} {fs fs' : List Frame}
    (h : land store base s trace stack fs = (.escaped fs' stack' s', trace')) {fault' : Fault}
    (hs' : s' = .error fault') : ∃ fault, s = .error fault ∧ trace' = trace := by
  induction fs generalizing s trace stack with
  | nil =>
    cases h
    exact ⟨fault', hs', rfl⟩
  | cons f below ih =>
    have left {fault : Fault}
        (hs : (s.leave (f.traceEntry (store.staticsCell f.closure.statics).source) trace).1 =
          .error fault) :
        ∃ fault, s = .error fault ∧
          (s.leave (f.traceEntry (store.staticsCell f.closure.statics).source) trace).2 = trace := by
      cases s with
      | error fault => exact ⟨fault, rfl, rfl⟩
      | raise v => cases hs
    rw [land] at h
    split at h
    · cases h
    · dsimp only at h
      split at h
      · cases h
        exact left hs'
      · obtain ⟨fault, hs, rfl⟩ := ih h
        exact left hs

theorem tidy_unwind (s : Signal) (base : Nat) :
    Triple (fun m => s.Tidy m) (unwind s base) (fun _ => Machine.Clean) fun s m => s.Tidy m := by
  refine .get_bind fun m hm => ?_
  cases hland : land m.store base s m.raiseTrace m.stack m.frames with
  | mk landing trace =>
    cases landing with
    | caught f below stack s' =>
      refine .bind (J := fun _ _ => True) (.set fun _ _ => trivial) fun _ =>
        .bind (J := fun _ _ => True) (fun m' _ => ?_) fun v =>
          .bind (J := fun _ _ => True) (.modify fun _ _ => trivial) fun _ =>
            .modify fun _ _ => ⟨rfl, rfl⟩
      obtain ⟨v, store, heq, -, -⟩ := exceptionOf_eq s' m'
      rw [heq]
      trivial
    | escaped frames stack s' =>
      refine .bind (J := fun _ m => s'.Tidy m) (.set fun _ _ => ?_) fun _ => .signal fun _ h => h
      cases s' with
      | raise v => trivial
      | error fault' =>
        obtain ⟨fault, rfl, rfl⟩ := trace_of_escaped hland rfl
        exact hm

theorem clean_finishFrame (v : Value) (base : Nat) :
    Triple Machine.Clean (finishFrame v base) (fun _ => Machine.Clean) fun s m => s.Tidy m := by
  intro m hm
  cases hframes : m.frames with
  | nil =>
    rw [finishFrame, get_bind_apply, hframes]
    exact hm
  | cons f below =>
    rw [finishFrame_eq hframes]
    split <;> exact hm

theorem tidy_cycle (hcall : call.Tidy) (base : Nat) :
    Triple (fun m => m₀.Busy (fun _ => True) m ∧ m.Orderly) (cycle call base)
      (fun _ => Machine.Clean) fun s m => s.Tidy m :=
  cycle_rule (tidy_dispatch hcall) (fun v => clean_finishFrame v base) (fun _ _ _ h => h)
    fun s => tidy_unwind s base

theorem tidy_loop (hquiet : call.Quiet) (hcall : call.Tidy) (hm₀ : m₀.store.Relaying) (fuel : Nat) :
    Triple (fun m => m₀.Busy (fun _ => True) m ∧ m.Clean) (loop call m₀.frames.length fuel)
      (fun _ => Machine.Clean) fun s m => s.Tidy m := by
  induction fuel with
  | zero => exact fun _ _ => trivial
  | succ fuel ih =>
    have relaying {m : Machine} (h : m₀.Busy (fun _ => True) m) : m.store.Relaying := by
      obtain ⟨f, us, habove, -⟩ := h
      exact hm₀.retained habove.store
    refine .bind (J := fun r m => AfterRound (fun _ => True) m₀ r m ∧ m.Clean) (fun m hm => ?_)
      fun r => ?_
    · refine ((busy_cycle Frame.invariant_true hquiet m hm.1).and
        (tidy_cycle hcall _ m ⟨hm.1, hm.2, relaying hm.1⟩)).mono (fun _ _ h => h) fun _ _ h => h.2
    · cases r with
      | none => exact ih
      | some v => exact .pure fun _ h => h.2

theorem tidy_invoke (fuel : Nat) : Callback.Tidy (invoke fuel) := by
  induction fuel with
  | zero => exact fun _ _ _ _ _ => trivial
  | succ fuel ih =>
    intro callee this args
    refine tidies_of_quiet (quiet_invoke (fuel + 1) callee this args) (.get_bind fun m hm => ?_)
    dsimp only
    refine .bind (J := Started m) ?_ fun start => ?_
    · rintro _ ⟨rfl, -⟩
      refine (started_beginCall callee this args none _ (.refl _)).mono (fun _ _ h => h) ?_
      exact fun s m' h => .of_clean (h.1.clean hm.clean) s
    · cases start with
      | entered =>
        refine (tidy_loop (quiet_invoke fuel) ih hm.relaying fuel).conseq (fun m' h => ?_)
          (fun _ _ h => h) fun _ _ h => h
        refine ⟨h.busy Frame.invariant_true, ?_⟩
        obtain ⟨m₁, g, hsilent, -, rfl⟩ := h
        exact hsilent.clean hm.clean
      | native body this args constructing =>
        rintro m' ⟨hsilent, id, rfl⟩
        refine (tidies_runNative ih (hm.relaying id) this args constructing m'
          (hsilent.orderly hm)).mono (fun _ _ h => h.clean) fun _ _ h => h.1

theorem handed_of_instruct {m m' : Machine} {step : Step} (hbusy : m₀.Busy (fun _ => True) m)
    (hm : m.Orderly) (h : instruct m = .ok (some step) m') : Handed step m' := by
  have hinstruct : Triple (fun m => m₀.Busy (fun _ => True) m ∧ m.Orderly) instruct
      (fun r m => ∀ step, r = some step → Handed step m) (fun _ _ => True) False := by
    refine .bind (begun_fetch.conseq (fun _ h => h) (fun _ _ h => h) fun _ _ _ => trivial) fun r => ?_
    cases r with
    | none => exact .pure fun _ _ _ h => nomatch h
    | some i =>
      refine .bind ((handed_execute i).conseq (fun _ h => h) (fun _ _ h => h) fun _ _ _ => trivial)
        fun step => .pure fun m hm step' heq => ?_
      cases heq
      exact hm
  exact hinstruct.of_ok ⟨hbusy, hm⟩ h step rfl

end Exec

/-- A raise is on record only while a program hands it on. -/
def Work.Tidy (w : Work) : Prop :=
  match w.activity with
  | .program p => (w.machine.Clean ∧ p.Relays) ∨ ∃ v, p.PassesOn (.raise v)
  | _ => w.machine.Clean

/-- A state of a call on a machine whose native functions hand raises on. -/
structure Work.Settled (w : Work) : Prop where
  good : ∃ store, w.Good (fun _ => True) store
  suspended : w.Suspended
  relaying : w.machine.store.Relaying
  tidy : w.Tidy

section States

variable {n : Nat} {m m' : Machine}

theorem Exec.orderly_of_answered {x : Exec Value} {outcome : Outcome} (hx : Tidies x)
    (hm : m.Orderly) (hne : ∀ v, outcome ≠ .error (.raise v))
    (h : attempt x m = .ok outcome m') : m'.Orderly := by
  rcases attempt_eq_ok h with ⟨v, rfl, hok⟩ | ⟨s, rfl, hfail⟩
  · exact hx.of_ok hm hok
  · obtain ⟨htidy, hrelaying⟩ := hx.of_failed hm hfail
    cases s with
    | error fault => exact ⟨htidy, hrelaying⟩
    | raise v => exact absurd rfl (hne v)

/-- The state in which a program goes on after a call. -/
theorem Work.tidy_of_answered {x : Exec Value} {next : Outcome → HostProgram} {outcome : Outcome}
    (hx : Exec.Tidies x) (hm : m.Orderly)
    (hp : (∀ v, (next (.error (.raise v))).PassesOn (.raise v)) ∧
      ∀ outcome, (∀ v, outcome ≠ .error (.raise v)) → (next outcome).Relays)
    (h : Exec.attempt x m = .ok outcome m') :
    m'.store.Relaying ∧ Work.Tidy ⟨n, .program (next outcome), m'⟩ := by
  by_cases hraised : ∃ v, outcome = .error (.raise v)
  · obtain ⟨v, rfl⟩ := hraised
    rcases Exec.attempt_eq_ok h with ⟨_, heq, -⟩ | ⟨s, -, hfail⟩
    · cases heq
    · exact ⟨(hx.of_failed hm hfail).2, .inr ⟨v, hp.1 v⟩⟩
  · have hne := not_exists.1 hraised
    obtain ⟨hclean, hrelaying⟩ := Exec.orderly_of_answered hx hm hne h
    exact ⟨hrelaying, .inl ⟨hclean, hp.2 _ hne⟩⟩

theorem Leads.tidy {w w' : Work} (h : Leads w w') (hw : w.Settled) :
    w'.machine.store.Relaying ∧ w'.Tidy := by
  obtain ⟨⟨store, hgood⟩, -, hrelaying, htidy⟩ := hw
  cases h with
  | enter h =>
    obtain ⟨m₁, g, hsilent, -, rfl⟩ := Exec.started_of_ok h
    obtain ⟨hclean, hrelaying⟩ := hsilent.orderly ⟨htidy, hrelaying⟩
    exact ⟨hrelaying, hclean⟩
  | native h =>
    obtain ⟨hsilent, id, hid⟩ := Exec.started_of_ok h
    have hbody := hrelaying id
    rw [← hid] at hbody
    obtain ⟨hclean, hrelaying⟩ := hsilent.orderly ⟨htidy, hrelaying⟩
    exact ⟨hrelaying, .inl ⟨hclean, hbody _ _⟩⟩
  | round h =>
    obtain ⟨m₀, -, rfl, hbusy⟩ := hgood
    have hbusy' := (Exec.busy_cycle Frame.invariant_true (Exec.quiet_invoke _)).of_ok hbusy h
    refine ⟨?_, (Exec.tidy_cycle (Exec.tidy_invoke _) _).of_ok ⟨hbusy, htidy, hrelaying⟩ h⟩
    obtain ⟨_, _, habove, -⟩ := hbusy
    obtain ⟨_, _, habove', -⟩ := hbusy'
    exact fun id => by rw [habove'.store.native, ← habove.store.native]; exact hrelaying id
  | host h =>
    obtain ⟨m₀, -, rfl, hbusy⟩ := hgood
    obtain ⟨⟨hclean, hrelaying⟩, hbody⟩ := Exec.handed_of_instruct hbusy ⟨htidy, hrelaying⟩ h
    exact ⟨hrelaying, .inl ⟨hclean, hbody _ _⟩⟩
  | compare h =>
    obtain ⟨m₀, -, rfl, hbusy⟩ := hgood
    obtain ⟨hclean, hrelaying⟩ := Exec.handed_of_instruct hbusy ⟨htidy, hrelaying⟩ h
    exact ⟨hrelaying, hclean⟩
  | calls =>
    rcases htidy with ⟨hclean, -⟩ | ⟨v, hp⟩
    · exact ⟨hrelaying, hclean⟩
    · exact hp.elim
  | callsMethod h =>
    rcases htidy with ⟨hclean, -⟩ | ⟨v, hp⟩
    · obtain ⟨hclean, hrelaying⟩ := (Exec.tidies_find _ _).of_ok ⟨hclean, hrelaying⟩ h
      exact ⟨hrelaying, hclean⟩
    · exact hp.elim
  | resumes h =>
    rcases htidy with ⟨hclean, hp⟩ | ⟨v, hp⟩
    · exact Work.tidy_of_answered (Exec.tidy_invoke _ _ _ _) ⟨hclean, hrelaying⟩ hp h
    · exact hp.elim
  | resumesMethod h =>
    rcases htidy with ⟨hclean, hp⟩ | ⟨v, hp⟩
    · exact Work.tidy_of_answered (.bind (Exec.tidies_find _ _) fun _ => Exec.tidy_invoke _ _ _ _)
        ⟨hclean, hrelaying⟩ hp h
    · exact hp.elim
  | newArray h =>
    have hsilent := (Exec.silent_newArray _ (fun _ => True) (F := True)).of_ok (.refl _) h
    refine ⟨hrelaying.retained hsilent.retained, ?_⟩
    exact htidy.imp (fun h => ⟨hsilent.clean h.1, h.2 _⟩) fun ⟨v, hp⟩ => ⟨v, hp _⟩
  | typeName =>
    exact ⟨hrelaying, htidy.imp (fun h => ⟨h.1, h.2 _⟩) fun ⟨v, hp⟩ => ⟨v, hp _⟩⟩
  | readDatum =>
    exact ⟨hrelaying, htidy.imp (fun h => ⟨h.1, h.2 _⟩) fun ⟨v, hp⟩ => ⟨v, hp _⟩⟩
  | writeDatum =>
    refine ⟨hrelaying.retained (Store.untouched_setDatum ..).retained, ?_⟩
    exact htidy.imp (fun h => ⟨h.1, h.2⟩) fun ⟨v, hp⟩ => ⟨v, hp⟩

theorem Leads.settled {w w' : Work} (h : Leads w w') (hw : w.Settled) : w'.Settled := by
  obtain ⟨hrelaying, htidy⟩ := h.tidy hw
  obtain ⟨store, hgood⟩ := hw.good
  exact ⟨⟨store, h.good Frame.invariant_true hgood⟩, h.suspended hgood hw.suspended, hrelaying, htidy⟩

theorem Reaches.settled {w w' : Work} (h : Reaches w w') (hw : w.Settled) : w'.Settled := by
  induction h with
  | refl => exact hw
  | step _ hstep ih => exact hstep.settled ih

end States

end ScriptMachine
