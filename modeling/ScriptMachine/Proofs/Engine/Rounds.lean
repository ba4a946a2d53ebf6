import ScriptMachine.Proofs.Engine.Activity

namespace ScriptMachine

namespace Exec

/-- The signal with a place, and the machine, which keeps the place of a raise. -/
def located (s : Signal) (position : Option Position) (m : Machine) : Signal × Machine :=
  let position := position.or (m.frames.head?.map fun f => ⟨f.closure.template.line, 0⟩)
  match s with
  | .error fault => (.error { fault with position := fault.position.or position }, m)
  | .raise v => (.raise v, { m with raisePosition := m.raisePosition.or position })

theorem locate_eq (s : Signal) (position : Option Position) (m : Machine) :
    locate s position m = .ok (located s position m).1 (located s position m).2 := by
  cases s with
  | raise v => rfl
  | error fault =>
    rw [locate, get_bind_apply, located]
    dsimp only
    cases position.or (m.frames.head?.map fun f => ⟨f.closure.template.line, 0⟩) with
    | some p => rfl
    | none => rw [Option.or_none]; rfl

section Equations

variable {call : Callback} {base : Nat} {m m₁ m₂ : Machine} {i : Instruction} {s : Signal}

theorem executeAt_of_failed
    (h : (execute i.opcode >>= complete call) m = .error (.failed s) m₁) :
    executeAt call i m =
      .error (.failed (located s i.position m₁).1) (located s i.position m₁).2 := by
  rw [executeAt, bind_of_ok (attempt_of_failed h)]
  exact bind_of_ok (locate_eq ..)

theorem cycle_of_failed (hfetch : fetch m = .ok (some i) m₁)
    (h : (execute i.opcode >>= complete call) m₁ = .error (.failed s) m₂) :
    cycle call base m =
      (do unwind (located s i.position m₂).1 base; return none) (located s i.position m₂).2 := by
  have hdispatch : dispatch call m =
      .error (.failed (located s i.position m₂).1) (located s i.position m₂).2 := by
    rw [dispatch, bind_of_ok hfetch]
    exact executeAt_of_failed h
  rw [cycle, bind_of_ok (attempt_of_failed hdispatch)]

theorem cycle_of_returned {v : Value} (h : dispatch call m = .ok (.returned v) m₁) :
    cycle call base m = finishFrame v base m₁ := by
  rw [cycle, bind_of_ok (attempt_of_ok h)]

theorem cycle_of_next {step : Step} (h : dispatch call m = .ok step m₁)
    (hstep : ∀ v, step ≠ .returned v) : cycle call base m = .ok none m₁ := by
  rw [cycle, bind_of_ok (attempt_of_ok h)]
  cases step with
  | returned v => exact absurd rfl (hstep v)
  | next => rfl
  | native => rfl
  | compare => rfl

end Equations

section Rule

variable {call : Callback} {base : Nat} {I : Machine → Prop} {X : Instruction → Machine → Prop}
  {D : Step → Machine → Prop} {S E : Signal → Machine → Prop} {J : Option Value → Machine → Prop}
  {F : Prop}

theorem dispatch_rule
    (hfetch : Triple I fetch
      (fun r => match r with | some i => X i | none => D (.returned .void)) S F)
    (hexec : ∀ i, Triple (X i) (execute i.opcode >>= complete call) D
      (fun s m => S (located s i.position m).1 (located s i.position m).2) F) :
    Triple I (dispatch call) D S F := by
  refine .bind hfetch fun r => ?_
  cases r with
  | none => exact .pure fun _ h => h
  | some i =>
    refine .bind (Triple.attempt (hexec i)) fun r => ?_
    cases r with
    | ok step => exact .pure fun _ h => h
    | error s =>
      refine .bind (J := S) (fun m hm => ?_) fun s' => .signal fun _ h => h
      rw [locate_eq]
      exact hm

/-- A round keeps what its stages keep: fetching, the instruction with all that it runs, and then the
return of a frame or the way of a signal. -/
theorem cycle_rule (hdispatch : Triple I (dispatch call) D S F)
    (hreturn : ∀ v, Triple (D (.returned v)) (finishFrame v base) J E F)
    (hnext : ∀ step m, (∀ v, step ≠ .returned v) → D step m → J none m)
    (hunwind : ∀ s, Triple (S s) (unwind s base) (fun _ => J none) E F) :
    Triple I (cycle call base) J E F := by
  refine .bind (Triple.attempt hdispatch) fun r => ?_
  cases r with
  | error s => exact .bind (hunwind s) fun _ => .pure fun _ h => h
  | ok step =>
    cases step with
    | returned v => exact hreturn v
    | next => exact .pure fun m h => hnext .next m nofun h
    | native body this args constructing =>
      exact .pure fun m h => hnext (.native body this args constructing) m nofun h
    | compare method a b => exact .pure fun m h => hnext (.compare method a b) m nofun h

end Rule

theorem finishFrame_eq {m : Machine} {f : Frame} {below : List Frame}
    (hm : m.frames = f :: below) (v : Value) (base : Nat) :
    finishFrame v base m =
      if below.length ≤ base then
        .ok (some (f.constructing.getD v))
          { m with frames := below, stack := cutTo f.stackBase m.stack }
      else
        .ok none { m with
          frames := below, stack := f.constructing.getD v :: cutTo f.stackBase m.stack } := by
  rw [finishFrame, get_bind_apply, hm]
  dsimp only
  rw [modify_bind_apply]
  split <;> rfl

end Exec

/-- The call is in the middle of the instruction `i`. -/
def Frame.Executing (f : Frame) (i : Instruction) : Prop :=
  0 < f.pc ∧ f.closure.template.body.code[f.pc - 1]? = some i

theorem Frame.Follows.executing {f g : Frame} {i : Instruction}
    (h : Frame.Follows i.opcode { f with pc := f.pc + 1 } g)
    (hi : f.closure.template.body.code[f.pc]? = some i) (hjump : i.opcode.jumpTarget? = none) :
    g.Executing i := by
  have hpc : g.pc = f.pc + 1 := by
    rcases h.pc with hpc | hpc
    · exact hpc
    · rw [hjump] at hpc
      cases hpc
  have hclosure : g.closure = f.closure := h.closure_eq
  rw [Executing, hpc, hclosure, Nat.add_sub_cancel]
  exact ⟨Nat.succ_pos _, hi⟩

/-- All calls are in the middle of an instruction. -/
def Machine.Suspended (m : Machine) : Prop :=
  ∀ g ∈ m.frames, ∃ i, g.Executing i

/-- All calls but the innermost are in the middle of an instruction. -/
def Machine.Lined (m : Machine) : Prop :=
  ∀ g ∈ m.frames.tail, ∃ i, g.Executing i

theorem Machine.Suspended.lined {m : Machine} (h : m.Suspended) : m.Lined :=
  fun g hg => h g (List.mem_of_mem_tail hg)

namespace Exec

/-- An instruction that leaves a call to be done is in the middle of itself. -/
def Interrupted : Step → Machine → Prop
  | .native .., m => m.Suspended
  | .compare .., m => m.Suspended
  | _, m => m.Lined

variable {m₀ m m' : Machine} {f : Frame} {rest : List Frame} {low : List Value} {i : Instruction}

theorem lined_of_running (h : Running i.opcode m₀ f rest low m)
    (hrest : ∀ g ∈ rest, ∃ i, g.Executing i) : m.Lined := by
  obtain ⟨g, hg, -⟩ := h.frames
  rw [Machine.Lined, hg]
  exact hrest

theorem suspended_of_running
    (h : Running i.opcode m₀ { f with pc := f.pc + 1 } rest low m)
    (hrest : ∀ g ∈ rest, ∃ i, g.Executing i)
    (hi : f.closure.template.body.code[f.pc]? = some i) (hjump : i.opcode.jumpTarget? = none) :
    m.Suspended := by
  obtain ⟨g, hg, hfollow⟩ := h.frames
  rw [Machine.Suspended, hg]
  exact List.forall_mem_cons.2 ⟨⟨i, hfollow.executing hi hjump⟩, hrest⟩

theorem interrupted_of_advanced {step : Step} (hrest : ∀ g ∈ rest, ∃ i, g.Executing i)
    (hi : f.closure.template.body.code[f.pc]? = some i)
    (h : Advanced i.opcode m₀ { f with pc := f.pc + 1 } rest low step m) : Interrupted step m := by
  cases step with
  | next =>
    rcases h with hm | ⟨m₁, hm₁, hjump, m₂, g, hsilent, -, rfl⟩
    · exact lined_of_running hm hrest
    · have hsusp := suspended_of_running hm₁ hrest hi hjump
      rw [Machine.Suspended, ← hsilent.quiet.frames] at hsusp
      exact hsusp
  | returned v => exact lined_of_running h hrest
  | native body this args constructing => exact suspended_of_running h.1 hrest hi h.2.1
  | compare method a b => exact suspended_of_running h.1 hrest hi h.2

variable {call : Callback}

/-- At the start of the instruction `i` in a loop of the call made at `m₀`, with the other calls in the
middle of an instruction. -/
def Poised (m₀ : Machine) (i : Instruction) (m' : Machine) : Prop :=
  ∃ m f us, m₀.Above (f :: us) m ∧ (∀ g ∈ us ++ m₀.frames, ∃ i, g.Executing i) ∧
    f.closure.template.body.code[f.pc]? = some i ∧ m' = fetched m f (us ++ m₀.frames)

theorem poised_fetch :
    Triple (fun m => m₀.Busy (fun _ => True) m ∧ m.Lined) fetch
      (fun r => match r with | some i => Poised m₀ i | none => Machine.Lined)
      (fun _ => Machine.Lined) False := by
  rintro m ⟨⟨f, us, h, -⟩, hlined⟩
  have hrest : ∀ g ∈ us ++ m₀.frames, ∃ i, g.Executing i := by
    rw [Machine.Lined, h.frames] at hlined
    exact hlined
  refine (fetch_spec h.frames).mono (fun r m' hm' => ?_) fun s m' hm' => ?_
  · obtain ⟨hr, rfl⟩ := hm'
    cases r with
    | none => exact hlined
    | some i => exact ⟨m, f, us, h, hrest, hr.symm, rfl⟩
  · obtain ⟨_, _, -, -, -, rfl⟩ := hm'
    exact hrest

theorem interrupted_execute (i : Instruction) :
    Triple (Poised m₀ i) (execute i.opcode) Interrupted (fun _ => Machine.Lined) False := by
  rintro _ ⟨m, f, us, h, hrest, hi, rfl⟩
  refine (advances_execute i.opcode _ (h.fetched.running i.opcode)).mono ?_ ?_
  · exact fun step m' hm' => interrupted_of_advanced hrest hi hm'
  · exact fun s m' hm' => lined_of_running hm'.1 hrest

theorem frames_complete (hcall : call.Quiet) (step : Step) (fs : List Frame) :
    Triple (fun m => m.frames = fs) (complete call step) (fun _ m => m.frames = fs)
      fun _ m => m.frames = fs := by
  have answered {x : Exec Value} (g : Value → Value)
      (hx : ∀ m₀, Keeps (Machine.Quiet m₀) (fun _ => True) x) :
      Triple (fun m => m.frames = fs) (x >>= fun v => andNext (push (g v)))
        (fun _ m => m.frames = fs) fun _ m => m.frames = fs := by
    refine .bind (J := fun _ m => m.frames = fs) (fun m hm => ?_) fun v => ?_
    · exact (hx m m (.refl m)).mono (fun _ _ h => h.frames.trans hm) fun _ _ h => h.1.frames.trans hm
    · exact .bind (.modify fun m hm => hm) fun _ => .pure fun _ h => h
  cases step with
  | next => exact .pure fun _ h => h
  | returned v => exact .pure fun _ h => h
  | native body this args constructing =>
    exact answered id fun _ => quiet_runNative hcall body this args constructing
  | compare method a b => exact answered (fun v => .bool !v.truthy) (hcall method (some a) [b])

theorem Interrupted.lined {step : Step} {m : Machine} (h : Interrupted step m) : m.Lined := by
  cases step with
  | native body this args constructing => exact Machine.Suspended.lined h
  | compare method a b => exact Machine.Suspended.lined h
  | next => exact h
  | returned v => exact h

theorem lined_complete (hcall : call.Quiet) (step : Step) :
    Triple (Interrupted step) (complete call step) (fun _ => Machine.Lined)
      (fun _ => Machine.Lined) := by
  intro m hm
  have hlined {m' : Machine} (h : m'.frames = m.frames) : m'.Lined := by
    rw [Machine.Lined, h]
    exact hm.lined
  exact (frames_complete hcall step m.frames m rfl).mono (fun _ _ h => hlined h) fun _ _ h => hlined h

theorem frames_located (s : Signal) (position : Option Position) (m : Machine) :
    (located s position m).2.frames = m.frames := by
  cases s <;> rfl

theorem lined_dispatch (hcall : call.Quiet) :
    Triple (fun m => m₀.Busy (fun _ => True) m ∧ m.Lined) (dispatch call) (fun _ => Machine.Lined)
      (fun _ => Machine.Lined) := by
  refine dispatch_rule (X := Poised m₀) (poised_fetch.weaken.conseq (fun _ h => h) ?_ fun _ _ h => h)
    fun i => ?_
  · intro r m hm
    cases r with
    | none => exact hm
    | some i => exact hm
  · refine .bind ((interrupted_execute i).weaken.conseq (fun _ h => h) (fun _ _ h => h) ?_) fun step =>
      (lined_complete hcall step).conseq (fun _ h => h) (fun _ _ h => h) ?_
    all_goals
      intro s m hm
      rw [Machine.Lined, frames_located]
      exact hm

theorem mem_tail_of_caught {store : Store} {base : Nat} {s s' : Signal}
    {trace trace' : List TraceEntry} {stack stack' : List Value} {fs below : List Frame} {f : Frame}
    (h : land store base s trace stack fs = (.caught f below stack' s', trace')) :
    ∀ g ∈ below, g ∈ fs.tail := by
  obtain ⟨above, g, _, _, rfl, -, -⟩ := exists_of_caught h
  intro q hq
  cases above with
  | nil => exact hq
  | cons a above => exact List.mem_append_right _ (List.mem_cons_of_mem _ hq)

theorem lined_unwind (s : Signal) (base : Nat) :
    Triple Machine.Lined (unwind s base) (fun _ => Machine.Lined) (fun _ _ => True) := by
  refine .get_bind fun m hm => ?_
  cases hland : land m.store base s m.raiseTrace m.stack m.frames with
  | mk landing trace =>
    cases landing with
    | escaped frames stack s' =>
      exact .bind (J := fun _ _ => True) (.set fun _ _ => trivial) fun _ => .signal fun _ _ => trivial
    | caught f below stack s' =>
      have hbelow : Machine.Lined { m with frames := f :: below, stack } :=
        fun g hg => hm g (mem_tail_of_caught hland g hg)
      refine .bind (J := fun _ => Machine.Lined) (.set fun _ _ => hbelow) fun _ => ?_
      refine .bind (J := fun _ => Machine.Lined) (fun m' hm' => ?_) fun v =>
        .bind (.modify fun _ h => h) fun _ => .modify fun _ h => h
      obtain ⟨v, store, heq, -, -⟩ := exceptionOf_eq s' m'
      rw [heq]
      exact hm'

theorem lined_finishFrame (v : Value) (base : Nat) :
    Triple Machine.Lined (finishFrame v base) (fun r m => r = none → m.Lined) (fun _ _ => True) := by
  intro m hm
  cases hframes : m.frames with
  | nil =>
    rw [finishFrame, get_bind_apply, hframes]
    intro h
    cases h
  | cons f below =>
    rw [finishFrame_eq hframes]
    split
    · intro h
      cases h
    · intro _ g hg
      refine hm g ?_
      rw [hframes]
      exact List.mem_of_mem_tail hg

theorem lined_cycle (hcall : call.Quiet) (base : Nat) :
    Triple (fun m => m₀.Busy (fun _ => True) m ∧ m.Lined) (cycle call base)
      (fun r m => r = none → m.Lined) (fun _ _ => True) :=
  cycle_rule (lined_dispatch hcall) (fun v => lined_finishFrame v base) (fun _ _ _ h _ => h)
    fun s => (lined_unwind s base).conseq (fun _ h => h) (fun _ _ h _ => h) fun _ _ h => h

end Exec

/-- In a loop the innermost call is about to go on, and all others are in the middle of an
instruction. Outside a loop, all are. -/
def Work.Suspended (w : Work) : Prop :=
  match w.activity with
  | .loop _ => w.machine.Lined
  | _ => w.machine.Suspended

theorem Machine.Suspended.quiet {m m' : Machine} (h : m.Suspended) (h' : m.Quiet m') :
    m'.Suspended := by
  rw [Machine.Suspended, h'.frames]
  exact h

namespace Exec

theorem suspended_of_instruct {m₀ m m' : Machine} {step : Step} (hbusy : m₀.Busy (fun _ => True) m)
    (hlined : m.Lined) (h : instruct m = .ok (some step) m') : Interrupted step m' := by
  have hinstruct : Triple (fun m => m₀.Busy (fun _ => True) m ∧ m.Lined) instruct
      (fun r m => ∀ step, r = some step → Interrupted step m) (fun _ => Machine.Lined) False := by
    refine .bind poised_fetch fun r => ?_
    cases r with
    | none => exact .pure fun _ _ _ h => nomatch h
    | some i =>
      refine .bind (interrupted_execute i) fun step => .pure fun m hm step' heq => ?_
      cases heq
      exact hm
  exact hinstruct.of_ok ⟨hbusy, hlined⟩ h step rfl

end Exec

theorem Leads.suspended {store : Store} {w w' : Work} (h : Leads w w')
    (hgood : w.Good (fun _ => True) store) (hw : w.Suspended) : w'.Suspended := by
  cases h with
  | enter h =>
    obtain ⟨m₁, g, hsilent, -, rfl⟩ := Exec.started_of_ok h
    exact Machine.Suspended.quiet hw hsilent.quiet
  | native h => exact Machine.Suspended.quiet hw (Exec.started_of_ok h).1.quiet
  | round h =>
    obtain ⟨m₀, -, rfl, hbusy⟩ := hgood
    exact (Exec.lined_cycle (Exec.quiet_invoke _) _).of_ok ⟨hbusy, hw⟩ h rfl
  | host h =>
    obtain ⟨m₀, -, rfl, hbusy⟩ := hgood
    exact Exec.suspended_of_instruct hbusy hw h
  | compare h =>
    obtain ⟨m₀, -, rfl, hbusy⟩ := hgood
    exact Exec.suspended_of_instruct hbusy hw h
  | calls => exact hw
  | callsMethod h => exact Machine.Suspended.quiet hw ((Exec.quiet_find _ _).of_ok (.refl _) h)
  | resumes h => exact Machine.Suspended.quiet hw (Exec.quiet_answered (Exec.quiet_invoke _ _ _ _ _) h)
  | resumesMethod h =>
    exact Machine.Suspended.quiet hw
      (Exec.quiet_answered (Exec.quiet_callMethod (Exec.quiet_invoke _) _ _ _) h)
  | newArray h => exact Machine.Suspended.quiet hw ((Exec.quiet_newArray _).of_ok (.refl _) h)
  | typeName => exact hw
  | readDatum => exact hw
  | writeDatum => exact hw

theorem Reaches.suspended {store : Store} {w w' : Work} (h : Reaches w w')
    (hgood : w.Good (fun _ => True) store) (hw : w.Suspended) : w'.Suspended := by
  induction h with
  | refl => exact hw
  | step hreach hstep ih => exact hstep.suspended (hreach.good Frame.invariant_true hgood) ih

end ScriptMachine
