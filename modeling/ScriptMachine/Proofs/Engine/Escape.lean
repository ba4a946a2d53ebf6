import ScriptMachine.Proofs.Engine.Fuel
import ScriptMachine.Proofs.Engine.Origin
import ScriptMachine.Proofs.Engine.Rounds

namespace ScriptMachine

/-- The calls left and the place, kept in an error itself and for a raise by the machine. -/
def Signal.record (m : Machine) : Signal → List TraceEntry × Option Position
  | error fault => (fault.trace, fault.position)
  | raise _ => (m.raiseTrace, m.raisePosition)

/-- A call as traces show it, with the source of its static block. -/
def Frame.entry (store : Store) (f : Frame) : TraceEntry :=
  f.traceEntry (store.staticsCell f.closure.statics).source

/-- The place of the instruction before the counter, or else the line of the function. -/
def Frame.place (f : Frame) : Position :=
  (f.closure.template.body.code[f.pc - 1]?.bind (·.position)).getD ⟨f.closure.template.line, 0⟩

theorem Frame.entry_congr {store store' : Store} (h : store'.statics = store.statics) (f : Frame) :
    f.entry store' = f.entry store := by
  rw [entry, entry, Store.staticsCell, Store.staticsCell, h]

theorem Frame.Executing.place_eq {f : Frame} {i : Instruction} (h : f.Executing i) :
    f.place = i.position.getD ⟨f.closure.template.line, 0⟩ := by
  rw [place, h.2]
  rfl

theorem Frame.Executing.line_eq {f : Frame} {i : Instruction} (h : f.Executing i) :
    f.currentLine = (i.position.map (·.line)).getD f.closure.template.line := by
  rw [currentLine, Template.lineBefore, Block.lineAt?, h.2]
  rfl

namespace Signal

variable {store : Store} {trace : List TraceEntry} {fs : List Frame}

theorem leaveAll_raise (v : Value) :
    (raise v).leaveAll store trace fs = (raise v, trace ++ fs.map (Frame.entry store)) := by
  induction fs generalizing trace with
  | nil => rw [List.map_nil, List.append_nil]; rfl
  | cons f fs ih =>
    have hstep : (raise v).leaveAll store trace (f :: fs) =
        (raise v).leaveAll store (trace ++ [f.entry store]) fs := rfl
    rw [hstep, ih, List.append_assoc, List.singleton_append, List.map_cons]

theorem leaveAll_error (fault : Fault) :
    (error fault).leaveAll store trace fs =
      (error { fault with trace := fault.trace ++ fs.map (Frame.entry store) }, trace) := by
  induction fs generalizing fault with
  | nil => rw [List.map_nil, List.append_nil]; rfl
  | cons f fs ih =>
    have hstep : (error fault).leaveAll store trace (f :: fs) =
        (error (fault.leave (f.entry store))).leaveAll store trace fs := rfl
    rw [hstep, ih, Fault.leave]
    simp only [List.append_assoc, List.singleton_append, List.map_cons]

theorem record_leaveAll (s : Signal) (m : Machine) (fs frames : List Frame) (stack : List Value) :
    (s.leaveAll m.store m.raiseTrace fs).1.record
        { m with frames, stack, raiseTrace := (s.leaveAll m.store m.raiseTrace fs).2 } =
      ((s.record m).1 ++ fs.map (Frame.entry m.store), (s.record m).2) := by
  cases s with
  | error fault => rw [leaveAll_error]; rfl
  | raise v => rw [leaveAll_raise]; rfl

theorem essence_leaveAll (s : Signal) : (s.leaveAll store trace fs).1.essence = s.essence := by
  cases s with
  | error fault => rw [leaveAll_error]; rfl
  | raise v => rw [leaveAll_raise]

end Signal

namespace Exec

variable (s : Signal) (position : Option Position) (m : Machine)

theorem essence_located : (located s position m).1.essence = s.essence := by
  cases s <;> rfl

theorem record_located :
    (located s position m).1.record (located s position m).2 =
      ((s.record m).1, (s.record m).2.or
        (position.or (m.frames.head?.map fun f => ⟨f.closure.template.line, 0⟩))) := by
  cases s <;> rfl

theorem store_located : (located s position m).2.store = m.store := by
  cases s <;> rfl

theorem catchable_located : (located s position m).1.catchable = s.catchable := by
  cases s <;> rfl

theorem takes_located (f : Frame) : f.Takes (located s position m).1 ↔ f.Takes s := by
  rw [Frame.Takes, Frame.Takes, catchable_located]

end Exec

/-- A signal on its way out of the calls `F`. It has recorded those that it has left, and the place in
the first of them. -/
structure Escaping (F : List Frame) (store : Store) (e : Cause ⊕ Value) (s : Signal) (m : Machine) :
    Prop where
  essence : s.essence = e
  left : ∃ gone, F = gone ++ m.frames ∧
    s.record m = (gone.map (Frame.entry store), gone.head?.map Frame.place)
  statics : m.store.statics = store.statics

theorem Escaping.not_takes {F upper lower : List Frame} {store : Store} {e : Cause ⊕ Value}
    {s : Signal} {m : Machine} (h : Escaping F store e s m) (hnone : ∀ f ∈ F, f.handlers = [])
    (hframes : m.frames = upper ++ lower) : ∀ f ∈ upper, ¬ f.Takes s := by
  obtain ⟨gone, hF, -⟩ := h.left
  intro f hf ht
  refine ht.2 (hnone f ?_)
  rw [hF, hframes]
  exact List.mem_append_right _ (List.mem_append_left _ hf)

section Round

variable {F us lower : List Frame} {store : Store} {e : Cause ⊕ Value} {s : Signal}
  {m m₁ m₂ : Machine} {f g : Frame} {i : Instruction} {call : Callback} {base : Nat}

/-- A signal that no call of the loop takes leaves the loop in which it arises, or into which it
comes. -/
theorem Escaping.round (h : Escaping F store e s m₂) (htakes : ∀ f ∈ g :: us, ¬ f.Takes s)
    (hframes : m₂.frames = (g :: us) ++ lower) (hg : g.Executing i) (hbase : lower.length = base)
    (hfetch : Exec.fetch m = .ok (some i) m₁)
    (hrun : (Exec.execute i.opcode >>= Exec.complete call) m₁ = .error (.failed s) m₂) :
    ∃ s' m', Exec.cycle call base m = .error (.failed s') m' ∧ Escaping F store e s' m' := by
  obtain ⟨gone, hF, hrecord⟩ := h.left
  have hframes' : (Exec.located s i.position m₂).2.frames = (g :: us) ++ lower := by
    rw [Exec.frames_located, hframes]
  have htakes' : ∀ f ∈ g :: us, ¬ f.Takes (Exec.located s i.position m₂).1 := by
    intro f hf
    rw [Exec.takes_located]
    exact htakes f hf
  have hcycle : Exec.cycle call base m = _ := (Exec.cycle_of_failed hfetch hrun).trans
    (Exec.bind_of_error (Exec.unwind_escaped hframes' (List.cons_ne_nil g us) htakes' hbase))
  refine ⟨_, _, hcycle, ?_, ⟨gone ++ (g :: us), ?_, ?_⟩, ?_⟩
  · rw [Signal.essence_leaveAll, Exec.essence_located, h.essence]
  · rw [hF, hframes, List.append_assoc]
  · rw [Signal.record_leaveAll, Exec.record_located, hrecord, Exec.store_located]
    have hentries : (g :: us).map (Frame.entry m₂.store) = (g :: us).map (Frame.entry store) :=
      List.map_congr_left fun f _ => f.entry_congr h.statics
    -- the place is that of the frame that is left first, which may be the one here
    have hplace : (gone.head?.map Frame.place).or
        (i.position.or (m₂.frames.head?.map fun f => ⟨f.closure.template.line, 0⟩)) =
        (gone ++ (g :: us)).head?.map Frame.place := by
      cases gone with
      | cons f gone => rfl
      | nil =>
        rw [hframes, List.nil_append, List.head?_cons, Option.map_some, hg.place_eq]
        cases i.position <;> rfl
    rw [hentries, hplace, List.map_append]
  · exact (congrArg Store.statics (Exec.store_located ..)).trans h.statics

theorem Escaping.of_cycle {s' : Signal} {m' : Machine} (h : Escaping F store e s m₂)
    (hframes : m₂.frames = (g :: us) ++ lower) (hg : g.Executing i) (hbase : lower.length = base)
    (hfetch : Exec.fetch m = .ok (some i) m₁)
    (hrun : (Exec.execute i.opcode >>= Exec.complete call) m₁ = .error (.failed s) m₂)
    (hcycle : Exec.cycle call base m = .error (.failed s') m') : Escaping F store e s' m' := by
  rcases first_taker s (g :: us) with ⟨above, f, r, rs, below, hsplit, habove, hc, hf⟩ | hnone
  · have hframes' : (Exec.located s i.position m₂).2.frames = above ++ f :: (below ++ lower) := by
      rw [Exec.frames_located, hframes, hsplit, List.append_assoc, List.cons_append]
    have hlen : base ≤ (below ++ lower).length := by
      rw [List.length_append, hbase]
      exact Nat.le_add_left ..
    obtain ⟨v, store', -, -, hcaught⟩ := Exec.unwind_caught (s := (Exec.located s i.position m₂).1)
      hframes' (fun q hq => by rw [Exec.takes_located]; exact habove q hq)
      (by rw [Exec.catchable_located]; exact hc) hf hlen
    cases hcycle.symm.trans ((Exec.cycle_of_failed hfetch hrun).trans (Exec.bind_of_ok hcaught))
  · obtain ⟨s'', m'', heq, hescaping⟩ := h.round hnone hframes hg hbase hfetch hrun
    cases hcycle.symm.trans heq
    exact hescaping

end Round

/-- The program gives the signal back. It may look at the machine before, and make no calls. -/
def HostProgram.PassesOn (s : Signal) : HostProgram → Prop
  | finish outcome => outcome = .error s
  | call .. => False
  | callMethod .. => False
  | newArray _ next => ∀ v, (next v).PassesOn s
  | typeName _ next => ∀ name, (next name).PassesOn s
  | readDatum _ next => ∀ d, (next d).PassesOn s
  | writeDatum _ _ next => next.PassesOn s

theorem HostProgram.PassesOn.run {s : Signal} {p : HostProgram} (h : p.PassesOn s) (m : Machine) :
    ∃ store, m.store.Untouched store ∧
      ∀ call, p.run call m = .error (.failed s) { m with store } := by
  induction p generalizing m with
  | finish outcome =>
    cases h
    exact ⟨m.store, .refl _, fun _ => rfl⟩
  | call callee this args next => exact h.elim
  | callMethod receiver name args next => exact h.elim
  | newArray items next ih =>
    obtain ⟨store, hstore, hrun⟩ := ih _ (h _) { m with store := (m.store.newArray items.toArray).2 }
    exact ⟨store, (m.store.untouched_newArray _).trans hstore, fun call => hrun call⟩
  | typeName v next ih => exact ih _ (h _) m
  | readDatum id next ih => exact ih _ (h _) m
  | writeDatum id d next ih =>
    obtain ⟨store, hstore, hrun⟩ := ih h { m with store := m.store.setDatum id d }
    exact ⟨store, (m.store.untouched_setDatum id d).trans hstore, fun call => hrun call⟩

theorem Escaping.withStore {F : List Frame} {store store' : Store} {e : Cause ⊕ Value} {s : Signal}
    {m : Machine} (h : Escaping F store e s m) (hstore : m.store.Untouched store') :
    Escaping F store e s { m with store := store' } := by
  refine ⟨h.essence, ?_, hstore.statics.trans h.statics⟩
  cases s with
  | error fault => exact h.left
  | raise v => exact h.left

/-- A program that is in a call passes on the failure of that call. -/
def HostProgram.Forwards (m : Machine) : HostProgram → Prop
  | call callee this args next =>
    ∀ n s m', Exec.invoke n callee this args m = .error (.failed s) m' →
      (next (.error s)).PassesOn s
  | callMethod receiver name args next =>
    ∀ n s m', (do
      let method ← Exec.find receiver name
      Exec.invoke n method (some receiver) args) m = .error (.failed s) m' →
      (next (.error s)).PassesOn s
  | _ => True

/-- From one state to one inside it. All programs that are in a call on the way forward its
failure. -/
inductive Exposed : Work → Work → Prop
  | refl (w : Work) : Exposed w w
  | step {w w' w'' : Work} (h : Leads w w')
      (hforward : ∀ p callee this args, w.activity = .program p →
        w'.activity = .call callee this args → p.Forwards w.machine)
      (h' : Exposed w' w'') : Exposed w w''

theorem Exposed.reaches {w w' : Work} (h : Exposed w w') : Reaches w w' := by
  induction h with
  | refl w => exact .refl
  | step h _ _ ih => exact .head h ih

/-- What is at work, run with a budget of `n` for calls and of `k` rounds for the loop itself. -/
def Activity.run (n k : Nat) : Activity → Exec Value
  | call callee this args => Exec.invoke n callee this args
  | program p => p.run (Exec.invoke n)
  | loop base => Exec.loop (Exec.invoke n) base k

/-- The work fails with the signal, given budget enough. -/
def Work.Fails (w : Work) (s : Signal) (m' : Machine) : Prop :=
  ∃ N, ∀ n k, N ≤ n → N ≤ k → w.activity.run n k w.machine = .error (.failed s) m'

theorem Work.fails_of_cycle {n₀ base N : Nat} {m m' : Machine} {s : Signal}
    (h : ∀ n, N ≤ n → Exec.cycle (Exec.invoke n) base m = .error (.failed s) m') :
    Work.Fails ⟨n₀, .loop base, m⟩ s m' := by
  refine ⟨N + 1, fun n k hn hk => ?_⟩
  obtain ⟨k, rfl⟩ : ∃ j, k = j + 1 := ⟨k - 1, by omega⟩
  exact Exec.bind_of_error (h n (by omega))

namespace Exec

theorem instruct_eq_ok {m m' : Machine} {step : Step} (h : instruct m = .ok (some step) m') :
    ∃ i m₁, fetch m = .ok (some i) m₁ ∧ execute i.opcode m₁ = .ok step m' := by
  rw [instruct] at h
  cases hfetch : fetch m with
  | error stop m₁ =>
    rw [bind_of_error hfetch] at h
    cases h
  | ok r m₁ =>
    rw [bind_of_ok hfetch] at h
    cases r with
    | none => cases h
    | some i =>
      dsimp only at h
      cases hexec : execute i.opcode m₁ with
      | error stop m₂ =>
        rw [bind_of_error hexec] at h
        cases h
      | ok step' m₂ =>
        rw [bind_of_ok hexec] at h
        cases h
        exact ⟨i, m₁, rfl, hexec⟩

/-- When what an instruction has left to be done fails, the innermost call is still in the middle of
that instruction. -/
theorem executing_of_complete {call : Callback} {m₀ m m₁ m₂ : Machine} {step : Step} {s : Signal}
    (hcall : call.Quiet) (hbusy : m₀.Busy (fun _ => True) m)
    (hinstruct : instruct m = .ok (some step) m₁)
    (hcomplete : complete call step m₁ = .error (.failed s) m₂) :
    ∃ i m₃ g us, fetch m = .ok (some i) m₃ ∧
      (execute i.opcode >>= complete call) m₃ = .error (.failed s) m₂ ∧
      m₂.frames = (g :: us) ++ m₀.frames ∧ g.Executing i := by
  obtain ⟨f, us, habove, -⟩ := hbusy
  obtain ⟨i, m₃, hfetch, hexec⟩ := instruct_eq_ok hinstruct
  have hspec := fetch_spec habove.frames
  rw [hfetch] at hspec
  obtain ⟨hi, rfl⟩ := hspec
  have hadvanced := (advances_execute i.opcode).of_ok (habove.fetched.running i.opcode) hexec
  have hrunning : Running i.opcode (fetched m f (us ++ m₀.frames)) { f with pc := f.pc + 1 }
      (us ++ m₀.frames) (cutTo f.stackBase m.stack) m₁ ∧ i.opcode.jumpTarget? = none := by
    cases step with
    | next => cases hcomplete
    | returned v => cases hcomplete
    | native body this args constructing => exact ⟨hadvanced.1, hadvanced.2.1⟩
    | compare method a b => exact hadvanced
  obtain ⟨g, hg, hfollow⟩ := hrunning.1.frames
  have hframes := (frames_complete hcall step m₁.frames).of_failed rfl hcomplete
  exact ⟨i, _, g, us, hfetch, (bind_of_ok hexec).trans hcomplete, hframes.trans hg,
    hfollow.executing hi.symm hrunning.2⟩

end Exec

section Outwards

variable {F : List Frame} {store : Store} {e : Cause ⊕ Value}

/-- The work fails with a signal on its way out of the calls `F`. -/
def Work.Escapes (F : List Frame) (store : Store) (e : Cause ⊕ Value) (w : Work) : Prop :=
  ∃ s m', w.Fails s m' ∧ Escaping F store e s m'

theorem Work.escapes_of_complete {n N : Nat} {m₀ m m₁ m₂ : Machine} {step : Step} {s : Signal}
    (hbusy : m₀.Busy (fun _ => True) m) (hnone : ∀ f ∈ F, f.handlers = [])
    (hinstruct : Exec.instruct m = .ok (some step) m₁)
    (hcomplete : Exec.complete (Exec.invoke N) step m₁ = .error (.failed s) m₂)
    (h : Escaping F store e s m₂) : Work.Escapes F store e ⟨n, .loop m₀.frames.length, m⟩ := by
  obtain ⟨i, m₃, g, us, hfetch, hrun, hg, hexecuting⟩ :=
    Exec.executing_of_complete (Exec.quiet_invoke N) hbusy hinstruct hcomplete
  obtain ⟨s', m', hcycle, hescaping⟩ :=
    h.round (h.not_takes hnone hg) hg hexecuting rfl hfetch hrun
  refine ⟨s', m', Work.fails_of_cycle (N := N) fun n hn => ?_, hescaping⟩
  exact (Exec.cycle_extends (Exec.invoke_extends hn) _).eq_of_failed hcycle

theorem HostProgram.PassesOn.escapes {s : Signal} {m : Machine} {p : HostProgram}
    (hp : p.PassesOn s) (h : Escaping F store e s m) :
    ∃ m', (∀ n, p.run (Exec.invoke n) m = .error (.failed s) m') ∧ Escaping F store e s m' := by
  obtain ⟨store', hstore, hrun⟩ := hp.run m
  exact ⟨_, fun n => hrun (Exec.invoke n), h.withStore hstore⟩

/-- A signal that leaves a state leaves the one around it. -/
theorem Leads.escapes {w w' : Work} {store' : Store} (h : Leads w w')
    (hforward : ∀ p callee this args, w.activity = .program p →
      w'.activity = .call callee this args → p.Forwards w.machine)
    (hgood : w.Good (fun _ => True) store') (hnone : ∀ f ∈ F, f.handlers = [])
    (hw' : w'.Escapes F store e) : w.Escapes F store e := by
  obtain ⟨s, m₂, ⟨N, hfails⟩, hescaping⟩ := hw'
  cases h with
  | enter h =>
    refine ⟨s, m₂, ⟨N + 1, fun n k hn hk => ?_⟩, hescaping⟩
    obtain ⟨n, rfl⟩ : ∃ j, n = j + 1 := ⟨n - 1, by omega⟩
    exact (Exec.bind_of_ok h).trans (hfails n n (by omega) (by omega))
  | native h =>
    refine ⟨s, m₂, ⟨N + 1, fun n k hn hk => ?_⟩, hescaping⟩
    obtain ⟨n, rfl⟩ : ∃ j, n = j + 1 := ⟨n - 1, by omega⟩
    exact (Exec.bind_of_ok h).trans (Exec.bind_of_error (hfails n n (by omega) (by omega)))
  | @round n₀ base m m₁ h =>
    refine ⟨s, m₂, ⟨max N n₀ + 1, fun n k hn hk => ?_⟩, hescaping⟩
    obtain ⟨k, rfl⟩ : ∃ j, k = j + 1 := ⟨k - 1, by omega⟩
    have hcycle := (Exec.cycle_extends (Exec.invoke_extends (k := n) (by omega)) base).eq_of_ok h
    exact (Exec.bind_of_ok hcycle).trans (hfails n k (by omega) (by omega))
  | @host n₀ base m m₁ p self given constructing h =>
    obtain ⟨m₀, -, rfl, hbusy⟩ := hgood
    have hrun : (p self given).run (Exec.invoke N) m₁ = .error (.failed s) m₂ :=
      hfails N N (Nat.le_refl N) (Nat.le_refl N)
    exact Work.escapes_of_complete hbusy hnone h
      (Exec.bind_of_error (Exec.bind_of_error hrun)) hescaping
  | @compare n₀ base m m₁ method a b h =>
    obtain ⟨m₀, -, rfl, hbusy⟩ := hgood
    have hrun : Exec.invoke N method (some a) [b] m₁ = .error (.failed s) m₂ :=
      hfails N N (Nat.le_refl N) (Nat.le_refl N)
    exact Work.escapes_of_complete hbusy hnone h (Exec.bind_of_error hrun) hescaping
  | @calls n₀ callee this args next m =>
    have hcall (n : Nat) (hn : N ≤ n) : Exec.invoke n callee this args m = .error (.failed s) m₂ :=
      hfails n N hn (Nat.le_refl N)
    have hp := hforward _ callee this args rfl rfl N s m₂ (hcall N (Nat.le_refl N))
    obtain ⟨m', hrun, hescaping'⟩ := hp.escapes hescaping
    refine ⟨s, m', ⟨N, fun n k hn _ => ?_⟩, hescaping'⟩
    exact (Exec.bind_of_ok (Exec.attempt_of_failed (hcall n hn))).trans (hrun n)
  | @callsMethod n₀ receiver method name args next m m₁ h =>
    have hcall (n : Nat) (hn : N ≤ n) : (do
        let method ← Exec.find receiver name
        Exec.invoke n method (some receiver) args) m = .error (.failed s) m₂ :=
      (Exec.bind_of_ok h).trans (hfails n N hn (Nat.le_refl N))
    have hp := hforward _ method (some receiver) args rfl rfl N s m₂ (hcall N (Nat.le_refl N))
    obtain ⟨m', hrun, hescaping'⟩ := hp.escapes hescaping
    refine ⟨s, m', ⟨N, fun n k hn _ => ?_⟩, hescaping'⟩
    exact (Exec.bind_of_ok (Exec.attempt_of_failed (hcall n hn))).trans (hrun n)
  | @resumes n₀ callee this args next m m₁ outcome h =>
    refine ⟨s, m₂, ⟨max N n₀, fun n k hn hk => ?_⟩, hescaping⟩
    have hcall := Exec.Extends.attempt
      (Exec.invoke_extends (n := n₀) (k := n) (by omega) callee this args)
    exact (Exec.bind_of_ok (hcall.eq_of_ok h)).trans (hfails n k (by omega) (by omega))
  | @resumesMethod n₀ receiver name args next m m₁ outcome h =>
    refine ⟨s, m₂, ⟨max N n₀, fun n k hn hk => ?_⟩, hescaping⟩
    have hcall := Exec.Extends.attempt (Exec.Extends.bind (.refl (Exec.find receiver name))
      fun method => Exec.invoke_extends (n := n₀) (k := n) (by omega) method (some receiver) args)
    exact (Exec.bind_of_ok (hcall.eq_of_ok h)).trans (hfails n k (by omega) (by omega))
  | newArray h =>
    refine ⟨s, m₂, ⟨N, fun n k hn hk => ?_⟩, hescaping⟩
    exact (Exec.bind_of_ok h).trans (hfails n k hn hk)
  | typeName => exact ⟨s, m₂, ⟨N, hfails⟩, hescaping⟩
  | readDatum => exact ⟨s, m₂, ⟨N, hfails⟩, hescaping⟩
  | writeDatum => exact ⟨s, m₂, ⟨N, hfails⟩, hescaping⟩

theorem Exposed.escapes {w w' : Work} {store' : Store} (h : Exposed w w')
    (hgood : w.Good (fun _ => True) store') (hnone : ∀ f ∈ F, f.handlers = [])
    (hw' : w'.Escapes F store e) : w.Escapes F store e := by
  induction h with
  | refl w => exact hw'
  | step h hforward _ ih =>
    exact h.escapes hforward hgood hnone (ih (h.good Frame.invariant_true hgood) hw')

end Outwards

end ScriptMachine
