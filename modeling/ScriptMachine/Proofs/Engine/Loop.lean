import ScriptMachine.Proofs.Engine.Execute
import ScriptMachine.Proofs.Engine.Unwinding

namespace ScriptMachine

/-- A property of frames that holds at the start of a call and as the call goes on. -/
structure Frame.Invariant (P : Frame → Prop) : Prop where
  fresh {m : Machine} {g : Frame} : g.Fresh m → P g
  step {f g : Frame} {i : Instruction} : P f → f.closure.template.body.code[f.pc]? = some i →
    ({ f with pc := f.pc + 1 } : Frame).Follows i.opcode g → P g
  resume {f : Frame} {h : Handler} {hs : List Handler} : P f → f.handlers = h :: hs →
    P { f with pc := h.target, handlers := hs }

theorem Frame.invariant_true : Frame.Invariant fun _ => True :=
  ⟨fun _ => trivial, fun _ _ _ => trivial, fun _ _ => trivial⟩

/-- At work on a call made at `m₀`, with frames of its own, all with `P`. -/
def Machine.Busy (P : Frame → Prop) (m₀ m : Machine) : Prop :=
  ∃ f us, m₀.Above (f :: us) m ∧ ∀ g ∈ f :: us, P g

theorem Machine.Busy.quiet {P : Frame → Prop} {m₀ m m' : Machine} (h : m₀.Busy P m)
    (h' : m.Quiet m') : m₀.Busy P m' := by
  obtain ⟨f, us, habove, hP⟩ := h
  exact ⟨f, us, habove.quiet h', hP⟩

theorem Machine.Busy.push {P : Frame → Prop} {m₀ m : Machine} (h : m₀.Busy P m) (v : Value) :
    m₀.Busy P { m with stack := v :: m.stack } := by
  obtain ⟨f, us, habove, hP⟩ := h
  exact ⟨f, us, habove.push v, hP⟩

theorem Machine.Enters.busy {P : Frame → Prop} {m₀ m : Machine} (hP : Frame.Invariant P)
    (h : m₀.Enters m) : m₀.Busy P m := by
  obtain ⟨m₁, g, hg, habove⟩ := (Above.refl m₀).enter h
  refine ⟨g, [], habove, fun f hf => ?_⟩
  rw [List.mem_singleton.1 hf]
  exact hP.fresh hg

namespace Exec

/-- The machine after the instruction at the counter was fetched. -/
def fetched (m : Machine) (f : Frame) (rest : List Frame) : Machine :=
  { m with frames := { f with pc := f.pc + 1 } :: rest, executed := m.executed + 1 }

theorem top_eq {m : Machine} {f : Frame} {rest : List Frame} (hm : m.frames = f :: rest) :
    top m = .ok f m := by
  rw [top, get_bind_apply, hm]
  rfl

theorem setTop_eq {m : Machine} {f : Frame} {rest : List Frame} (hm : m.frames = f :: rest)
    (g : Frame → Frame) : setTop g m = .ok () { m with frames := g f :: rest } := by
  rw [setTop, get_bind_apply, hm]
  rfl

theorem pop_cases (m : Machine) :
    (∃ v rest, m.stack = v :: rest ∧ pop m = .ok v { m with stack := rest }) ∨
      pop m = .error (.failed (.ofCause (.breakdown .operandUnderflow))) m := by
  rw [pop, get_bind_apply]
  by_cases hfloor : m.stack.length ≤ m.floor
  · rw [if_pos hfloor]
    exact .inr rfl
  · rw [if_neg hfloor]
    cases m.stack with
    | nil => exact .inr rfl
    | cons v rest => exact .inl ⟨v, rest, rfl, rfl⟩

theorem find_cases (receiver : Value) (name : String) (m : Machine) :
    (∃ v, find receiver name m = .ok v m) ∨ ∃ s, find receiver name m = .error (.failed s) m := by
  have haccess : access m = .ok m.access m := rfl
  rw [find, get_bind_apply, bind_of_ok haccess]
  cases m.store.find m.access receiver name with
  | ok v => exact .inl ⟨v, rfl⟩
  | error c => exact .inr ⟨.ofCause c, rfl⟩

theorem fetch_eq {m : Machine} {f : Frame} {rest : List Frame} (hm : m.frames = f :: rest) :
    fetch m =
      match f.closure.template.body.code[f.pc]? with
      | none => .ok none m
      | some i =>
        match m.config.instructionLimit with
        | some limit =>
          if limit < m.executed + 1 then
            .error (.failed (.ofCause (.breakdown (.outOfInstructions limit)))) (fetched m f rest)
          else .ok (some i) (fetched m f rest)
        | none => .ok (some i) (fetched m f rest) := by
  rw [fetch, bind_of_ok (top_eq hm)]
  cases f.closure.template.body.code[f.pc]? with
  | none => rfl
  | some i =>
    dsimp only
    rw [bind_of_ok (setTop_eq hm _), modify_bind_apply, get_bind_apply]
    cases m.config.instructionLimit with
    | none => rfl
    | some limit =>
      dsimp only
      split <;> rfl

theorem fetch_spec {m : Machine} {f : Frame} {rest : List Frame} (hm : m.frames = f :: rest) :
    Ends
      (fun r m' => r = f.closure.template.body.code[f.pc]? ∧
        m' = if r.isSome then fetched m f rest else m)
      (fun s m' => ∃ i limit, f.closure.template.body.code[f.pc]? = some i ∧
        m.config.instructionLimit = some limit ∧
        s = .ofCause (.breakdown (.outOfInstructions limit)) ∧ m' = fetched m f rest)
      False (fetch m) := by
  rw [fetch_eq hm]
  cases f.closure.template.body.code[f.pc]? with
  | none => exact ⟨rfl, rfl⟩
  | some i =>
    cases m.config.instructionLimit with
    | none => exact ⟨rfl, rfl⟩
    | some limit =>
      dsimp only
      split
      · exact ⟨i, limit, rfl, rfl, rfl, rfl⟩
      · exact ⟨rfl, rfl⟩

theorem frames_of_fetch {m m' : Machine} {i : Instruction} (h : fetch m = .ok (some i) m') :
    ∃ f rest, m.frames = f :: rest ∧ f.closure.template.body.code[f.pc]? = some i ∧
      m' = fetched m f rest := by
  cases hframes : m.frames with
  | nil =>
    have htop : top m = .error (.failed (.ofCause (.breakdown .noFrame))) m := by
      rw [top, get_bind_apply, hframes]
      rfl
    rw [fetch, bind_of_error htop] at h
    cases h
  | cons f rest =>
    have hspec := fetch_spec hframes
    rw [h] at hspec
    exact ⟨f, rest, rfl, hspec.1.symm, hspec.2⟩

end Exec

/-- Calls that leave frames and operands as they were, however they end. -/
def Callback.Quiet (call : Callback) : Prop :=
  ∀ callee this args m₀, Exec.Keeps (Machine.Quiet m₀) (fun _ => True) (call callee this args)

section Callbacks

variable {call : Callback} {m₀ : Machine}

open Exec

theorem Exec.quiet_of_silent {α : Type} {x : Exec α} {B : Machine → Signal → Prop} {F : Prop}
    (hx : ∀ m, Keeps (Machine.Silent m) (B m) x F) : Keeps m₀.Quiet (fun _ => True) x F :=
  fun m hm => (hx m m (.refl m)).mono (fun _ _ h => hm.trans h.quiet) fun _ _ h =>
    ⟨hm.trans h.1.quiet, trivial⟩

theorem Exec.quiet_find (receiver : Value) (name : String) :
    Keeps m₀.Quiet (fun _ => True) (find receiver name) :=
  quiet_of_silent fun _ => silent_find receiver name

theorem Exec.quiet_newArray (items : List Value) : Keeps m₀.Quiet (fun _ => True) (newArray items) :=
  quiet_of_silent (B := fun _ _ => True) fun _ => silent_newArray items _

theorem Exec.quiet_callMethod (hcall : call.Quiet) (receiver : Value) (name : String)
    (args : List Value) :
    Keeps m₀.Quiet (fun _ => True)
      (find receiver name >>= fun method => call method (some receiver) args) :=
  .bind ((quiet_find receiver name).conseq (fun _ h => h) (fun _ _ h => h) fun _ _ h => h)
    fun method => hcall method (some receiver) args m₀

theorem HostProgram.quiet_run (hcall : call.Quiet) (p : HostProgram) :
    Keeps m₀.Quiet (fun _ => True) (p.run call) := by
  induction p with
  | finish outcome =>
    cases outcome with
    | ok v => exact .pure fun _ h => h
    | error s => exact .signal fun _ h => ⟨h, trivial⟩
  | call callee this args next ih => exact .bind (hcall callee this args m₀).attempt ih
  | callMethod receiver n args next ih =>
    exact .bind (quiet_callMethod hcall receiver n args).attempt ih
  | newArray items next ih => exact .bind (quiet_newArray items) ih
  | typeName v next ih =>
    exact .get_bind fun m _ => (ih _).conseq (fun _ h => h.2) (fun _ _ h => h) fun _ _ h => h
  | readDatum id next ih =>
    exact .get_bind fun m _ => (ih _).conseq (fun _ h => h.2) (fun _ _ h => h) fun _ _ h => h
  | writeDatum id d next ih =>
    exact .bind (.modify fun m hm => hm.withStore (m.store.untouched_setDatum id d)) fun _ => ih

namespace Exec

theorem quiet_runBody (hcall : call.Quiet) (body : NativeBody) (this : Value) (args : List Value) :
    Keeps m₀.Quiet (fun _ => True) (runBody call body this args) := by
  cases body with
  | host p => exact (p this args).quiet_run hcall
  | method method =>
    refine .get_bind fun m _ => ?_
    refine .bind (J := fun r m' => m₀.Quiet m' ∧ m'.store.Untouched r.2) (.ofExcept ?_ ?_) ?_
    · intro r m' hr hm'
      refine ⟨hm'.2, ?_⟩
      rw [hm'.1]
      exact Method.untouched_apply hr
    · exact fun c m' _ hm' => ⟨hm'.2, trivial⟩
    · exact fun r => .bind (.modify fun m' hm' => hm'.1.withStore hm'.2) fun _ => .pure fun _ h => h

theorem quiet_runNative (hcall : call.Quiet) (body : NativeBody) (this : Value) (args : List Value)
    (constructing : Option Value) :
    Keeps m₀.Quiet (fun _ => True) (runNative call body this args constructing) := by
  refine .bind (quiet_runBody hcall body this args) fun result => ?_
  cases constructing with
  | none => exact .pure fun _ h => h
  | some obj => exact .pure fun _ h => h

end Exec

end Callbacks

namespace Machine

variable {P : Frame → Prop} {m₀ m m' : Machine} {f : Frame} {us : List Frame}

theorem Above.fetched (h : m₀.Above (f :: us) m) :
    m₀.Above ({ f with pc := f.pc + 1 } :: us) (Exec.fetched m f (us ++ m₀.frames)) :=
  ⟨rfl, h.stack, h.nested, h.config, h.guard, h.store⟩

theorem Above.busy_of_running {i : Instruction} (hP : Frame.Invariant P)
    (h : m₀.Above (f :: us) m) (hf : ∀ g ∈ f :: us, P g)
    (hi : f.closure.template.body.code[f.pc]? = some i)
    (h' : Running i.opcode (Exec.fetched m f (us ++ m₀.frames)) { f with pc := f.pc + 1 }
      (us ++ m₀.frames) (cutTo f.stackBase m.stack) m') : m₀.Busy P m' := by
  obtain ⟨g, hg, habove⟩ := h.fetched.of_running h'
  refine ⟨g, us, habove, List.forall_mem_cons.2 ⟨?_, fun r hr => hf r (List.mem_cons_of_mem _ hr)⟩⟩
  exact hP.step (hf f (List.mem_cons_self ..)) hi hg

theorem Above.busy_of_advanced {i : Instruction} {step : Step} (hP : Frame.Invariant P)
    (h : m₀.Above (f :: us) m) (hf : ∀ g ∈ f :: us, P g)
    (hi : f.closure.template.body.code[f.pc]? = some i)
    (h' : Advanced i.opcode (Exec.fetched m f (us ++ m₀.frames)) { f with pc := f.pc + 1 }
      (us ++ m₀.frames) (cutTo f.stackBase m.stack) step m') : m₀.Busy P m' := by
  rcases h'.running_or_enters with hm' | ⟨m₁, hm₁, henter⟩
  · exact h.busy_of_running hP hf hi hm'
  · obtain ⟨g, us, habove, hg⟩ := h.busy_of_running hP hf hi hm₁
    obtain ⟨m₂, r, hr, habove⟩ := habove.enter henter
    exact ⟨r, g :: us, habove, List.forall_mem_cons.2 ⟨hP.fresh hr, hg⟩⟩

end Machine

namespace Exec

variable {P : Frame → Prop} {call : Callback} {m₀ : Machine}

/-- At the start of the instruction `i` of the innermost frame of the loop. -/
def Fetched (P : Frame → Prop) (m₀ : Machine) (i : Instruction) (m' : Machine) : Prop :=
  ∃ m f us, m₀.Above (f :: us) m ∧ (∀ g ∈ f :: us, P g) ∧
    f.closure.template.body.code[f.pc]? = some i ∧ m' = fetched m f (us ++ m₀.frames)

theorem busy_fetch (hP : Frame.Invariant P) :
    Triple (m₀.Busy P) fetch
      (fun r => match r with | some i => Fetched P m₀ i | none => m₀.Busy P) fun _ => m₀.Busy P := by
  rintro m ⟨f, us, h, hf⟩
  refine (fetch_spec h.frames).weaken.mono (fun r m' hm' => ?_) fun s m' hm' => ?_
  · obtain ⟨hr, rfl⟩ := hm'
    cases r with
    -- the frame has come to the end of its code and will return
    | none => exact ⟨f, us, h, hf⟩
    | some i => exact ⟨m, f, us, h, hf, hr.symm, rfl⟩
  · obtain ⟨i, limit, hi, -, -, rfl⟩ := hm'
    -- the counter has moved, as it does for an instruction without effect
    exact ⟨_, us, h.fetched, List.forall_mem_cons.2
      ⟨hP.step (hf f (List.mem_cons_self ..)) hi (.refl _),
        fun g hg => hf g (List.mem_cons_of_mem _ hg)⟩⟩

theorem busy_execute (hP : Frame.Invariant P) (i : Instruction) :
    Triple (Fetched P m₀ i) (execute i.opcode) (fun _ => m₀.Busy P) fun _ => m₀.Busy P := by
  rintro _ ⟨m, f, us, h, hf, hi, rfl⟩
  have hrun := advances_execute i.opcode _ (h.fetched.running i.opcode)
  exact hrun.weaken.mono (fun step m' hm' => h.busy_of_advanced hP hf hi hm') fun s m' hm' =>
    h.busy_of_running hP hf hi hm'.1

theorem busy_complete (hcall : call.Quiet) (step : Step) :
    Keeps (m₀.Busy P) (fun _ => True) (complete call step) := by
  have pushed {x : Exec Value} (g : Value → Value)
      (hx : ∀ m₀, Keeps (Machine.Quiet m₀) (fun _ => True) x) :
      Keeps (m₀.Busy P) (fun _ => True) (x >>= fun v => andNext (push (g v))) := by
    refine .bind (J := fun _ => m₀.Busy P) ?_ fun v => ?_
    · intro m hm
      exact (hx m m (.refl m)).mono (fun _ _ h => hm.quiet h) fun _ _ h => ⟨hm.quiet h.1, trivial⟩
    · exact .bind (.modify fun m hm => hm.push _) fun _ => .pure fun _ h => h
  cases step with
  | next => exact .pure fun _ h => h
  | returned v => exact .pure fun _ h => h
  | native body this args constructing =>
    exact pushed id fun _ => quiet_runNative hcall body this args constructing
  | compare method a b => exact pushed (fun v => .bool !v.truthy) (hcall method (some a) [b])

theorem quiet_locate (s : Signal) (position : Option Position) :
    Triple m₀.Quiet (locate s position) (fun _ => m₀.Quiet) fun _ _ => False := by
  refine .get_bind fun m hm => ?_
  cases s with
  | error fault => exact .pure fun _ h => h.2
  | raise v =>
    refine .bind (J := fun _ => m₀.Quiet) (.set fun _ _ => ?_) fun _ => .pure fun _ h => h
    exact ⟨hm.frames, hm.stack, hm.config, hm.guard, hm.store⟩

theorem busy_locate (s : Signal) (position : Option Position) :
    Keeps (m₀.Busy P) (fun _ => True) (locate s position) := by
  intro m hm
  exact (quiet_locate s position m (.refl m)).mono (fun _ _ h => hm.quiet h) fun _ _ h => h.elim

/-- An instruction with what it leaves to be done. -/
theorem busy_instruction (hP : Frame.Invariant P) (hcall : call.Quiet) (i : Instruction) :
    Triple (Fetched P m₀ i) (execute i.opcode >>= complete call) (fun _ => m₀.Busy P)
      fun _ => m₀.Busy P :=
  .bind (busy_execute hP i) fun step =>
    (busy_complete hcall step).conseq (fun _ h => h) (fun _ _ h => h) fun _ _ h => h.1

theorem busy_executeAt (hP : Frame.Invariant P) (hcall : call.Quiet) (i : Instruction) :
    Triple (Fetched P m₀ i) (executeAt call i) (fun _ => m₀.Busy P) fun _ => m₀.Busy P := by
  refine .bind (Triple.attempt (busy_instruction hP hcall i)) fun r => ?_
  cases r with
  | ok step => exact .pure fun _ h => h
  | error s =>
    refine .bind ?_ fun s => .signal fun _ h => h
    exact (busy_locate s i.position).conseq (fun _ h => h) (fun _ _ h => h) fun _ _ h => h.1

theorem busy_dispatch (hP : Frame.Invariant P) (hcall : call.Quiet) :
    Triple (m₀.Busy P) (dispatch call) (fun _ => m₀.Busy P) fun _ => m₀.Busy P := by
  refine .bind (busy_fetch hP) fun r => ?_
  cases r with
  | none => exact .pure fun _ h => h
  | some i => exact busy_executeAt hP hcall i

/-- Where a round leaves the machine: at work on the same call, or back where that began. -/
def AfterRound (P : Frame → Prop) (m₀ : Machine) : Option Value → Machine → Prop
  | none => m₀.Busy P
  | some _ => m₀.Quiet

/-- A frame that returns hands its result to the one below, or ends the loop. -/
theorem busy_finishFrame (v : Value) :
    Triple (m₀.Busy P) (finishFrame v m₀.frames.length)
      (AfterRound P m₀) fun _ _ => False := by
  rintro m ⟨f, us, h, hf⟩
  rw [finishFrame, get_bind_apply, h.frames]
  dsimp only [List.cons_append]
  rw [modify_bind_apply]
  cases us with
  -- it was the outermost frame of the loop, whose result is that of the loop
  | nil =>
    simp only [List.nil_append, Nat.le_refl, if_true]
    exact h.leave.quiet_of_nil
  | cons g us =>
    have hlen : ¬ (g :: us ++ m₀.frames).length ≤ m₀.frames.length := by
      simp only [List.length_append, List.length_cons]
      omega
    rw [if_neg hlen]
    exact ⟨g, us, h.leave.push _, fun r hr => hf r (List.mem_cons_of_mem _ hr)⟩

theorem busy_unwind (hP : Frame.Invariant P) (s : Signal) :
    Triple (m₀.Busy P) (unwind s m₀.frames.length) (fun _ => m₀.Busy P) fun _ => m₀.Quiet := by
  rintro m ⟨f, us, h, hf⟩
  rcases first_taker s (f :: us) with ⟨above, g, r, rs, below, hsplit, habove, hc, hg⟩ | hnone
  -- the frames above the taker leave first, then the taker goes on in its region
  · rw [hsplit] at h hf
    have hfs : m.frames = above ++ g :: (below ++ m₀.frames) := by
      rw [h.frames, List.append_assoc, List.cons_append]
    have hbase : m₀.frames.length ≤ (below ++ m₀.frames).length := by simp
    obtain ⟨v, store, -, hstore, heq⟩ := unwind_caught hfs habove hc hg hbase
    rw [heq]
    obtain ⟨h₁, h₂, h₃, h₄, h₅, h₆⟩ := (h.leaveAll.resume hg).push v
    refine ⟨_, below, ⟨h₁, h₂, h₃, h₄, h₅, h₆.trans hstore.retained⟩, List.forall_mem_cons.2 ⟨?_, ?_⟩⟩
    · exact hP.resume (hf g (by simp)) hg
    · exact fun q hq => hf q (by simp [hq])
  · rw [unwind_escaped h.frames (List.cons_ne_nil f us) hnone rfl]
    have habove : m₀.Above ((f :: us) ++ []) m := by rw [List.append_nil]; exact h
    obtain ⟨h₁, h₂, h₃, h₄, h₅⟩ := habove.leaveAll.quiet_of_nil
    exact ⟨h₁, h₂, h₃, h₄, h₅⟩

theorem busy_cycle (hP : Frame.Invariant P) (hcall : call.Quiet) :
    Triple (m₀.Busy P) (cycle call m₀.frames.length) (AfterRound P m₀) fun _ => m₀.Quiet := by
  refine .bind (Triple.attempt (busy_dispatch hP hcall)) fun r => ?_
  cases r with
  | error s => exact .bind (busy_unwind hP s) fun _ => .pure fun _ h => h
  | ok step =>
    cases step with
    | returned v =>
      exact (busy_finishFrame v).conseq (fun _ h => h) (fun _ _ h => h) fun _ _ h => h.elim
    | _ => exact .pure fun _ h => h

end Exec

end ScriptMachine
