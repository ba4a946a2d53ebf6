import ScriptMachine.Proofs.Engine.KnownInstruction
import ScriptMachine.Proofs.Engine.Rounds

namespace ScriptMachine

open Exec

/-- Calls that keep to the known types and give known values. -/
def Callback.Grows (call : Callback) : Prop :=
  ∀ (n : Nat) (callee : Value) (this : Option Value) (args : List Value), (∀ v ∈ this, v.Known n) →
    (∀ v ∈ args, v.Known n) → Exec.Grows n (call callee this args) fun k v => v.Known k

section Callbacks

variable {n : Nat} {call : Callback}

theorem Exec.Grows.attempt {x : Exec Value} (h : Exec.Grows n x fun k v => v.Known k) :
    Exec.Grows n (attempt x) Outcome.Known := by
  refine (Triple.attempt h).conseq (fun _ hm => hm) (fun r m hm => ?_) fun _ _ hm => hm
  cases r with
  | ok v => exact hm
  | error s => exact hm

theorem Exec.grows_callMethod (hcall : call.Grows) {receiver : Value} {name : String}
    {args : List Value} (hr : receiver.Known n) (ha : ∀ v ∈ args, v.Known n) :
    Exec.Grows n (find receiver name >>= fun method => call method (some receiver) args)
      fun k v => v.Known k :=
  known_bind (stays_find receiver name) fun method _ =>
    hcall n method (some receiver) args (forall_mem_some hr) ha

theorem HostProgram.grows_run (hcall : call.Grows) {p : HostProgram} (hp : p.Known n) :
    Exec.Grows n (p.run call) fun k v => v.Known k := by
  induction p generalizing n with
  | finish outcome =>
    cases outcome with
    | ok v => exact (stays_pure hp).grows fun _ h => h
    | error s => exact .signal fun _ hm => .of_known hm hp
  | call callee this args next ih =>
    obtain ⟨hthis, hargs, hnext⟩ := hp
    exact .bind (hcall n callee this args hthis hargs).attempt fun k o hk ho => ih o (hnext k o hk ho)
  | callMethod receiver name args next ih =>
    obtain ⟨hr, hargs, hnext⟩ := hp
    exact .bind (grows_callMethod hcall hr hargs).attempt fun k o hk ho => ih o (hnext k o hk ho)
  | newArray items next ih =>
    obtain ⟨hi, hnext⟩ := hp
    refine known_bind (Q := fun v => ∃ id, v = .array id) ?_ fun v hv => ?_
    · refine known_bind (Q := fun _ => True) (stays_alloc fun _ hs => ⟨trivial, ?_⟩) fun id _ =>
        stays_pure ⟨id, rfl⟩
      exact hs.newArray fun v hv => hi v (List.mem_toArray.1 hv)
    · obtain ⟨id, rfl⟩ := hv
      exact ih _ (hnext id)
  | typeName v next ih => exact known_get fun m _ => ih _ (hp _)
  | readDatum id next ih => exact known_get fun m _ => ih _ (hp _)
  | writeDatum id d next ih =>
    refine known_bind (stays_modify fun m hm => ?_) fun _ _ => ih hp
    exact hm.withStore (hm.store.setDatum id d)

namespace Exec

theorem grows_runBody (hcall : call.Grows) {body : NativeBody} {this : Value} {args : List Value}
    (hbody : body.Known n) (hthis : this.Known n) (hargs : ∀ v ∈ args, v.Known n) :
    Grows n (runBody call body this args) fun k v => v.Known k := by
  cases body with
  | host p => exact HostProgram.grows_run hcall (hbody n this args (Nat.le_refl n) hthis hargs)
  | method method =>
    refine known_get fun m hm => ?_
    refine known_bind (stays_ofExcept fun r hr => hm.store.apply hthis hargs hr) fun r hr => ?_
    refine known_bind (stays_modify fun m' hm' => hm'.withStore hr.2) fun _ _ => ?_
    exact (stays_pure hr.1).grows fun _ h => h

theorem grows_runNative (hcall : call.Grows) {body : NativeBody} {this : Value} {args : List Value}
    {constructing : Option Value} (h : body.KnownCall n this args constructing) :
    Grows n (runNative call body this args constructing) fun k v => v.Known k := by
  refine .bind (grows_runBody hcall h.body h.this h.args) fun k result hk hresult => ?_
  cases hcon : constructing with
  | none => exact (stays_pure hresult).grows fun _ h => h
  | some obj =>
    have hobj : obj.Known k := (h.constructing obj hcon).mono hk
    refine (stays_pure (Q := Value.Known k) ?_).grows fun _ h => h
    split
    · exact hobj
    · exact hresult

theorem grows_complete (hcall : call.Grows) {step : Step} (h : step.Known n) :
    Grows n (complete call step) Step.Known := by
  have pushed {k : Nat} {v : Value} (hv : v.Known k) : Grows k (andNext (push v)) Step.Known :=
    (stays_andNext (stays_push hv)).grows fun _ hs => hs
  cases step with
  | next => exact (stays_pure (Q := Step.Known n) h).grows fun _ hs => hs
  | returned v => exact (stays_pure (Q := Step.Known n) h).grows fun _ hs => hs
  | native body this args constructing =>
    exact .bind (grows_runNative hcall h) fun _ _ _ hv => pushed hv
  | compare method a b =>
    exact .bind (hcall n method (some a) [b] (forall_mem_some h.1)
      (List.forall_mem_singleton.2 h.2)) fun _ _ _ _ => pushed trivial

end Exec

theorem cutTo_known {stack : List Value} (h : ∀ v ∈ stack, v.Known n) (height : Nat) :
    ∀ v ∈ cutTo height stack, v.Known n :=
  fun v hv => h v (List.mem_of_mem_drop hv)

theorem Signal.leave_known {s : Signal} (h : s.Known n) (entry : TraceEntry)
    (trace : List TraceEntry) : (s.leave entry trace).1.Known n := by
  cases s with
  | error fault => trivial
  | raise v => exact h

def Landing.Known (n : Nat) : Landing → Prop
  | .caught f below stack s =>
    (∀ g ∈ f :: below, g.Known n) ∧ (∀ v ∈ stack, v.Known n) ∧ s.Known n
  | .escaped frames stack s => (∀ g ∈ frames, g.Known n) ∧ (∀ v ∈ stack, v.Known n) ∧ s.Known n

theorem Frame.Known.resume {f g : Frame} {height : Nat} (h : f.Known n)
    (hg : f.resume? = some (g, height)) : g.Known n := by
  unfold Frame.resume? at hg
  split at hg
  · cases hg
    exact ⟨h.locals, h.this, h.constructing⟩
  · cases hg

theorem land_known {store : Store} {base : Nat} {s : Signal} {trace : List TraceEntry}
    {stack : List Value} {fs : List Frame} (hfs : ∀ f ∈ fs, f.Known n)
    (hstack : ∀ v ∈ stack, v.Known n) (hs : s.Known n) :
    (land store base s trace stack fs).1.Known n := by
  induction fs generalizing s trace stack with
  | nil => exact ⟨List.forall_mem_nil _, hstack, hs⟩
  | cons f below ih =>
    rw [List.forall_mem_cons] at hfs
    rw [land]
    split
    · rename_i g height hg
      split at hg
      · exact ⟨List.forall_mem_cons.2 ⟨hfs.1.resume hg, hfs.2⟩, cutTo_known hstack height, hs⟩
      · cases hg
    · dsimp only
      split
      · exact ⟨hfs.2, cutTo_known hstack _, Signal.leave_known hs _ _⟩
      · exact ih hfs.2 (cutTo_known hstack _) (Signal.leave_known hs _ _)

namespace Exec

theorem stays_finishFrame {v : Value} (hv : v.Known n) (base : Nat) :
    Stays n (finishFrame v base) fun r => ∀ w ∈ r, w.Known n := by
  unfold finishFrame
  refine known_get fun m hm => ?_
  split
  · exact stays_pure (forall_mem_some hv)
  · rename_i f below hframes
    have hfs := hm.frames
    rw [hframes, List.forall_mem_cons] at hfs
    have hresult : (f.constructing.getD v).Known n := getD_of_forall hfs.1.constructing hv
    refine known_bind (stays_modify fun m' hm' => ?_) fun _ _ => ?_
    · exact ⟨hm'.store, hm'.globals, hfs.2, cutTo_known hm'.stack _⟩
    · dsimp only
      split
      · exact stays_pure (forall_mem_some hresult)
      · exact known_bind (stays_push hresult) fun _ _ => stays_pure fun _ h => nomatch h

theorem stays_exceptionOf {s : Signal} (hs : s.Known n) :
    Stays n (exceptionOf s) (Value.Known n) := by
  cases s with
  | raise v => exact stays_pure hs
  | error fault =>
    exact stays_alloc fun _ h => h.makeException fault.kind.name fault.message fault.line?

theorem stays_unwind {s : Signal} (hs : s.Known n) (base : Nat) : Stays n (unwind s base) := by
  unfold unwind
  refine known_get fun m hm => ?_
  have hland : (land m.store base s m.raiseTrace m.stack m.frames).1.Known n :=
    land_known hm.frames hm.stack hs
  generalize land m.store base s m.raiseTrace m.stack m.frames = r at hland ⊢
  obtain ⟨landing, trace⟩ := r
  cases landing with
  | caught f below stack s' =>
    obtain ⟨hfs, hstack, hs'⟩ := hland
    refine .bind (J := fun _ => Machine.Known n) (.set fun _ _ => ?_) fun _ => ?_
    · exact ⟨hm.store, hm.globals, hfs, hstack⟩
    · refine known_bind (stays_exceptionOf hs') fun v hv => known_bind (stays_push hv) fun _ _ => ?_
      exact stays_modify fun m' hm' => ⟨hm'.store, hm'.globals, hm'.frames, hm'.stack⟩
  | escaped frames stack s' =>
    obtain ⟨hfs, hstack, hs'⟩ := hland
    refine .bind (J := fun _ => Machine.Known n) (.set fun _ _ => ?_) fun _ => ?_
    · exact ⟨hm.store, hm.globals, hfs, hstack⟩
    · exact .signal fun _ h => .of_known h hs'

theorem Broken.located {s : Signal} {m : Machine} (h : Broken n s m) (position : Option Position) :
    Broken n (located s position m).1 (located s position m).2 := by
  obtain ⟨k, hk, hm, hs⟩ := h
  cases s with
  | error fault => exact ⟨k, hk, hm, trivial⟩
  | raise v => exact ⟨k, hk, ⟨hm.store, hm.globals, hm.frames, hm.stack⟩, hs⟩

theorem stays_fetch : Stays n fetch := by
  unfold fetch
  refine known_top fun f _ => ?_
  split
  · exact stays_pure trivial
  · refine known_bind (stays_setTop fun f hf => ⟨hf.locals, hf.this, hf.constructing⟩) fun _ _ => ?_
    refine known_bind (stays_modify fun m hm => ?_) fun _ _ => known_get fun m _ => ?_
    · exact ⟨hm.store, hm.globals, hm.frames, hm.stack⟩
    · split
      · split
        · exact known_fail
        · exact stays_pure trivial
      · exact stays_pure trivial

theorem grows_instruction (hcall : call.Grows) (i : Instruction) :
    Grows n (execute i.opcode >>= complete call) Step.Known :=
  .bind (grows_execute i.opcode) fun _ _ _ hs => grows_complete hcall hs

theorem grows_dispatch (hcall : call.Grows) : Grows n (dispatch call) Step.Known := by
  refine dispatch_rule (X := fun _ => Machine.Known n) ?_ fun i => ?_
  · refine stays_fetch.conseq (fun _ h => h) (fun r m hm => ?_) fun _ _ h => h
    cases r with
    | none => exact ⟨n, Nat.le_refl n, hm.1, trivial⟩
    | some i => exact hm.1
  · exact (grows_instruction hcall i).conseq (fun _ h => h) (fun _ _ h => h)
      fun _ _ h => h.located i.position

/-- A part of a round that begins with the types there are by then. -/
theorem Stays.later {α : Type} {x : Exec α} {P : Nat → Prop} {Q : Nat → α → Prop}
    (h : ∀ k, P k → Stays k x (Q k)) :
    Triple (fun m => ∃ k, n ≤ k ∧ m.Known k ∧ P k) x (fun a m => ∃ k, n ≤ k ∧ m.Known k ∧ Q k a)
      (Broken n) := by
  rintro m ⟨k, hk, hm, hP⟩
  exact (h k hP m hm).mono (fun a m' hm' => ⟨k, hk, hm'⟩) fun s m' hm' => hm'.mono hk

theorem grows_cycle (hcall : call.Grows) (base : Nat) :
    Grows n (cycle call base) fun k r => ∀ v ∈ r, v.Known k := by
  refine cycle_rule (grows_dispatch hcall) (fun v => ?_) (fun step m _ hm => ?_) fun s => ?_
  · exact Stays.later (P := fun k => v.Known k) fun k hv => stays_finishFrame hv base
  · obtain ⟨k, hk, hm, -⟩ := hm
    exact ⟨k, hk, hm, fun _ h => nomatch h⟩
  · refine (Stays.later (P := fun k => s.Known k) (Q := fun _ _ => True)
      fun k hs => stays_unwind hs base).conseq (fun _ h => h) (fun _ m hm => ?_) fun _ _ h => h
    obtain ⟨k, hk, hm, -⟩ := hm
    exact ⟨k, hk, hm, fun _ h => nomatch h⟩

theorem grows_loop (hcall : call.Grows) (base fuel : Nat) :
    Grows n (loop call base fuel) fun k v => v.Known k := by
  induction fuel generalizing n with
  | zero => exact fun _ _ => trivial
  | succ fuel ih =>
    refine .bind (grows_cycle hcall base) fun k r _ hr => ?_
    cases r with
    | none => exact ih
    | some v => exact (stays_pure (hr v rfl)).grows fun _ h => h

theorem grows_invoke (fuel : Nat) : Callback.Grows (invoke fuel) := by
  induction fuel with
  | zero => exact fun _ _ _ _ _ _ _ _ => trivial
  | succ fuel ih =>
    -- calls made on the way have less budget, and by then there may be more types
    intro n callee this args hthis hargs
    refine known_get fun m _ => ?_
    dsimp only
    refine known_bind (stays_beginCall callee hthis hargs nofun) fun start hstart => ?_
    cases start with
    | entered => exact grows_loop ih _ fuel
    | native body this args constructing => exact grows_runNative ih hstart

end Exec

end Callbacks

/-- What is at work keeps to the known types. -/
def Activity.Known (n : Nat) : Activity → Prop
  | .call _ this args => (∀ v ∈ this, v.Known n) ∧ ∀ v ∈ args, v.Known n
  | .program p => p.Known n
  | .loop _ => True

def Work.Known (w : Work) : Prop :=
  ∃ n, w.machine.Known n ∧ w.activity.Known n

namespace Exec

variable {n : Nat}

theorem grows_instruct :
    Grows n instruct fun k r => ∀ step ∈ r, step.Known k := by
  refine known_bind stays_fetch fun r _ => ?_
  cases r with
  | none => exact .pure fun _ hm => ⟨n, Nat.le_refl n, hm, fun _ h => nomatch h⟩
  | some i =>
    refine Grows.bind (grows_execute i.opcode) fun k step _ hs => .pure fun _ hm => ?_
    refine ⟨k, Nat.le_refl k, hm, fun step' heq => ?_⟩
    cases heq
    exact hs

theorem known_of_begun {callee : Value} {this : Option Value} {args : List Value} {start : Start}
    {m m' : Machine} (hm : m.Known n) (hthis : ∀ v ∈ this, v.Known n)
    (hargs : ∀ v ∈ args, v.Known n) (h : beginCall callee this args none m = .ok start m') :
    m'.Known n ∧ start.Known n :=
  Triple.of_ok (x := beginCall callee this args none) (stays_beginCall callee hthis hargs nofun) hm h

end Exec

theorem Leads.known {w w' : Work} (h : Leads w w') (hw : w.Known) : w'.Known := by
  obtain ⟨n, hm, hact⟩ := hw
  cases h with
  | enter h => exact ⟨n, (known_of_begun hm hact.1 hact.2 h).1, trivial⟩
  | native h =>
    obtain ⟨hm', hcall⟩ := known_of_begun hm hact.1 hact.2 h
    exact ⟨n, hm', hcall.body n _ _ (Nat.le_refl n) hcall.this hcall.args⟩
  | round h =>
    obtain ⟨k, -, hm', -⟩ := (grows_cycle (grows_invoke _) _).of_ok hm h
    exact ⟨k, hm', trivial⟩
  | host h =>
    obtain ⟨k, -, hm', hstep⟩ := grows_instruct.of_ok hm h
    have hcall := hstep _ rfl
    exact ⟨k, hm', hcall.body k _ _ (Nat.le_refl k) hcall.this hcall.args⟩
  | compare h =>
    obtain ⟨k, -, hm', hstep⟩ := grows_instruct.of_ok hm h
    obtain ⟨ha, hb⟩ := hstep _ rfl
    exact ⟨k, hm', forall_mem_some ha, List.forall_mem_singleton.2 hb⟩
  | calls => exact ⟨n, hm, hact.1, hact.2.1⟩
  | callsMethod h =>
    exact ⟨n, ((stays_find _ _).of_ok hm h).1, forall_mem_some hact.1, hact.2.1⟩
  | resumes h =>
    obtain ⟨hthis, hargs, hnext⟩ := hact
    obtain ⟨k, hk, hm', ho⟩ := (grows_invoke _ n _ _ _ hthis hargs).attempt.of_ok hm h
    exact ⟨k, hm', hnext k _ hk ho⟩
  | resumesMethod h =>
    obtain ⟨hr, hargs, hnext⟩ := hact
    obtain ⟨k, hk, hm', ho⟩ := (grows_callMethod (grows_invoke _) hr hargs).attempt.of_ok hm h
    exact ⟨k, hm', hnext k _ hk ho⟩
  | newArray h =>
    obtain ⟨hi, hnext⟩ := hact
    have hm' := ((stays_newArray hi).of_ok hm h).1
    cases h
    exact ⟨n, hm', hnext _⟩
  | typeName => exact ⟨n, hm, hact _⟩
  | readDatum => exact ⟨n, hm, hact _⟩
  | writeDatum => exact ⟨n, hm.withStore (hm.store.setDatum _ _), hact⟩

theorem Reaches.known {w w' : Work} (h : Reaches w w') (hw : w.Known) : w'.Known := by
  induction h with
  | refl => exact hw
  | step _ hstep ih => exact hstep.known ih

end ScriptMachine
