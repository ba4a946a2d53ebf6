import ScriptMachine.Proofs.Engine.Atomic
import ScriptMachine.Proofs.Engine.TypeGraph
import ScriptMachine.Proofs.Model.StaticHistory

namespace ScriptMachine

/-- What the history gets from an instruction. -/
def Opcode.events (o : Opcode) (m : Machine) : History :=
  match o, m.frames, m.stack with
  | storeStatic slot, f :: _, v :: _ => [.stored f.function slot v]
  | createClosure _, f :: _, _ => [.derived ⟨m.store.functions.size⟩ f.function]
  | _, _, _ => []

/-- What the history gets from a built-in method. -/
def Method.events (b : Method) (s : Store) (this : Value) : History :=
  match b, this with
  | clone, .function f => [.derived ⟨s.functions.size⟩ f]
  | _, _ => []

/-- What code does between instructions and built-in methods. -/
inductive Exec.Chore : {α : Type} → Exec α → Prop
  | fetch : Chore fetch
  | find (receiver : Value) (name : String) : Chore (find receiver name)
  | beginCall (callee : Value) (this : Option Value) (args : List Value)
      (constructing : Option Value) : Chore (beginCall callee this args constructing)
  | newArray (items : List Value) : Chore (newArray items)
  | writeDatum (id : HostedId) (d : Datum) :
      Chore (modify fun m => { m with store := m.store.setDatum id d })
  | push (v : Value) : Chore (push v)
  | locate (s : Signal) (position : Option Position) : Chore (locate s position)
  | finishFrame (v : Value) (base : Nat) : Chore (finishFrame v base)
  | unwind (s : Signal) (base : Nat) : Chore (unwind s base)

/-- One deed of running code. -/
inductive Deed (m : Machine) : History → Machine → Prop
  | instruction {f : Frame} {rest : List Frame} {i : Instruction} {step : Step} {m' : Machine}
      (hframes : m.frames = f :: rest) (hi : f.Executing i)
      (h : Exec.execute i.opcode m = .ok step m') : Deed m (i.opcode.events m) m'
  /-- An instruction that ends with a signal. -/
  | refusal {o : Opcode} {s : Signal} {m' : Machine}
      (h : Exec.execute o m = .error (.failed s) m') : Deed m [] m'
  | method {b : Method} {this v : Value} {args : List Value} {store : Store}
      (h : b.apply m.store this args = .ok (v, store)) :
      Deed m (b.events m.store this) { m with store }
  | chore {α : Type} {x : Exec α} {m' : Machine} (hchore : Exec.Chore x)
      (h : Completes x m m') : Deed m [] m'

/-- What the host does without a load, a new function or a call. -/
inductive HostM.Chore : {α : Type} → HostM α → Prop
  | getAttribute (access : Access) (receiver : Value) (name : String) :
      Chore (getAttribute access receiver name)
  | setAttribute (access : Access) (target : Value) (name : String) (v : Value) :
      Chore (setAttribute access target name v)
  | defineAttribute (target : Value) (name : String) (v : Value) (flags : Flags) :
      Chore (alter (·.define target name v flags))
  | writeElement (container index v : Value) : Chore (alter (·.writeElement container index v))
  | setGlobal (name : String) (v : Value) : Chore (setGlobal name v)
  | declareType (name : String) (base : Option TypeId) : Chore (declareType name base)
  | declareTrait (name : String) : Chore (declareTrait name)
  | compose (t : TypeId) (b : TraitId) : Chore (compose t b)
  | newArray (items : Array Value) : Chore (alloc (·.newArray items))
  | newMap (entries : Table Value) : Chore (alloc (·.newMap entries))
  | newObject (o : Object) : Chore (alloc (·.newObject o))
  | tie (receiver method : Value) : Chore (alloc (·.tie receiver method))
  | newInstance (t : TypeId) : Chore (alloc (·.instantiate t))
  | newNative (n : Native) : Chore (newNative n)
  | declareNative (t : TypeId) (n : Native) : Chore (declareNative t n)
  | wrap (t : TypeId) (d : Datum) : Chore (wrap t d)
  | setGuard (g : Option Guard) : Chore (setGuard g)
  | breakReferences {v : Value} (hv : ∀ f, v ≠ .function f) : Chore (alloc (·.breakReferences v))
  /-- A call is about to be made. -/
  | beforeCall : Chore (modify Machine.beforeCall)
  /-- A call has left operands behind. -/
  | cut (height : Nat) : Chore (modify fun m => { m with stack := cutTo height m.stack })
  | report {α : Type} (s : Signal) : Chore (report s : HostM α)

/-- One deed of the host, after the given history. It makes functions and breaks references of
functions that come from a load. -/
inductive HostDeed (h : History) (m : Machine) : History → Machine → Prop
  | load {f : Fragment} {id : FunctionId} {m' : Machine}
      (hx : HostM.load f m = .ok (.function id) m') :
      HostDeed h m [.loaded id f.statics.length] m'
  /-- A function on a block that the host makes for it. -/
  | found {c : Closure} {names : List String} {id : FunctionId} {m' : Machine}
      (hx : (HostM.alloc (·.newStatics (.ofNames names none)) >>= fun statics =>
        HostM.instantiate { c with statics }) m = .ok (.function id) m') :
      HostDeed h m [.loaded id names.length] m'
  | instantiate {c : Closure} {id parent : FunctionId} {m' : Machine}
      (hparent : (h.origin parent).isSome) (hc : c.statics = m.store.block parent)
      (hx : HostM.instantiate c m = .ok (.function id) m') : HostDeed h m [.derived id parent] m'
  | clone {id parent : FunctionId} {m' : Machine} (hparent : (h.origin parent).isSome)
      (hx : HostM.alloc (fun s => s.newFunction (s.function parent)) m = .ok id m') :
      HostDeed h m [.derived id parent] m'
  | breakReferences {f : FunctionId} {m' : Machine} (hf : (h.origin f).isSome)
      (hx : Completes (HostM.alloc (·.breakReferences (.function f))) m m') :
      HostDeed h m [.cleared f] m'
  | chore {α : Type} {x : HostM α} {m' : Machine} (hchore : HostM.Chore x)
      (hx : Completes x m m') : HostDeed h m [] m'

/-- From a machine with its history, deed by deed, to another one. -/
inductive Goes (h : History) (m : Machine) : History → Machine → Prop
  | refl : Goes h m h m
  | deed {h' es : History} {m' m'' : Machine} :
      Goes h m h' m' → Deed m' es m'' → Goes h m (es ++ h') m''
  | host {h' es : History} {m' m'' : Machine} :
      Goes h m h' m' → HostDeed h' m' es m'' → Goes h m (es ++ h') m''

theorem Goes.instruct {h₀ h : History} {m₀ m m₁ m₂ : Machine} {i : Instruction} {step : Step}
    (hgoes : Goes h₀ m₀ h m) (hfetch : Exec.fetch m = .ok (some i) m₁)
    (hx : Exec.execute i.opcode m₁ = .ok step m₂) : Goes h₀ m₀ (i.opcode.events m₁ ++ h) m₂ := by
  obtain ⟨f, rest, -, hi, rfl⟩ := Exec.frames_of_fetch hfetch
  have hfetched : Goes h₀ m₀ ([] ++ h) _ := hgoes.deed (.chore .fetch (.inl ⟨_, hfetch⟩))
  exact hfetched.deed (.instruction rfl ⟨Nat.succ_pos _, hi⟩ hx)

/-- Some sequence of deeds leads from `m₀`, with its history, to `m`. -/
def Reached (h₀ : History) (m₀ m : Machine) : Prop :=
  ∃ h, Goes h₀ m₀ h m

namespace Reached

variable {h₀ : History} {m₀ m m' : Machine}

theorem refl (h : History) (m : Machine) : Reached h m m :=
  ⟨h, .refl⟩

theorem deed {es : History} (h : Reached h₀ m₀ m) (hdeed : Deed m es m') : Reached h₀ m₀ m' := by
  obtain ⟨h, hgoes⟩ := h
  exact ⟨es ++ h, hgoes.deed hdeed⟩

theorem chore {α : Type} {x : Exec α} (h : Reached h₀ m₀ m) (hx : Exec.Chore x)
    (hm' : Completes x m m') : Reached h₀ m₀ m' :=
  h.deed (.chore hx hm')

theorem hostChore {α : Type} {x : HostM α} (h : Reached h₀ m₀ m) (hx : HostM.Chore x)
    (hm' : Completes x m m') : Reached h₀ m₀ m' := by
  obtain ⟨h, hgoes⟩ := h
  exact ⟨[] ++ h, hgoes.host (.chore hx hm')⟩

end Reached

namespace Exec

variable {α β : Type} {call : Callback} {h₀ : History} {m₀ : Machine}

/-- A computation that comes to its end deed by deed. -/
abbrev Proceeds (h₀ : History) (m₀ : Machine) (x : Exec α) : Prop :=
  Triple (Reached h₀ m₀) x (fun _ => Reached h₀ m₀) fun _ => Reached h₀ m₀

theorem proceeds_pure (a : α) : Proceeds h₀ m₀ (pure a) :=
  .pure fun _ h => h

theorem Chore.proceeds {x : Exec α} (hx : Chore x) : Proceeds h₀ m₀ x := by
  intro m hm
  cases heq : x m with
  | ok a m' => exact hm.chore hx (.inl ⟨a, heq⟩)
  | error stop m' =>
    cases stop with
    | failed s => exact hm.chore hx (.inr ⟨s, heq⟩)
    | overflow => trivial
    | outOfFuel => trivial

/-- A failure that is handed over is no different from a result. -/
theorem proceeds_attempt {x : Exec α} (hx : Proceeds h₀ m₀ x) : Proceeds h₀ m₀ (attempt x) := by
  have hattempt : Triple (Reached h₀ m₀) (attempt x) _ fun _ => Reached h₀ m₀ := .attempt hx
  refine hattempt.conseq (fun _ h => h) ?_ fun _ _ h => h
  intro r m hm
  cases r with
  | ok a => exact hm
  | error s => exact hm

theorem proceeds_run (hcall : ∀ callee this args, Proceeds h₀ m₀ (call callee this args))
    (p : HostProgram) : Proceeds h₀ m₀ (p.run call) := by
  induction p with
  | finish outcome =>
    cases outcome with
    | ok v => exact proceeds_pure v
    | error s => exact .signal fun _ h => h
  | call callee this args next ih =>
    exact .bind (proceeds_attempt (hcall callee this args)) fun outcome => ih outcome
  | callMethod receiver name args next ih =>
    refine .bind (proceeds_attempt ?_) fun outcome => ih outcome
    exact .bind (Chore.find receiver name).proceeds fun method => hcall method (some receiver) args
  | newArray items next ih => exact .bind (Chore.newArray items).proceeds fun v => ih v
  | typeName v next ih =>
    exact .get_bind fun m _ => (ih _).conseq (fun _ h => h.2) (fun _ _ h => h) fun _ _ h => h
  | readDatum id next ih =>
    exact .get_bind fun m _ => (ih _).conseq (fun _ h => h.2) (fun _ _ h => h) fun _ _ h => h
  | writeDatum id d next ih => exact .bind (Chore.writeDatum id d).proceeds fun _ => ih

theorem proceeds_runBody (hcall : ∀ callee this args, Proceeds h₀ m₀ (call callee this args))
    (body : NativeBody) (this : Value) (args : List Value) :
    Proceeds h₀ m₀ (runBody call body this args) := by
  cases body with
  | host p => exact proceeds_run hcall (p this args)
  | method b =>
    intro m hm
    change Ends _ _ _ ((ofExcept (b.apply m.store this args) >>= _) m)
    cases happly : b.apply m.store this args with
    | error c => exact hm
    | ok r => exact hm.deed (.method happly)

theorem proceeds_runNative (hcall : ∀ callee this args, Proceeds h₀ m₀ (call callee this args))
    (body : NativeBody) (this : Value) (args : List Value) (constructing : Option Value) :
    Proceeds h₀ m₀ (runNative call body this args constructing) := by
  refine .bind (proceeds_runBody hcall body this args) fun v => ?_
  cases constructing <;> exact proceeds_pure _

theorem proceeds_complete (hcall : ∀ callee this args, Proceeds h₀ m₀ (call callee this args))
    (step : Step) : Proceeds h₀ m₀ (complete call step) := by
  cases step with
  | next => exact proceeds_pure _
  | returned v => exact proceeds_pure _
  | native body this args constructing =>
    refine .bind (proceeds_runNative hcall body this args constructing) fun v => ?_
    exact .bind (Chore.push v).proceeds fun _ => proceeds_pure _
  | compare method a b =>
    refine .bind (hcall method (some a) [b]) fun v => ?_
    exact .bind (Chore.push _).proceeds fun _ => proceeds_pure _

/-- An instruction is under way in the innermost call. -/
def UnderWay (h₀ : History) (m₀ : Machine) (i : Instruction) (m : Machine) : Prop :=
  Reached h₀ m₀ m ∧ ∃ f rest, m.frames = f :: rest ∧ f.Executing i

theorem underWay_fetch : Triple (Reached h₀ m₀) fetch
    (fun r => match r with | some i => UnderWay h₀ m₀ i | none => Reached h₀ m₀)
    fun _ => Reached h₀ m₀ := by
  intro m hm
  have hproceeds := (Chore.fetch).proceeds m hm
  cases hfetch : fetch m with
  | error stop m' =>
    rw [hfetch] at hproceeds
    cases stop <;> exact hproceeds
  | ok r m' =>
    rw [hfetch] at hproceeds
    cases r with
    | none => exact hproceeds
    | some i =>
      obtain ⟨f, rest, -, hi, rfl⟩ := frames_of_fetch hfetch
      exact ⟨hproceeds, _, rest, rfl, Nat.succ_pos _, hi⟩

theorem proceeds_execute (i : Instruction) : Triple (UnderWay h₀ m₀ i) (execute i.opcode)
    (fun _ => Reached h₀ m₀) fun _ => Reached h₀ m₀ := by
  rintro m ⟨hm, f, rest, hframes, hi⟩
  cases heq : execute i.opcode m with
  | ok step m' => exact hm.deed (.instruction hframes hi heq)
  | error stop m' =>
    cases stop with
    | failed s => exact hm.deed (.refusal heq)
    | overflow => trivial
    | outOfFuel => trivial

theorem proceeds_cycle (hcall : ∀ callee this args, Proceeds h₀ m₀ (call callee this args))
    (base : Nat) : Proceeds h₀ m₀ (cycle call base) := by
  have hlocated (s : Signal) (position : Option Position) (m : Machine) (hm : Reached h₀ m₀ m) :
      Reached h₀ m₀ (located s position m).2 :=
    hm.chore (.locate s position) (.inl ⟨_, locate_eq s position m⟩)
  have hdispatch : Proceeds h₀ m₀ (dispatch call) := by
    refine dispatch_rule underWay_fetch fun i => ?_
    exact (Triple.bind (proceeds_execute i) fun step => proceeds_complete hcall step).conseq
      (fun _ h => h) (fun _ _ h => h) fun s m hm => hlocated s i.position m hm
  exact cycle_rule hdispatch (fun v => (Chore.finishFrame v base).proceeds) (fun _ _ _ h => h)
    fun s => (Chore.unwind s base).proceeds

theorem proceeds_loop (hcall : ∀ callee this args, Proceeds h₀ m₀ (call callee this args))
    (base fuel : Nat) : Proceeds h₀ m₀ (loop call base fuel) := by
  induction fuel with
  | zero => exact fun _ _ => trivial
  | succ fuel ih =>
    refine .bind (proceeds_cycle hcall base) fun r => ?_
    cases r with
    | none => exact ih
    | some v => exact proceeds_pure v

theorem proceeds_invoke (fuel : Nat) (callee : Value) (this : Option Value) (args : List Value) :
    Proceeds h₀ m₀ (invoke fuel callee this args) := by
  induction fuel generalizing callee this args with
  | zero => exact fun _ _ => trivial
  | succ fuel ih =>
    refine .get_bind fun m _ => ?_
    refine .bind ((Chore.beginCall callee this args none).proceeds.conseq (fun _ h => h.2)
      (fun _ _ h => h) fun _ _ h => h) fun start => ?_
    cases start with
    | entered => exact proceeds_loop ih m.frames.length fuel
    | native body this args constructing => exact proceeds_runNative ih body this args constructing

theorem proceeds_instruct : Proceeds h₀ m₀ instruct := by
  refine .bind underWay_fetch fun r => ?_
  cases r with
  | none => exact proceeds_pure none
  | some i => exact .bind (proceeds_execute i) fun step => proceeds_pure (some step)

end Exec

open Exec in
/-- The states inside a call are reached deed by deed. -/
theorem Leads.reached {h₀ : History} {m₀ : Machine} {w w' : Work} (h : Leads w w')
    (hw : Reached h₀ m₀ w.machine) : Reached h₀ m₀ w'.machine := by
  cases h with
  | enter h => exact hw.chore (.beginCall ..) (.inl ⟨_, h⟩)
  | native h => exact hw.chore (.beginCall ..) (.inl ⟨_, h⟩)
  | round h => exact (proceeds_cycle (proceeds_invoke _) _).of_ok hw h
  | host h => exact proceeds_instruct.of_ok hw h
  | compare h => exact proceeds_instruct.of_ok hw h
  | calls => exact hw
  | callsMethod h => exact hw.chore (.find ..) (.inl ⟨_, h⟩)
  | resumes h => exact (proceeds_attempt (proceeds_invoke _ _ _ _)).of_ok hw h
  | resumesMethod h =>
    refine (proceeds_attempt (Triple.bind (Chore.find _ _).proceeds fun method => ?_)).of_ok hw h
    exact proceeds_invoke _ method _ _
  | newArray h => exact hw.chore (.newArray _) (.inl ⟨_, h⟩)
  | typeName => exact hw
  | readDatum => exact hw
  | writeDatum => exact hw.chore (.writeDatum ..) (.inl ⟨(), rfl⟩)

theorem Reaches.reached {h₀ : History} {m₀ : Machine} {w w' : Work} (h : Reaches w w')
    (hw : Reached h₀ m₀ w.machine) : Reached h₀ m₀ w'.machine := by
  induction h with
  | refl => exact hw
  | step _ hstep ih => exact hstep.reached ih

namespace HostM

variable {h₀ : History} {m₀ m m' : Machine} {fuel : Nat} {args : List Value}

theorem reached_beforeCall (hm : Reached h₀ m₀ m) : Reached h₀ m₀ m.beforeCall :=
  hm.hostChore .beforeCall (.inl ⟨(), rfl⟩)

theorem reached_callWith {callee : Value} {this : Option Value} (hm : Reached h₀ m₀ m)
    (h : Completes (callWith fuel callee this args) m m') : Reached h₀ m₀ m' := by
  have hinvoke : Exec.Proceeds h₀ m₀ (Exec.invoke fuel callee this args) :=
    Exec.proceeds_invoke fuel callee this args
  have h' : Completes (ofExec (Exec.invoke fuel callee this args)) m.beforeCall m' := h
  rcases ofExec_completes h' with ⟨v, heq⟩ | ⟨s, m₁, heq, hreport⟩
  · exact hinvoke.of_ok (reached_beforeCall hm) heq
  · have hm₁ : Reached h₀ m₀ m₁ := hinvoke.of_failed (reached_beforeCall hm) heq
    exact (hm₁.hostChore (.cut _) (.inl ⟨(), rfl⟩)).hostChore (.report s) hreport

theorem reached_callMethod {receiver : Value} {name : String} (hm : Reached h₀ m₀ m)
    (h : Completes (callMethod fuel receiver name args) m m') : Reached h₀ m₀ m' := by
  have hget : Completes (ofExcept (m.store.find .host receiver name) >>= fun method =>
    callWith fuel method (some receiver) args) m m' := h
  rcases completes_ofExcept hget with ⟨method, -, hcall⟩ | rfl
  · exact reached_callWith hm hcall
  · exact hm

theorem reached_execute {f : Fragment} (hm : Reached h₀ m₀ m)
    (h : Completes (execute fuel f) m m') : Reached h₀ m₀ m' := by
  rcases completes_bind h with ⟨v, m₁, hload, hcall⟩ | hload
  · obtain ⟨h', hgoes⟩ := hm
    obtain ⟨rfl, -⟩ := load_eq_ok hload
    exact reached_callWith ⟨_, hgoes.host (.load hload)⟩ hcall
  · have heq := load_eq f m
    split at heq
    · rw [hload.eq_of_failed heq]
      exact hm
    · obtain ⟨h', hgoes⟩ := hm
      rw [hload.eq_of_ok heq]
      exact ⟨_, hgoes.host (.load heq)⟩

end HostM

end ScriptMachine
