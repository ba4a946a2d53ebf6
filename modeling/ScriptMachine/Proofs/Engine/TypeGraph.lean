import ScriptMachine.Proofs.Engine.KnownRun
import ScriptMachine.Proofs.Engine.PrivateAccess
import ScriptMachine.Proofs.Model.TypeTree

namespace ScriptMachine

/-- The value names no type that the machine does not have. -/
def Machine.Has (m : Machine) (v : Value) : Prop :=
  v.Known m.store.types.size

/-- One operation of the host on values and types of the machine. -/
inductive HostAct (m m' : Machine) : Prop
  | load (f : Fragment) (h : Completes (HostM.load f) m m')
  | instantiate (c : Closure) (h : Completes (HostM.instantiate c) m m')
  | call (fuel : Nat) (callee : Value) (args : List Value) (hargs : ∀ v ∈ args, m.Has v)
      (h : Completes (HostM.call fuel callee args) m m')
  | callMethod (fuel : Nat) (receiver : Value) (name : String) (args : List Value)
      (hreceiver : m.Has receiver) (hargs : ∀ v ∈ args, m.Has v)
      (h : Completes (HostM.callMethod fuel receiver name args) m m')
  | execute (fuel : Nat) (f : Fragment) (h : Completes (HostM.execute fuel f) m m')
  | getAttribute (access : Access) (receiver : Value) (name : String) (hreceiver : m.Has receiver)
      (h : Completes (HostM.getAttribute access receiver name) m m')
  | setAttribute (access : Access) (target : Value) (name : String) (v : Value) (hv : m.Has v)
      (h : Completes (HostM.setAttribute access target name v) m m')
  | defineAttribute (target : Value) (name : String) (v : Value) (flags : Flags) (hv : m.Has v)
      (h : Completes (HostM.alter (·.define target name v flags)) m m')
  | writeElement (container index v : Value) (hv : m.Has v)
      (h : Completes (HostM.alter (·.writeElement container index v)) m m')
  | setGlobal (name : String) (v : Value) (hv : m.Has v)
      (h : Completes (HostM.setGlobal name v) m m')
  | declareType (name : String) (base : Option TypeId) (hbase : ∀ b ∈ base, m.Has (.type b))
      (h : Completes (HostM.declareType name base) m m')
  | declareTrait (name : String) (h : Completes (HostM.declareTrait name) m m')
  | compose (t : TypeId) (b : TraitId) (h : Completes (HostM.compose t b) m m')
  | newArray (items : Array Value) (hitems : ∀ v ∈ items, m.Has v)
      (h : Completes (HostM.alloc (·.newArray items)) m m')
  | newMap (entries : Table Value) (hentries : entries.All m.Has)
      (h : Completes (HostM.alloc (·.newMap entries)) m m')
  | tie (receiver method : Value) (hreceiver : m.Has receiver) (hmethod : m.Has method)
      (h : Completes (HostM.alloc (·.tie receiver method)) m m')
  | newInstance (t : TypeId) (ht : m.Has (.type t))
      (h : Completes (HostM.alloc (·.instantiate t)) m m')
  | newNative (f : Native) (hf : f.body.Known m.store.types.size)
      (h : Completes (HostM.newNative f) m m')
  | declareNative (t : TypeId) (f : Native) (hf : f.body.Known m.store.types.size)
      (h : Completes (HostM.declareNative t f) m m')
  | wrap (t : TypeId) (d : Datum) (ht : m.Has (.type t)) (h : Completes (HostM.wrap t d) m m')
  | setGuard (g : Option Guard) (h : Completes (HostM.setGuard g) m m')
  | breakReferences (v : Value) (h : Completes (HostM.alloc (·.breakReferences v)) m m')

/-- The machine as a call of the host finds it. -/
def Machine.beforeCall (m : Machine) : Machine :=
  if m.frames.isEmpty then { m with executed := 0 } else m

/-- The states of a machine, between operations of the host and inside its calls. -/
inductive Occurs (config : Config) : Machine → Prop
  | start : Occurs config (.start config)
  | act {m m' : Machine} : Occurs config m → HostAct m m' → Occurs config m'
  | inside {m : Machine} {fuel : Nat} {callee : Value} {this : Option Value} {args : List Value}
      {w : Work} : Occurs config m → (∀ v ∈ this, m.Has v) → (∀ v ∈ args, m.Has v) →
      Reaches ⟨fuel, .call callee this args, m.beforeCall⟩ w → Occurs config w.machine

/-- The machine names no types but those of its store. -/
def Machine.Closed (m : Machine) : Prop :=
  ∃ n, m.Known n

namespace Machine

variable {n : Nat} {m : Machine}

theorem Known.has_iff (h : m.Known n) {v : Value} : m.Has v ↔ v.Known n := by
  rw [Has, h.store.size]

theorem Known.beforeCall (h : m.Known n) : m.beforeCall.Known n := by
  unfold Machine.beforeCall
  split
  · exact ⟨h.store, h.globals, h.frames, h.stack⟩
  · exact h

theorem start_known (config : Config) : (start config).Known Builtin.all.length where
  store := Store.initial_known
  globals := by
    refine Table.All.ofList fun e he => ?_
    obtain ⟨b, -, rfl⟩ := List.mem_map.1 he
    exact b.index_lt
  frames := nofun
  stack := nofun

end Machine

namespace HostM

variable {α β : Type} {n : Nat} {m m' : Machine}

theorem known_alloc {f : Store → α × Store} (hm : m.Known n) (hf : (f m.store).2.Known n)
    (h : Completes (alloc f) m m') : m'.Known n := by
  rw [h.eq_of_ok rfl]
  exact hm.withStore hf

theorem completes_ofExcept {r : Except Cause α} {f : α → HostM β}
    (h : Completes (ofExcept r >>= f) m m') :
    (∃ a, r = .ok a ∧ Completes (f a) m m') ∨ m' = m := by
  cases r with
  | ok a => exact .inl ⟨a, rfl, h⟩
  | error c => exact .inr (h.eq_of_failed rfl)

theorem known_alter {f : Store → Except Cause Store} (hm : m.Known n)
    (hf : ∀ s, f m.store = .ok s → s.Known n) (h : Completes (alter f) m m') : m'.Known n := by
  have h' : Completes (ofExcept (f m.store) >>= fun store => modify fun m => { m with store })
    m m' := h
  rcases completes_ofExcept h' with ⟨s, hs, hset⟩ | rfl
  · rw [hset.eq_of_ok rfl]
    exact hm.withStore (hf s hs)
  · exact hm

theorem closed_report {s : Signal} (hm : m.Closed) (h : Completes (report s : HostM α) m m') :
    m'.Closed := by
  obtain ⟨n, hm⟩ := hm
  cases s with
  | error fault =>
    rw [h.eq_of_failed rfl]
    exact ⟨n, hm⟩
  | raise v =>
    rw [h.eq_of_failed rfl]
    exact ⟨n, hm.store, hm.globals, hm.frames, hm.stack⟩

theorem closed_callWith {fuel : Nat} {callee : Value} {this : Option Value} {args : List Value}
    (hm : m.Known n) (h : Completes (callWith fuel callee this args) m m')
    (hthis : ∀ v ∈ this, v.Known n) (hargs : ∀ v ∈ args, v.Known n) : m'.Closed := by
  have hcall := Exec.grows_invoke fuel n callee this args hthis hargs
  have h' : Completes (ofExec (Exec.invoke fuel callee this args)) m.beforeCall m' := h
  rcases ofExec_completes h' with ⟨v, heq⟩ | ⟨s, m₁, heq, hreport⟩
  · obtain ⟨k, -, hm', -⟩ := hcall.of_ok hm.beforeCall heq
    exact ⟨k, hm'⟩
  · obtain ⟨k, -, hm₁, -⟩ := hcall.of_failed hm.beforeCall heq
    exact closed_report ⟨k, hm₁.withStack (cutTo_known hm₁.stack _)⟩ hreport

theorem closed_call {fuel : Nat} {callee : Value} {args : List Value} (hm : m.Known n)
    (h : Completes (call fuel callee args) m m') (hargs : ∀ v ∈ args, v.Known n) : m'.Closed := by
  have h' : Completes (callWith fuel callee none args) m m' := h
  exact closed_callWith hm h' nofun hargs

theorem known_afterLoad (hm : m.Known n) (f : Fragment) : (afterLoad f m).Known n := by
  have hblock : (Statics.ofNames f.statics (some f.source)).Known n := by
    intro e he
    obtain ⟨name, -, rfl⟩ := List.mem_map.1 (List.mem_toArray.1 he)
    exact nofun
  exact ⟨(hm.store.newStatics hblock).newFunction .empty, hm.globals, hm.frames, hm.stack⟩

theorem known_load {f : Fragment} (hm : m.Known n) (h : Completes (load f) m m') : m'.Known n := by
  have heq := load_eq f m
  split at heq
  · rw [h.eq_of_failed heq]
    exact hm
  · rw [h.eq_of_ok heq]
    exact known_afterLoad hm f

theorem known_getAttribute {access : Access} {receiver : Value} {name : String} (hm : m.Known n)
    (hr : receiver.Known n) (h : Completes (getAttribute access receiver name) m m') :
    m'.Known n := by
  have hget : Completes (ofExcept (m.store.find access receiver name) >>= fun v =>
    alloc (·.bind receiver v)) m m' := h
  rcases completes_ofExcept hget with ⟨v, hv, halloc⟩ | rfl
  · exact known_alloc hm (hm.store.bind hr (hm.store.find hv)).2 halloc
  · exact hm

theorem closed_callMethod {fuel : Nat} {receiver : Value} {name : String} {args : List Value}
    (hm : m.Known n) (hr : receiver.Known n) (hargs : ∀ v ∈ args, v.Known n)
    (h : Completes (callMethod fuel receiver name args) m m') : m'.Closed := by
  have hget : Completes (ofExcept (m.store.find .host receiver name) >>= fun method =>
    callWith fuel method (some receiver) args) m m' := h
  rcases completes_ofExcept hget with ⟨method, -, hcall⟩ | rfl
  · exact closed_callWith hm hcall (Exec.forall_mem_some hr) hargs
  · exact ⟨n, hm⟩

end HostM

theorem HostAct.closed {m m' : Machine} (h : HostAct m m') (hm : m.Closed) : m'.Closed := by
  obtain ⟨n, hm⟩ := hm
  have known {v : Value} (hv : m.Has v) : v.Known n := hm.has_iff.1 hv
  cases h with
  | load f h => exact ⟨n, HostM.known_load hm h⟩
  | instantiate c h =>
    rw [h.eq_of_ok rfl]
    exact ⟨n, hm.withStore (hm.store.newFunction .empty)⟩
  | call fuel callee args hargs h =>
    exact HostM.closed_call hm h fun v hv => known (hargs v hv)
  | callMethod fuel receiver name args hreceiver hargs h =>
    exact HostM.closed_callMethod hm (known hreceiver) (fun v hv => known (hargs v hv)) h
  | execute fuel f h =>
    rcases completes_bind h with ⟨v, m₁, hload, hcall⟩ | hload
    · exact HostM.closed_call (HostM.known_load hm (.inl ⟨v, hload⟩)) hcall nofun
    · exact ⟨n, HostM.known_load hm hload⟩
  | getAttribute access receiver name hreceiver h =>
    exact ⟨n, HostM.known_getAttribute hm (known hreceiver) h⟩
  | setAttribute access target name v hv h =>
    exact ⟨n, HostM.known_alter hm (fun s hs => hm.store.set (known hv) hs) h⟩
  | defineAttribute target name v flags hv h =>
    exact ⟨n, HostM.known_alter hm (fun s hs => hm.store.define (known hv) hs) h⟩
  | writeElement container index v hv h =>
    exact ⟨n, HostM.known_alter hm (fun s hs => hm.store.writeElement (known hv) hs) h⟩
  | setGlobal name v hv h =>
    rw [h.eq_of_ok rfl]
    exact ⟨n, hm.store, hm.globals.insert (known hv), hm.frames, hm.stack⟩
  | declareType name base hbase h =>
    rw [h.eq_of_ok rfl]
    have hb : (base.getD Builtin.object.id).index < n :=
      getD_of_forall (P := fun b : TypeId => b.index < n) (fun b hb => known (hbase b hb))
        (hm.store.builtin .object)
    obtain ⟨hstore, hglobals, hframes, hstack⟩ := hm.grow (hm.store.newType name hb)
    refine ⟨n + 1, hstore, hglobals.insert ?_, hframes, hstack⟩
    change m.store.types.size < n + 1
    rw [hm.store.size]
    exact Nat.lt_succ_self n
  | declareTrait name h =>
    rw [h.eq_of_ok rfl]
    exact ⟨n, hm.store.newTrait .empty, hm.globals.insert trivial, hm.frames, hm.stack⟩
  | compose t b h =>
    rw [h.eq_of_ok rfl]
    exact ⟨n, hm.withStore (hm.store.compose t b)⟩
  | newArray items hitems h =>
    exact ⟨n, HostM.known_alloc hm (hm.store.newArray fun v hv => known (hitems v hv)) h⟩
  | newMap entries hentries h =>
    exact ⟨n, HostM.known_alloc hm (hm.store.newMap (hentries.imp fun _ hv => known hv)) h⟩
  | tie receiver method hreceiver hmethod h =>
    exact ⟨n, HostM.known_alloc hm (hm.store.tie (known hreceiver) (known hmethod)) h⟩
  | newInstance t ht h =>
    exact ⟨n, HostM.known_alloc hm (hm.store.instantiate (known ht)) h⟩
  | newNative f hf h =>
    rw [hm.store.size] at hf
    rw [h.eq_of_ok rfl]
    exact ⟨n, hm.withStore (hm.store.newNative hf)⟩
  | declareNative t f hf h =>
    rw [hm.store.size] at hf
    rw [h.eq_of_ok rfl]
    exact ⟨n, hm.withStore ((hm.store.newNative hf).setType t fun _ has => has.insert trivial)⟩
  | wrap t d ht h =>
    rw [h.eq_of_ok rfl]
    exact ⟨n, hm.withStore (hm.store.newHosted (known ht))⟩
  | setGuard g h =>
    rw [h.eq_of_ok rfl]
    exact ⟨n, hm.store, hm.globals, hm.frames, hm.stack⟩
  | breakReferences v h => exact ⟨n, HostM.known_alloc hm (hm.store.breakReferences v) h⟩

theorem Occurs.closed {config : Config} {m : Machine} (h : Occurs config m) : m.Closed := by
  induction h with
  | start => exact ⟨_, Machine.start_known config⟩
  | act _ hact ih => exact hact.closed ih
  | inside _ hthis hargs hreach ih =>
    obtain ⟨n, hm⟩ := ih
    obtain ⟨k, hk, -⟩ := hreach.known ⟨n, hm.beforeCall, fun v hv => hm.has_iff.1 (hthis v hv),
      fun v hv => hm.has_iff.1 (hargs v hv)⟩
    exact ⟨k, hk⟩

namespace Store.Known

variable {n : Nat} {s : Store}

theorem isA_object (h : s.Known n) (v : Value) :
    Method.isA.apply s v [.type Builtin.object.id] = .ok (.bool true, s) := by
  change Except.ok (Value.bool (s.isInstance v Builtin.object.id), s) = _
  rw [h.isInstance_object]

end Store.Known

theorem Exec.isInstanceOf_object {n : Nat} {m : Machine} {f : Frame} {rest : List Frame}
    {left : List Value} (h : m.Known n) (hm : m.frames = f :: rest)
    (hleft : f.stackBase ≤ left.length) (v : Value) :
    execute .isInstanceOf { m with stack := .type Builtin.object.id :: v :: left } =
      .ok .next { m with stack := .bool true :: left } := by
  have heffect : Effect.isInstanceOf { m with stack := .type Builtin.object.id :: v :: left } =
      .ok () { m with stack := .bool true :: left } := by
    refine (pop_pop_bind _ hm hleft).trans ?_
    change push (.bool (m.store.isInstance v Builtin.object.id)) { m with stack := left } = _
    rw [h.store.isInstance_object]
    rfl
  exact bind_of_ok heffect

/-- In every state of a machine, the bases of each of its types lead to `Object` without repetition.
So all walks along them end, being a subtype is being derived in the order of the chain, and every
value is an `Object`, whether a script or the host asks. -/
theorem types_founded_on_object {config : Config} {m : Machine} (h : Occurs config m) :
    (∀ t : TypeId, t.index < m.store.types.size → m.store.BasePath t (m.store.chain t)) ∧
    m.store.BasesFounded ∧
    (∀ t u, m.store.isSubtype t u = true ↔ u ∈ m.store.chain t) ∧
    (∀ t, m.store.isSubtype t t = true) ∧
    (∀ t u v, m.store.isSubtype t u = true → m.store.isSubtype u v = true →
      m.store.isSubtype t v = true) ∧
    (∀ t u, m.store.isSubtype t u = true → m.store.isSubtype u t = true → t = u) ∧
    ∀ v, m.store.isInstance v Builtin.object.id = true ∧
      Method.isA.apply m.store v [.type Builtin.object.id] = .ok (.bool true, m.store) ∧
      ∀ f rest left, m.frames = f :: rest → f.stackBase ≤ left.length →
        Exec.execute .isInstanceOf { m with stack := .type Builtin.object.id :: v :: left } =
          .ok .next { m with stack := .bool true :: left } := by
  obtain ⟨n, hm⟩ := h.closed
  refine ⟨fun t ht => ?_, hm.store.basesFounded, fun _ _ => Store.isSubtype_iff_mem_chain,
    fun t => ?_, fun _ _ _ => Store.isSubtype_trans, fun _ _ => Store.isSubtype_antisymm,
    fun v => ⟨hm.store.isInstance_object v, hm.store.isA_object v, ?_⟩⟩
  · rw [hm.store.size] at ht
    exact hm.store.basePath ht
  · exact Store.isSubtype_iff_mem_chain.2 (m.store.mem_chain_self t)
  · exact fun f rest left hframes hleft => Exec.isInstanceOf_object hm hframes hleft v

/-- A fragment that derives a type from the global `Animal`, and another one from that. -/
def kinds : Fragment where
  source := "kinds"
  main :=
    { body :=
        { code := #[⟨.loadGlobal 0, none⟩, ⟨.createType 1 true, none⟩, ⟨.createType 2 true, none⟩]
          constants := #[.string "Animal", .string "Dog", .string "Poodle"] } }

/-- Whether a computation returned. -/
def returned {ε α : Type} : EStateM.Result (Stop ε) Machine α → Bool
  | .ok _ _ => true
  | .error _ _ => false

theorem Completes.of_returned {ε α : Type} {x : EStateM (Stop ε) Machine α} {m : Machine}
    (h : returned (x m) = true) : Completes x m (stoppedAt (x m)) := by
  cases hx : x m with
  | ok a m' => exact .inl ⟨a, hx⟩
  | error e m' =>
    rw [hx] at h
    cases h

/-- The host has declared `Animal`. -/
def withAnimal : Machine :=
  stoppedAt (HostM.declareType "Animal" none (.start {}))

/-- A script has derived the other types. -/
def withKinds : Machine :=
  stoppedAt (HostM.execute 9 kinds withAnimal)

theorem types_founded_on_object_poodle :
    Occurs {} withKinds ∧ (withKinds.store.type ⟨16⟩).name = "Poodle" ∧
      withKinds.store.chain ⟨16⟩ = [⟨16⟩, ⟨15⟩, ⟨14⟩, ⟨0⟩] ∧
      withKinds.store.BasePath ⟨16⟩ (withKinds.store.chain ⟨16⟩) ∧
      withKinds.store.isInstance (.type ⟨16⟩) Builtin.object.id = true := by
  have hanimal : Occurs {} withAnimal :=
    .act .start (.declareType "Animal" none nofun (.inl ⟨_, rfl⟩))
  have hreturned : returned (HostM.execute 9 kinds withAnimal) = true := by decide +kernel
  have hkinds : Occurs {} withKinds := .act hanimal (.execute 9 kinds (.of_returned hreturned))
  obtain ⟨hpath, -, -, -, -, -, hobject⟩ := types_founded_on_object hkinds
  have hsize : (⟨16⟩ : TypeId).index < withKinds.store.types.size := by decide +kernel
  exact ⟨hkinds, by decide +kernel, by decide +kernel, hpath ⟨16⟩ hsize, (hobject _).1⟩

end ScriptMachine
