import ScriptMachine.Proofs.Engine.Start

namespace ScriptMachine

/-- Between `m₀` and `m` nothing was done but to take operands of the running call, to make new cells,
to ask the guard and to put a raise on record. -/
structure Machine.Spared (m₀ m : Machine) : Prop where
  same : m = { m₀ with
    store := m.store
    stack := m.stack
    guarded := m.guarded
    raiseTrace := m.raiseTrace
    raisePosition := m.raisePosition }
  store : m₀.store.Grown m.store
  stack : m.stack <:+ m₀.stack
  floor : min m₀.floor m₀.stack.length ≤ m.stack.length

/-- Between `m₀` and `m` no static slot was written and no function made. A call of `m` is one of `m₀`
or has entered a function of `m₀`. -/
structure Machine.Unwritten (m₀ m : Machine) : Prop where
  store : m₀.store.SameCode m.store
  frames : ∀ g ∈ m.frames, (∃ f ∈ m₀.frames, g.function = f.function ∧ g.closure = f.closure) ∨
    g.closure = (m₀.store.function g.function).closure

/-- A raised value is an operand of `m`. -/
def Signal.Taken (m : Machine) (s : Signal) : Prop :=
  ∀ v, s = .raise v → v ∈ m.stack

/-- The instructions that may write static slots or make a function. -/
def Opcode.writesCode : Opcode → Bool
  | storeStatic _ | createClosure _ => true
  | _ => false

/-- The machine after an instruction that began at `m₀`. One that leaves a comparison to be done has
only read so far. -/
def Opcode.Leaves (o : Opcode) (m₀ : Machine) : Step → Machine → Prop
  | .compare .., m => m₀.Spared m
  | _, m => o.writesCode = false → m₀.Unwritten m

namespace Machine

variable {m₀ m m' : Machine}

namespace Spared

theorem refl (m : Machine) : m.Spared m :=
  ⟨rfl, .refl _, List.suffix_rfl, Nat.min_le_right ..⟩

theorem frames_eq (h : m₀.Spared m) : m.frames = m₀.frames := by
  rw [h.same]

theorem floor_eq (h : m₀.Spared m) : m.floor = m₀.floor := by
  rw [Machine.floor, Machine.floor, h.frames_eq]

theorem withStore (h : m₀.Spared m) {store : Store} (hs : m.store.Grown store) :
    m₀.Spared { m with store } :=
  ⟨by rw [h.same], h.store.trans hs, h.stack, h.floor⟩

theorem silent (h : m₀.Spared m) (h' : m.Silent m') : m₀.Spared m' := by
  have hstack : m'.stack = m.stack := h'.quiet.stack
  refine ⟨?_, h.store.trans h'.store, hstack ▸ h.stack, hstack ▸ h.floor⟩
  rw [h'.same, h.same]

theorem withStack (h : m₀.Spared m) {stack : List Value} (hs : stack <:+ m.stack)
    (hfloor : m.floor ≤ stack.length) : m₀.Spared { m with stack } := by
  refine ⟨by rw [h.same], h.store, hs.trans h.stack, ?_⟩
  rw [h.floor_eq] at hfloor
  exact Nat.le_trans (Nat.min_le_left ..) hfloor

end Spared

namespace Unwritten

theorem of_frames (hs : m₀.store.SameCode m.store) (h : m.frames = m₀.frames) : m₀.Unwritten m :=
  ⟨hs, fun g hg => .inl ⟨g, h ▸ hg, rfl, rfl⟩⟩

theorem refl (m : Machine) : m.Unwritten m :=
  of_frames (.refl _) rfl

theorem trans (h : m₀.Unwritten m) (h' : m.Unwritten m') : m₀.Unwritten m' := by
  refine ⟨h.store.trans h'.store, fun g hg => ?_⟩
  rcases h'.frames g hg with ⟨f, hf, hfunction, hclosure⟩ | hclosure
  · rw [hfunction, hclosure]
    exact (h.frames f hf).imp_left fun ⟨e, he, hef, hec⟩ => ⟨e, he, hfunction ▸ hef, hclosure ▸ hec⟩
  · exact .inr (hclosure.trans (h.store.closure_eq _))

theorem withStore (h : m₀.Unwritten m) {store : Store} (hs : m.store.SameCode store) :
    m₀.Unwritten { m with store } :=
  h.trans (of_frames hs rfl)

end Unwritten

theorem Spared.unwritten (h : m₀.Spared m) : m₀.Unwritten m :=
  .of_frames h.store.kept.toSameCode h.frames_eq

theorem Enters.unwritten (h : m.Enters m') : m.Unwritten m' := by
  obtain ⟨m₁, g, hsilent, hg, rfl⟩ := h
  have hm₁ : m.Unwritten m₁ := ((Spared.refl m).silent hsilent).unwritten
  refine ⟨hm₁.store, fun e he => ?_⟩
  rcases List.mem_cons.1 he with rfl | he
  · exact .inr (hg.closure.trans (hm₁.store.closure_eq _))
  · exact hm₁.frames e he

end Machine

namespace Exec

/-- A computation that spares the machine, however it ends. -/
abbrev Spares {α : Type} (m₀ : Machine) (x : Exec α) : Prop :=
  Keeps m₀.Spared (Signal.Taken m₀) x

/-- A computation that writes neither static slots nor functions, and spares the machine if it ends
with a signal. -/
abbrev Atomic {α : Type} (m₀ : Machine) (x : Exec α) : Prop :=
  Triple m₀.Spared x (fun _ => m₀.Unwritten) fun s m => m₀.Spared m ∧ s.Taken m₀

/-- A computation that may write anything, and spares the machine if it ends with a signal. -/
abbrev Whole {α : Type} (m₀ : Machine) (x : Exec α) : Prop :=
  Triple m₀.Spared x (fun _ _ => True) fun s m => m₀.Spared m ∧ s.Taken m₀

/-- What is left of the instruction `o`, once it has read enough to know. -/
abbrev Acts (o : Opcode) (m₀ : Machine) (x : Exec Step) : Prop :=
  Triple m₀.Spared x (o.Leaves m₀) fun s m => m₀.Spared m ∧ s.Taken m₀

section Parts

variable {α β : Type} {o : Opcode} {m₀ : Machine} {J : β → Machine → Prop}
  {E : Signal → Machine → Prop}

theorem taken_ofCause (c : Cause) : (Signal.ofCause c).Taken m₀ :=
  fun _ h => nomatch h

theorem Triple.atomic {x : Exec α} (h : Spares m₀ x) : Atomic m₀ x :=
  h.conseq (fun _ hm => hm) (fun _ _ hm => hm.unwritten) fun _ _ hm => hm

theorem spares_pure (a : α) : Spares m₀ (pure a) :=
  .pure fun _ hm => hm

theorem spares_fail (c : Cause) : Spares m₀ (fail c : Exec α) :=
  .fail fun _ hm => ⟨hm, taken_ofCause c⟩

theorem atomic_fail (c : Cause) : Atomic m₀ (fail c : Exec α) :=
  (spares_fail c).atomic

theorem spares_ofExcept (r : Except Cause α) : Spares m₀ (ofExcept r) :=
  .ofExcept (fun _ _ _ hm => hm) fun c _ _ hm => ⟨hm, taken_ofCause c⟩

/-- Reading the machine, when what follows does well whatever machine was read. -/
theorem spared_get {k : Machine → Exec β} (h : ∀ m, m₀.Spared m → Triple m₀.Spared (k m) J E) :
    Triple m₀.Spared (get >>= k) J E :=
  .get_bind fun m hm => (h m hm).conseq (fun _ hm' => hm'.2) (fun _ _ h => h) fun _ _ h => h

theorem spares_top : Spares m₀ top := by
  unfold top
  apply spared_get
  intro m _
  split
  · exact spares_pure _
  · exact spares_fail _

theorem taken_pop : Triple m₀.Spared pop (fun v m => m₀.Spared m ∧ v ∈ m₀.stack)
    fun s m => m₀.Spared m ∧ s.Taken m₀ := by
  unfold pop
  apply spared_get
  intro m hm
  split
  · exact .fail fun _ hm' => ⟨hm', taken_ofCause _⟩
  · rename_i hlt
    split
    · rename_i v rest hstack
      rw [hstack, List.length_cons] at hlt
      have hrest : m₀.Spared { m with stack := rest } := by
        apply hm.withStack
        · rw [hstack]
          exact List.suffix_cons ..
        · omega
      have hv : v ∈ m₀.stack := hm.stack.subset (hstack ▸ List.mem_cons_self ..)
      exact .bind (J := fun _ => m₀.Spared) (.set fun _ _ => hrest) fun _ => .pure fun _ h => ⟨h, hv⟩
    · exact .fail fun _ hm' => ⟨hm', taken_ofCause _⟩

theorem spares_pop : Spares m₀ pop :=
  taken_pop.conseq (fun _ hm => hm) (fun _ _ hm => hm.1) fun _ _ hm => hm

theorem spares_popMany (n : Nat) : Spares m₀ (popMany n) := by
  unfold popMany
  apply spared_get
  intro m hm
  split
  · exact spares_fail _
  · refine .bind (J := fun _ => m₀.Spared) (.set fun _ _ => ?_) fun _ => spares_pure _
    apply hm.withStack (List.drop_suffix ..)
    rw [List.length_drop]
    omega

theorem spares_popCounted (n : Nat) : Spares m₀ (popCounted n) := by
  unfold popCounted
  apply spared_get
  intro m _
  split
  · exact .overflow
  · exact spares_popMany n

theorem spares_alloc {g : Store → α × Store} (h : ∀ s : Store, s.Grown (g s).2) :
    Spares m₀ (alloc g) :=
  .alloc fun m hm => hm.withStore (h m.store)

theorem spares_newArray (items : List Value) : Spares m₀ (newArray items) :=
  .bind (spares_alloc fun s => .newArray s _) fun _ => spares_pure _

theorem spares_name (i : Nat) : Spares m₀ (name i) := by
  unfold name
  refine .bind spares_top fun f => ?_
  split
  · exact spares_pure _
  · exact spares_fail _

theorem spares_access : Spares m₀ access :=
  spared_get fun _ _ => spares_pure _

theorem spares_find (receiver : Value) (n : String) : Spares m₀ (find receiver n) :=
  spared_get fun _ _ => .bind spares_access fun _ => spares_ofExcept _

theorem spares_statics : Spares m₀ statics :=
  .bind spares_top fun _ => spared_get fun _ _ => spares_pure _

theorem spares_hasEqualityMethod (v : Value) : Spares m₀ (hasEqualityMethod v) :=
  spared_get fun _ _ => spares_pure _

theorem unwritten_push (v : Value) : Triple m₀.Unwritten (push v) (fun _ => m₀.Unwritten) E :=
  .modify fun _ hm => hm.trans (.of_frames (.refl _) rfl)

theorem atomic_push (v : Value) : Atomic m₀ (push v) :=
  (unwritten_push v).conseq (fun _ hm => hm.unwritten) (fun _ _ hm => hm) fun _ _ hm => hm

theorem acts_andNext {x : Exec Unit} (h : Atomic m₀ x) : Acts o m₀ (andNext x) :=
  .bind h fun _ => .pure fun _ hm _ => hm

theorem acts_push (v : Value) : Acts o m₀ (andNext (push v)) :=
  acts_andNext (atomic_push v)

theorem acts_fail (c : Cause) : Acts o m₀ (fail c) :=
  .fail fun _ hm => ⟨hm, taken_ofCause c⟩

theorem atomic_setTop {g : Frame → Frame}
    (h : ∀ f, (g f).function = f.function ∧ (g f).closure = f.closure) : Atomic m₀ (setTop g) := by
  unfold setTop
  refine .get_bind fun m hm => ?_
  split
  · rename_i f rest hf
    refine .modify fun m' hm' => hm.unwritten.trans ⟨?_, fun e he => ?_⟩
    · rw [hm'.1]
      exact .refl _
    · rw [hf]
      rcases List.mem_cons.1 he with rfl | he
      · exact .inl ⟨f, List.mem_cons_self .., h f⟩
      · exact .inl ⟨e, List.mem_cons_of_mem _ he, rfl, rfl⟩
  · exact .fail fun _ hm' => ⟨hm'.2, taken_ofCause _⟩

theorem atomic_jump (target : Nat) : Atomic m₀ (jump target) :=
  atomic_setTop fun _ => ⟨rfl, rfl⟩

theorem atomic_alloc {g : Store → α × Store} (h : ∀ s : Store, s.SameCode (g s).2) :
    Atomic m₀ (alloc g) :=
  .alloc fun m hm => hm.unwritten.withStore (h m.store)

theorem atomic_alter {g : Store → Except Cause Store} (h : ∀ s s', g s = .ok s' → s.SameCode s') :
    Atomic m₀ (alter g) := by
  unfold alter
  refine .get_bind fun m hm => ?_
  refine .bind (J := fun store m' => m' = m ∧ m.store.SameCode store) (.ofExcept ?_ ?_) ?_
  · exact fun store _ hstore hm' => ⟨hm'.1, h _ _ hstore⟩
  · exact fun c _ _ hm' => ⟨hm'.2, taken_ofCause c⟩
  · refine fun store => .modify fun m' hm' => ?_
    rw [hm'.1]
    exact hm.unwritten.withStore hm'.2

theorem atomic_beginCall (callee : Value) (this : Option Value) (args : List Value)
    (constructing : Option Value) :
    Atomic m₀ (beginCall callee this args constructing) := by
  intro m hm
  refine (started_beginCall callee this args constructing m (.refl m)).mono ?_ ?_
  · intro start m' hstart
    cases start with
    | entered => exact hm.unwritten.trans (Machine.Enters.unwritten hstart)
    | native body => exact (hm.silent hstart.1).unwritten
  · intro s m' hs
    refine ⟨hm.silent hs.1, fun v hv => ?_⟩
    subst hv
    exact hs.2.elim

theorem acts_callAndGoOn (callee : Value) (this : Option Value) (args : List Value)
    (constructing : Option Value) : Acts o m₀ (callAndGoOn callee this args constructing) := by
  refine .bind (atomic_beginCall callee this args constructing) fun start => ?_
  cases start <;> exact .pure fun _ hm _ => hm

theorem acts_callOperator (p : Opcode) (receiver : Value) (args : List Value) :
    Acts o m₀ (callOperator p receiver args) := by
  unfold callOperator
  split
  · exact acts_fail _
  · apply spared_get
    intro m _
    split
    · exact acts_fail _
    · exact .bind (spares_find receiver _) fun _ => acts_callAndGoOn _ _ _ _

end Parts

end Exec

namespace Effect

open Exec

variable {o : Opcode} {m₀ : Machine}

theorem atomic_pushConstant (i : Nat) : Atomic m₀ (pushConstant i) := by
  unfold pushConstant
  refine .bind spares_top fun f => ?_
  split
  · exact atomic_push _
  · exact atomic_fail _

theorem atomic_loadLocal (slot : Nat) : Atomic m₀ (loadLocal slot) := by
  unfold loadLocal
  refine .bind spares_top fun f => ?_
  split
  · exact atomic_push _
  · exact atomic_fail _

theorem atomic_storeLocal (slot : Nat) : Atomic m₀ (storeLocal slot) := by
  unfold storeLocal
  refine .bind spares_pop fun v => .bind spares_top fun f => ?_
  split
  · exact atomic_setTop fun _ => ⟨rfl, rfl⟩
  · exact atomic_fail _

theorem atomic_loadThis : Atomic m₀ loadThis :=
  .bind spares_top fun _ => atomic_push _

theorem atomic_loadStatic (slot : Nat) : Atomic m₀ (loadStatic slot) :=
  .bind spares_statics fun _ => atomic_push _

theorem atomic_jumpIfStaticInitialized (slot target : Nat) :
    Atomic m₀ (jumpIfStaticInitialized slot target) := by
  unfold jumpIfStaticInitialized
  refine .bind spares_statics fun block => ?_
  split
  · exact atomic_jump target
  · exact (spares_pure _).atomic

theorem atomic_loadGlobal (i : Nat) : Atomic m₀ (loadGlobal i) := by
  unfold loadGlobal
  refine .bind (spares_name i) fun n => ?_
  apply spared_get
  intro m _
  split
  · exact atomic_push _
  · exact atomic_fail _

theorem atomic_storeGlobal (i : Nat) : Atomic m₀ (storeGlobal i) := by
  unfold storeGlobal
  refine .bind (spares_name i) fun n => .bind spares_pop fun v => .modify fun m hm => ?_
  exact hm.unwritten.trans (.of_frames (.refl _) rfl)

theorem atomic_getAttribute (i : Nat) : Atomic m₀ (getAttribute i) := by
  unfold getAttribute
  refine .bind (spares_name i) fun n => .bind spares_pop fun receiver => ?_
  refine .bind (spares_find receiver n) fun v => ?_
  exact .bind (atomic_alloc fun s => (s.kept_bind receiver v).toSameCode) fun _ => unwritten_push _

theorem atomic_setAttribute (i : Nat) : Atomic m₀ (setAttribute i) := by
  unfold setAttribute
  refine .bind (spares_name i) fun n => .bind spares_pop fun v => .bind spares_pop fun target => ?_
  exact .bind spares_access fun a => atomic_alter fun _ _ h => (Store.kept_set h).toSameCode

theorem atomic_defineAttribute (i : Nat) (flags : Flags) : Atomic m₀ (defineAttribute i flags) := by
  unfold defineAttribute
  refine .bind (spares_name i) fun n => .bind spares_pop fun v => .bind spares_pop fun target => ?_
  exact .bind (atomic_alter fun _ _ h => (Store.kept_define h).toSameCode) fun _ => unwritten_push _

theorem atomic_getIndex : Atomic m₀ getIndex := by
  unfold getIndex
  refine .bind spares_pop fun index => .bind spares_pop fun container => ?_
  apply spared_get
  exact fun m _ => .bind (spares_ofExcept _) fun _ => atomic_push _

theorem atomic_setIndex : Atomic m₀ setIndex := by
  unfold setIndex
  refine .bind spares_pop fun v => .bind spares_pop fun index => .bind spares_pop fun container => ?_
  exact atomic_alter fun _ _ h => (Store.kept_writeElement h).toSameCode

theorem acts_binary (op : BinaryOp) : Acts o m₀ (binary op) := by
  unfold binary
  refine .bind spares_pop fun b => .bind spares_pop fun a => ?_
  split
  · exact acts_push _
  · exact acts_callOperator _ _ _

theorem acts_neg : Acts o m₀ neg := by
  unfold neg
  refine .bind spares_pop fun a => ?_
  split
  · exact acts_push _
  · exact acts_callOperator _ _ _

theorem atomic_not : Atomic m₀ not :=
  .bind spares_pop fun _ => atomic_push _

theorem acts_equal : Acts o m₀ equal := by
  unfold equal
  refine .bind spares_pop fun b => .bind spares_pop fun a => ?_
  refine .bind (spares_hasEqualityMethod a) fun has => ?_
  split
  · exact acts_callOperator _ _ _
  · exact acts_push _

theorem acts_notEqual : Acts o m₀ notEqual := by
  unfold notEqual
  refine .bind spares_pop fun b => .bind spares_pop fun a => ?_
  refine .bind (spares_hasEqualityMethod a) fun has => ?_
  split
  · exact .bind (spares_find a "==") fun _ => .pure fun _ hm => hm
  · exact acts_push _

theorem atomic_identical : Atomic m₀ identical :=
  .bind spares_pop fun _ => .bind spares_pop fun _ => atomic_push _

theorem atomic_isInstanceOf : Atomic m₀ isInstanceOf := by
  unfold isInstanceOf
  refine .bind spares_pop fun t => .bind spares_pop fun v => ?_
  split
  · exact spared_get fun _ _ => atomic_push _
  · exact atomic_fail _

theorem atomic_jumpIf (expected : Bool) (target : Nat) : Atomic m₀ (jumpIf expected target) := by
  unfold jumpIf
  refine .bind spares_pop fun v => ?_
  split
  · exact atomic_jump target
  · exact (spares_pure _).atomic

theorem atomic_jumpIfArgumentSupplied (p target : Nat) :
    Atomic m₀ (jumpIfArgumentSupplied p target) := by
  unfold jumpIfArgumentSupplied
  refine .bind spares_top fun f => ?_
  split
  · exact atomic_jump target
  · exact (spares_pure _).atomic

theorem acts_ret : Acts o m₀ ret := by
  unfold ret
  apply spared_get
  intro m _
  split
  · exact .bind spares_pop fun _ => .pure fun _ hm _ => hm.unwritten
  · exact .pure fun _ hm _ => hm.unwritten

theorem atomic_raise : Atomic m₀ raise := by
  unfold raise
  refine .bind taken_pop fun v => ?_
  refine .bind (J := fun _ m => m₀.Spared m ∧ v ∈ m₀.stack) (.modify fun m hm => ?_) fun _ => ?_
  · exact ⟨⟨by rw [hm.1.same], hm.1.store, hm.1.stack, hm.1.floor⟩, hm.2⟩
  · refine .signal fun m hm => ⟨hm.1, fun w hw => ?_⟩
    cases hw
    exact hm.2

theorem atomic_pushTry (target : Nat) : Atomic m₀ (pushTry target) :=
  spared_get fun _ _ => atomic_setTop fun _ => ⟨rfl, rfl⟩

theorem atomic_popTry : Atomic m₀ popTry :=
  atomic_setTop fun _ => ⟨rfl, rfl⟩

theorem atomic_discard : Atomic m₀ discard :=
  .bind spares_pop fun _ => (spares_pure _).atomic

theorem atomic_dup : Atomic m₀ dup :=
  .bind spares_pop fun _ => .bind (atomic_push _) fun _ => unwritten_push _

theorem acts_call (argc : Nat) : Acts o m₀ (call argc) :=
  .bind (spares_popMany argc) fun _ => .bind spares_pop fun _ => acts_callAndGoOn _ _ _ _

theorem acts_callMethod (i argc : Nat) : Acts o m₀ (callMethod i argc) := by
  unfold callMethod
  refine .bind (spares_name i) fun n => .bind (spares_popMany argc) fun args => ?_
  refine .bind spares_pop fun receiver => .bind (spares_find receiver n) fun method => ?_
  exact acts_callAndGoOn _ _ _ _

theorem acts_constructOn (obj : Value) (args : List Value) : Acts o m₀ (constructOn obj args) := by
  unfold constructOn
  apply spared_get
  intro m _
  dsimp only
  split
  · exact acts_push _
  · exact .bind (spares_ofExcept _) fun _ => acts_callAndGoOn _ _ _ _

theorem acts_construct (t : TypeId) (args : List Value) : Acts o m₀ (construct t args) := by
  unfold construct
  split
  · exact .bind (spares_newArray args) fun _ => acts_push _
  · split
    · exact .bind (spares_alloc fun s => .newMap s _) fun _ => acts_push _
    · split
      · exact spared_get fun _ _ => acts_fail _
      · exact .bind (spares_alloc fun s => .instantiate s t) fun _ => acts_constructOn _ args

theorem acts_instantiate (argc : Nat) : Acts o m₀ (instantiate argc) := by
  unfold instantiate
  refine .bind (spares_popMany argc) fun args => .bind spares_pop fun v => ?_
  split
  · exact acts_construct _ args
  · exact acts_fail _

theorem atomic_createArray (count : UInt64) : Atomic m₀ (createArray count) :=
  .bind (spares_popCounted _) fun _ => .bind (spares_newArray _) fun _ => atomic_push _

theorem atomic_createMap (count : UInt64) : Atomic m₀ (createMap count) := by
  unfold createMap
  split
  · refine .bind (spares_popCounted _) fun items => .bind (spares_ofExcept _) fun entries => ?_
    exact .bind (spares_alloc fun s => .newMap s _) fun _ => atomic_push _
  · exact .overflow

theorem spares_baseType (hasBase : Bool) : Spares m₀ (baseType hasBase) := by
  unfold baseType
  split
  · refine .bind spares_pop fun v => ?_
    split
    · exact spares_pure _
    · exact spares_fail _
  · exact spares_pure _

theorem atomic_createType (i : Nat) (hasBase : Bool) : Atomic m₀ (createType i hasBase) := by
  unfold createType
  refine .bind (spares_name i) fun n => .bind (spares_baseType hasBase) fun base => ?_
  exact .bind (atomic_alloc fun _ => ⟨rfl, rfl⟩) fun _ => unwritten_push _

theorem atomic_createTrait (i : Nat) : Atomic m₀ (createTrait i) := by
  unfold createTrait
  refine .bind (spares_name i) fun n => ?_
  exact .bind (atomic_alloc fun _ => ⟨rfl, rfl⟩) fun _ => unwritten_push _

theorem atomic_composeTrait : Atomic m₀ composeTrait := by
  unfold composeTrait
  refine .bind spares_pop fun bundle => .bind spares_pop fun target => ?_
  split
  · refine .bind (J := fun _ => m₀.Unwritten) (.modify fun m hm => ?_) fun _ => unwritten_push _
    exact hm.unwritten.withStore ⟨rfl, rfl⟩
  · exact atomic_fail _
  · exact atomic_fail _

theorem whole_storeStatic (slot : Nat) : Whole m₀ (storeStatic slot) := by
  unfold storeStatic
  refine .bind spares_pop fun v => .bind spares_statics fun block => ?_
  refine .bind (spares_ofExcept _) fun block' => .bind spares_top fun f => ?_
  exact .modify fun _ _ => trivial

theorem whole_createClosure (i : Nat) : Whole m₀ (createClosure i) := by
  unfold createClosure
  refine .bind spares_top fun f => ?_
  split
  · refine .bind (J := fun _ _ => True) (.alloc fun _ _ => trivial) fun _ => ?_
    exact .modify fun _ _ => trivial
  · exact .fail fun _ hm => ⟨hm, taken_ofCause _⟩

end Effect

namespace Exec

open Effect

/-- An instruction that ends with a signal has spared the machine. One that does not has written no
static slot and made no function, unless that is what it does. -/
theorem acts_execute (o : Opcode) {m₀ : Machine} : Acts o m₀ (execute o) := by
  have next {x : Exec Unit} (h : Atomic m₀ x) : Acts o m₀ (andNext x) := acts_andNext h
  cases o with
  | storeStatic slot => exact .bind (whole_storeStatic slot) fun _ => .pure fun _ _ h => nomatch h
  | createClosure i => exact .bind (whole_createClosure i) fun _ => .pure fun _ _ h => nomatch h
  | pushConstant i => exact next (atomic_pushConstant i)
  | pushVoid => exact next (atomic_push _)
  | pushTrue => exact next (atomic_push _)
  | pushFalse => exact next (atomic_push _)
  | loadLocal slot => exact next (atomic_loadLocal slot)
  | storeLocal slot => exact next (atomic_storeLocal slot)
  | loadThis => exact next atomic_loadThis
  | loadStatic slot => exact next (atomic_loadStatic slot)
  | jumpIfStaticInitialized slot target => exact next (atomic_jumpIfStaticInitialized slot target)
  | loadGlobal i => exact next (atomic_loadGlobal i)
  | storeGlobal i => exact next (atomic_storeGlobal i)
  | getAttribute i => exact next (atomic_getAttribute i)
  | setAttribute i => exact next (atomic_setAttribute i)
  | defineAttribute i flags => exact next (atomic_defineAttribute i flags)
  | getIndex => exact next atomic_getIndex
  | setIndex => exact next atomic_setIndex
  | binary op => exact acts_binary op
  | neg => exact acts_neg
  | not => exact next atomic_not
  | equal => exact acts_equal
  | notEqual => exact acts_notEqual
  | identical => exact next atomic_identical
  | isInstanceOf => exact next atomic_isInstanceOf
  | jump target => exact next (atomic_jump target)
  | jumpIfTrue target => exact next (atomic_jumpIf true target)
  | jumpIfFalse target => exact next (atomic_jumpIf false target)
  | jumpIfArgumentSupplied p target => exact next (atomic_jumpIfArgumentSupplied p target)
  | ret => exact acts_ret
  | call argc => exact acts_call argc
  | callMethod i argc => exact acts_callMethod i argc
  | instantiate argc => exact acts_instantiate argc
  | createArray count => exact next (atomic_createArray count)
  | createMap count => exact next (atomic_createMap count)
  | createType i hasBase => exact next (atomic_createType i hasBase)
  | createTrait i => exact next (atomic_createTrait i)
  | composeTrait => exact next atomic_composeTrait
  | throw => exact next atomic_raise
  | pushTry target => exact next (atomic_pushTry target)
  | popTry => exact next atomic_popTry
  | pop => exact next atomic_discard
  | dup => exact next atomic_dup

end Exec

end ScriptMachine
