import ScriptMachine.Proofs.Engine.Triple

namespace ScriptMachine

/-- What an instruction comes to: it is done but for what its step says, or has a call to start. -/
inductive Prepared where
  | step (s : Step)
  | call (callee : Value) (this : Option Value) (args : List Value) (constructing : Option Value)

namespace Exec

/-- Starts the call that an instruction has come to. -/
def perform : Prepared → Exec Step
  | .step s => pure s
  | .call callee this args constructing => callAndGoOn callee this args constructing

def prepareOperator (o : Opcode) (receiver : Value) (args : List Value) : Exec Prepared := do
  match o.operator? with
  | none => fail (.breakdown (.noOperator o.text))
  | some op =>
    match (← get).store.resolve receiver op with
    | none => fail (.typeMismatch op receiver.kindName)
    | some _ => return .call (← find receiver op) (some receiver) args none

def prepareConstructor (obj : Value) (args : List Value) : Exec Prepared := do
  let store := (← get).store
  match store.resolve obj "_constructor" with
  | none => .step <$> andNext (push obj)
  | some _ =>
    let constructor ← ofExcept (store.find (.within obj) obj "_constructor")
    return .call constructor (some obj) args (some obj)

def prepareInstance (t : TypeId) (args : List Value) : Exec Prepared := do
  if t = Builtin.array.id then
    let v ← newArray args
    .step <$> andNext (push v)
  else if t = Builtin.map.id then
    let id ← alloc (·.newMap .empty)
    .step <$> andNext (push (.map id))
  else if Builtin.isSealed t then
    fail (.typeMismatch "instantiate" ((← get).store.typeName t))
  else
    let id ← alloc (·.instantiate t)
    prepareConstructor (.object id) args

/-- The first part of an instruction, up to the start of a call. -/
def prepare : Opcode → Exec Prepared
  | .binary op => do
    let b ← pop
    let a ← pop
    match op.onPrimitives? a b with
    | some v => .step <$> andNext (push v)
    | none => prepareOperator (.binary op) a [b]
  | .neg => do
    let a ← pop
    match a.negate? with
    | some v => .step <$> andNext (push v)
    | none => prepareOperator .neg a []
  | .equal => do
    let b ← pop
    let a ← pop
    if ← hasEqualityMethod a then prepareOperator .equal a [b]
    else .step <$> andNext (push (.bool (a == b)))
  | .call argc => do
    let args ← popMany argc
    let callee ← pop
    return .call callee none args none
  | .callMethod i argc => do
    let n ← name i
    let args ← popMany argc
    let receiver ← pop
    let method ← find receiver n
    return .call method (some receiver) args none
  | .instantiate argc => do
    let args ← popMany argc
    match ← pop with
    | .type t => prepareInstance t args
    | v => fail (.typeMismatch "instantiate" v.kindName)
  | o => .step <$> execute o

theorem map_step_bind (x : Exec Step) : (.step <$> x) >>= perform = x := by
  rw [bind_map_left]
  exact bind_pure x

theorem prepareOperator_bind (o : Opcode) (receiver : Value) (args : List Value) :
    prepareOperator o receiver args >>= perform = callOperator o receiver args := by
  unfold prepareOperator callOperator
  cases o.operator? with
  | none => rfl
  | some op =>
    simp only [bind_assoc]
    congr 1
    funext m
    cases m.store.resolve receiver op with
    | none => rfl
    | some r => simp only [bind_assoc, pure_bind, perform]

theorem prepareConstructor_bind (obj : Value) (args : List Value) :
    prepareConstructor obj args >>= perform = Effect.constructOn obj args := by
  unfold prepareConstructor Effect.constructOn
  rw [bind_assoc]
  congr 1
  funext m
  dsimp only
  cases m.store.resolve obj "_constructor" with
  | none => exact map_step_bind _
  | some r => simp only [bind_assoc, pure_bind, perform]

theorem prepareInstance_bind (t : TypeId) (args : List Value) :
    prepareInstance t args >>= perform = Effect.construct t args := by
  unfold prepareInstance Effect.construct
  split
  · simp only [bind_assoc, map_step_bind]
  · split
    · simp only [bind_assoc, map_step_bind]
    · split
      · rfl
      · simp only [bind_assoc, prepareConstructor_bind]

theorem execute_eq (o : Opcode) : execute o = prepare o >>= perform := by
  cases o with
  | binary op =>
    simp only [execute, Effect.binary, prepare, bind_assoc]
    congr 1
    funext b
    congr 1
    funext a
    cases op.onPrimitives? a b with
    | none => exact (prepareOperator_bind ..).symm
    | some v => exact (map_step_bind _).symm
  | neg =>
    simp only [execute, Effect.neg, prepare, bind_assoc]
    congr 1
    funext a
    cases a.negate? with
    | none => exact (prepareOperator_bind ..).symm
    | some v => exact (map_step_bind _).symm
  | equal =>
    simp only [execute, Effect.equal, prepare, bind_assoc]
    congr 1
    funext b
    congr 1
    funext a
    congr 1
    funext has
    cases has with
    | false => exact (map_step_bind _).symm
    | true => rw [if_pos rfl, if_pos rfl, prepareOperator_bind]
  | call argc => simp only [prepare, bind_assoc, pure_bind]; rfl
  | callMethod i argc => simp only [prepare, bind_assoc, pure_bind]; rfl
  | instantiate argc =>
    simp only [execute, Effect.instantiate, prepare, bind_assoc]
    congr 1
    funext args
    congr 1
    funext v
    cases v with
    | type t => exact (prepareInstance_bind t args).symm
    | _ => rfl
  | _ => exact (map_step_bind _).symm

end Exec

/-- Between `m₀` and `m` no frame was entered and the guard was not asked. -/
structure Machine.NoDeeper (m₀ m : Machine) : Prop where
  depth : m.frames.length ≤ m₀.frames.length
  guarded : m.guarded = m₀.guarded
  config : m.config = m₀.config

namespace Machine.NoDeeper

variable {m₀ m m' : Machine}

theorem refl (m : Machine) : m.NoDeeper m :=
  ⟨Nat.le_refl _, rfl, rfl⟩

theorem trans (h : m₀.NoDeeper m) (h' : m.NoDeeper m') : m₀.NoDeeper m' :=
  ⟨Nat.le_trans h'.depth h.depth, h'.guarded.trans h.guarded, h'.config.trans h.config⟩

end Machine.NoDeeper

namespace Exec

/-- A computation that enters no frame and does not ask the guard, however it ends. -/
abbrev Plain {α : Type} (m₀ : Machine) (x : Exec α) : Prop :=
  Keeps m₀.NoDeeper (fun _ => True) x

section Parts

variable {α β : Type} {m₀ : Machine}

theorem plain_pure (a : α) : Plain m₀ (pure a) :=
  .pure fun _ h => h

theorem plain_fail (c : Cause) : Plain m₀ (fail c : Exec α) :=
  .fail fun _ h => ⟨h, trivial⟩

theorem plain_signal (s : Signal) : Plain m₀ (signal s : Exec α) :=
  .signal fun _ h => ⟨h, trivial⟩

theorem plain_ofExcept (r : Except Cause α) : Plain m₀ (ofExcept r) :=
  .ofExcept (fun _ _ _ h => h) fun _ _ _ h => ⟨h, trivial⟩

theorem plain_get {k : Machine → Exec β} (h : ∀ m, m₀.NoDeeper m → Plain m₀ (k m)) :
    Plain m₀ (get >>= k) :=
  .get_bind fun m hm => (h m hm).conseq (fun _ h => h.2) (fun _ _ h => h) fun _ _ h => h

theorem plain_set {m : Machine} (h : m₀.NoDeeper m) : Plain m₀ (set m) :=
  .set fun _ _ => h

theorem plain_modify {g : Machine → Machine} (h : ∀ m : Machine, m.NoDeeper (g m)) :
    Plain m₀ (modify g) :=
  .modify fun m hm => hm.trans (h m)

theorem plain_alloc (g : Store → α × Store) : Plain m₀ (alloc g) :=
  .alloc fun _ h => ⟨h.depth, h.guarded, h.config⟩

theorem plain_alter (g : Store → Except Cause Store) : Plain m₀ (alter g) :=
  plain_get fun _ _ => .bind (plain_ofExcept _) fun _ =>
    plain_modify fun _ => ⟨Nat.le_refl _, rfl, rfl⟩

theorem plain_top : Plain m₀ top := by
  unfold top
  refine plain_get fun m _ => ?_
  split
  · exact plain_pure _
  · exact plain_fail _

theorem plain_setTop (g : Frame → Frame) : Plain m₀ (setTop g) := by
  unfold setTop
  refine .get_bind fun m hm => ?_
  split
  · rename_i f rest hframes
    refine .modify fun m' hm' => ?_
    obtain ⟨rfl, hm'⟩ := hm'
    have hdepth : (g f :: rest).length ≤ m₀.frames.length := by
      rw [List.length_cons, ← List.length_cons (a := f), ← hframes]
      exact hm'.depth
    exact ⟨hdepth, hm'.guarded, hm'.config⟩
  · exact .fail fun _ h => ⟨h.2, trivial⟩

theorem plain_push (v : Value) : Plain m₀ (push v) :=
  plain_modify fun _ => ⟨Nat.le_refl _, rfl, rfl⟩

theorem plain_pop : Plain m₀ pop := by
  unfold pop
  refine plain_get fun m hm => ?_
  split
  · exact plain_fail _
  · split
    · exact .bind (plain_set ⟨hm.depth, hm.guarded, hm.config⟩) fun _ => plain_pure _
    · exact plain_fail _

theorem plain_popMany (n : Nat) : Plain m₀ (popMany n) := by
  unfold popMany
  refine plain_get fun m hm => ?_
  split
  · exact plain_fail _
  · exact .bind (plain_set ⟨hm.depth, hm.guarded, hm.config⟩) fun _ => plain_pure _

theorem plain_popCounted (n : Nat) : Plain m₀ (popCounted n) := by
  unfold popCounted
  refine plain_get fun m _ => ?_
  split
  · exact .overflow
  · exact plain_popMany n

theorem plain_newArray (items : List Value) : Plain m₀ (newArray items) :=
  .bind (plain_alloc _) fun _ => plain_pure _

theorem plain_name (i : Nat) : Plain m₀ (name i) := by
  unfold name
  refine .bind plain_top fun f => ?_
  split
  · exact plain_pure _
  · exact plain_fail _

theorem plain_access : Plain m₀ access :=
  plain_get fun _ _ => plain_pure _

theorem plain_find (receiver : Value) (n : String) : Plain m₀ (find receiver n) :=
  plain_get fun _ _ => .bind plain_access fun _ => plain_ofExcept _

theorem plain_statics : Plain m₀ statics :=
  .bind plain_top fun _ => plain_get fun _ _ => plain_pure _

theorem plain_hasEqualityMethod (v : Value) : Plain m₀ (hasEqualityMethod v) :=
  plain_get fun _ _ => plain_pure _

theorem plain_map {x : Exec α} (f : α → β) (h : Plain m₀ x) : Plain m₀ (f <$> x) :=
  .bind h fun _ => plain_pure _

theorem plain_andNext {x : Exec Unit} (h : Plain m₀ x) : Plain m₀ (andNext x) :=
  .bind h fun _ => plain_pure _

end Parts

end Exec

namespace Effect

open Exec

variable {m₀ : Machine}

theorem plain_pushConstant (i : Nat) : Plain m₀ (pushConstant i) := by
  unfold pushConstant
  refine .bind plain_top fun f => ?_
  split
  · exact plain_push _
  · exact plain_fail _

theorem plain_loadLocal (slot : Nat) : Plain m₀ (loadLocal slot) := by
  unfold loadLocal
  refine .bind plain_top fun f => ?_
  split
  · exact plain_push _
  · exact plain_fail _

theorem plain_storeLocal (slot : Nat) : Plain m₀ (storeLocal slot) := by
  unfold storeLocal
  refine .bind plain_pop fun v => .bind plain_top fun f => ?_
  split
  · exact plain_setTop _
  · exact plain_fail _

theorem plain_loadThis : Plain m₀ loadThis :=
  .bind plain_top fun _ => plain_push _

theorem plain_loadStatic (slot : Nat) : Plain m₀ (loadStatic slot) :=
  .bind plain_statics fun _ => plain_push _

theorem plain_storeStatic (slot : Nat) : Plain m₀ (storeStatic slot) := by
  unfold storeStatic
  refine .bind plain_pop fun v => .bind plain_statics fun block => ?_
  refine .bind (plain_ofExcept _) fun block' => .bind plain_top fun f => ?_
  exact plain_modify fun _ => ⟨Nat.le_refl _, rfl, rfl⟩

theorem plain_jumpIfStaticInitialized (slot target : Nat) :
    Plain m₀ (jumpIfStaticInitialized slot target) := by
  unfold jumpIfStaticInitialized
  refine .bind plain_statics fun block => ?_
  split
  · exact plain_setTop _
  · exact plain_pure _

theorem plain_loadGlobal (i : Nat) : Plain m₀ (loadGlobal i) := by
  unfold loadGlobal
  refine .bind (plain_name i) fun n => plain_get fun m _ => ?_
  split
  · exact plain_push _
  · exact plain_fail _

theorem plain_storeGlobal (i : Nat) : Plain m₀ (storeGlobal i) :=
  .bind (plain_name i) fun _ => .bind plain_pop fun _ =>
    plain_modify fun _ => ⟨Nat.le_refl _, rfl, rfl⟩

theorem plain_getAttribute (i : Nat) : Plain m₀ (getAttribute i) := by
  unfold getAttribute
  refine .bind (plain_name i) fun n => .bind plain_pop fun receiver => ?_
  exact .bind (plain_find receiver n) fun v => .bind (plain_alloc _) fun _ => plain_push _

theorem plain_setAttribute (i : Nat) : Plain m₀ (setAttribute i) := by
  unfold setAttribute
  refine .bind (plain_name i) fun n => .bind plain_pop fun v => .bind plain_pop fun target => ?_
  exact .bind plain_access fun a => plain_alter _

theorem plain_defineAttribute (i : Nat) (flags : Flags) : Plain m₀ (defineAttribute i flags) := by
  unfold defineAttribute
  refine .bind (plain_name i) fun n => .bind plain_pop fun v => .bind plain_pop fun target => ?_
  exact .bind (plain_alter _) fun _ => plain_push _

theorem plain_getIndex : Plain m₀ getIndex := by
  unfold getIndex
  refine .bind plain_pop fun index => .bind plain_pop fun container => plain_get fun m _ => ?_
  exact .bind (plain_ofExcept _) fun _ => plain_push _

theorem plain_setIndex : Plain m₀ setIndex :=
  .bind plain_pop fun _ => .bind plain_pop fun _ => .bind plain_pop fun _ => plain_alter _

theorem plain_not : Plain m₀ not :=
  .bind plain_pop fun _ => plain_push _

theorem plain_notEqual : Plain m₀ notEqual := by
  unfold notEqual
  refine .bind plain_pop fun b => .bind plain_pop fun a => ?_
  refine .bind (plain_hasEqualityMethod a) fun has => ?_
  split
  · exact .bind (plain_find a "==") fun _ => plain_pure _
  · exact plain_andNext (plain_push _)

theorem plain_identical : Plain m₀ identical :=
  .bind plain_pop fun _ => .bind plain_pop fun _ => plain_push _

theorem plain_isInstanceOf : Plain m₀ isInstanceOf := by
  unfold isInstanceOf
  refine .bind plain_pop fun t => .bind plain_pop fun v => ?_
  split
  · exact plain_get fun _ _ => plain_push _
  · exact plain_fail _

theorem plain_jumpIf (expected : Bool) (target : Nat) : Plain m₀ (jumpIf expected target) := by
  unfold jumpIf
  refine .bind plain_pop fun v => ?_
  split
  · exact plain_setTop _
  · exact plain_pure _

theorem plain_jumpIfArgumentSupplied (p target : Nat) :
    Plain m₀ (jumpIfArgumentSupplied p target) := by
  unfold jumpIfArgumentSupplied
  refine .bind plain_top fun f => ?_
  split
  · exact plain_setTop _
  · exact plain_pure _

theorem plain_ret : Plain m₀ ret := by
  unfold ret
  refine plain_get fun m _ => ?_
  split
  · exact .bind plain_pop fun _ => plain_pure _
  · exact plain_pure _

theorem plain_raise : Plain m₀ raise := by
  unfold raise
  refine .bind plain_pop fun v => .bind (plain_modify fun m => ?_) fun _ => plain_signal _
  exact ⟨Nat.le_refl _, rfl, rfl⟩

theorem plain_pushTry (target : Nat) : Plain m₀ (pushTry target) :=
  plain_get fun _ _ => plain_setTop _

theorem plain_discard : Plain m₀ discard :=
  .bind plain_pop fun _ => plain_pure _

theorem plain_dup : Plain m₀ dup :=
  .bind plain_pop fun _ => .bind (plain_push _) fun _ => plain_push _

theorem plain_createArray (count : UInt64) : Plain m₀ (createArray count) :=
  .bind (plain_popCounted _) fun _ => .bind (plain_newArray _) fun _ => plain_push _

theorem plain_createMap (count : UInt64) : Plain m₀ (createMap count) := by
  unfold createMap
  split
  · refine .bind (plain_popCounted _) fun items => .bind (plain_ofExcept _) fun entries => ?_
    exact .bind (plain_alloc _) fun _ => plain_push _
  · exact .overflow

theorem plain_createClosure (i : Nat) : Plain m₀ (createClosure i) := by
  unfold createClosure
  refine .bind plain_top fun f => ?_
  split
  · exact .bind (plain_alloc _) fun _ => plain_push _
  · exact plain_fail _

theorem plain_baseType (hasBase : Bool) : Plain m₀ (baseType hasBase) := by
  unfold baseType
  split
  · refine .bind plain_pop fun v => ?_
    split
    · exact plain_pure _
    · exact plain_fail _
  · exact plain_pure _

theorem plain_createType (i : Nat) (hasBase : Bool) : Plain m₀ (createType i hasBase) :=
  .bind (plain_name i) fun _ => .bind (plain_baseType hasBase) fun _ =>
    .bind (plain_alloc _) fun _ => plain_push _

theorem plain_createTrait (i : Nat) : Plain m₀ (createTrait i) :=
  .bind (plain_name i) fun _ => .bind (plain_alloc _) fun _ => plain_push _

theorem plain_composeTrait : Plain m₀ composeTrait := by
  unfold composeTrait
  refine .bind plain_pop fun bundle => .bind plain_pop fun target => ?_
  split
  · refine .bind (plain_modify fun m => ?_) fun _ => plain_push _
    exact ⟨Nat.le_refl _, rfl, rfl⟩
  · exact plain_fail _
  · exact plain_fail _

end Effect

namespace Exec

open Effect

variable {m₀ : Machine}

theorem plain_step {x : Exec Step} (h : Plain m₀ x) : Plain m₀ (Prepared.step <$> x) :=
  plain_map _ h

theorem plain_prepareOperator (o : Opcode) (receiver : Value) (args : List Value) :
    Plain m₀ (prepareOperator o receiver args) := by
  unfold prepareOperator
  split
  · exact plain_fail _
  · refine plain_get fun m _ => ?_
    split
    · exact plain_fail _
    · exact .bind (plain_find _ _) fun _ => plain_pure _

theorem plain_prepareConstructor (obj : Value) (args : List Value) :
    Plain m₀ (prepareConstructor obj args) := by
  unfold prepareConstructor
  refine plain_get fun m _ => ?_
  dsimp only
  split
  · exact plain_step (plain_andNext (plain_push _))
  · exact .bind (plain_ofExcept _) fun _ => plain_pure _

theorem plain_prepareInstance (t : TypeId) (args : List Value) :
    Plain m₀ (prepareInstance t args) := by
  unfold prepareInstance
  split
  · exact .bind (plain_newArray args) fun _ => plain_step (plain_andNext (plain_push _))
  · split
    · exact .bind (plain_alloc _) fun _ => plain_step (plain_andNext (plain_push _))
    · split
      · exact plain_get fun _ _ => plain_fail _
      · exact .bind (plain_alloc _) fun _ => plain_prepareConstructor _ args

/-- The first part of an instruction enters no frame and does not ask the guard. -/
theorem plain_prepare (o : Opcode) : Plain m₀ (prepare o) := by
  have next {x : Exec Unit} (h : Plain m₀ x) : Plain m₀ (Prepared.step <$> andNext x) :=
    plain_step (plain_andNext h)
  cases o with
  | pushConstant i => exact next (plain_pushConstant i)
  | pushVoid => exact next (plain_push _)
  | pushTrue => exact next (plain_push _)
  | pushFalse => exact next (plain_push _)
  | loadLocal slot => exact next (plain_loadLocal slot)
  | storeLocal slot => exact next (plain_storeLocal slot)
  | loadThis => exact next plain_loadThis
  | loadStatic slot => exact next (plain_loadStatic slot)
  | storeStatic slot => exact next (plain_storeStatic slot)
  | jumpIfStaticInitialized slot target => exact next (plain_jumpIfStaticInitialized slot target)
  | loadGlobal i => exact next (plain_loadGlobal i)
  | storeGlobal i => exact next (plain_storeGlobal i)
  | getAttribute i => exact next (plain_getAttribute i)
  | setAttribute i => exact next (plain_setAttribute i)
  | defineAttribute i flags => exact next (plain_defineAttribute i flags)
  | getIndex => exact next plain_getIndex
  | setIndex => exact next plain_setIndex
  | binary op =>
    refine .bind plain_pop fun b => .bind plain_pop fun a => ?_
    split
    · exact next (plain_push _)
    · exact plain_prepareOperator _ _ _
  | neg =>
    refine .bind plain_pop fun a => ?_
    split
    · exact next (plain_push _)
    · exact plain_prepareOperator _ _ _
  | not => exact next plain_not
  | equal =>
    refine .bind plain_pop fun b => .bind plain_pop fun a => ?_
    refine .bind (plain_hasEqualityMethod a) fun has => ?_
    split
    · exact plain_prepareOperator _ _ _
    · exact next (plain_push _)
  | notEqual => exact plain_step plain_notEqual
  | identical => exact next plain_identical
  | isInstanceOf => exact next plain_isInstanceOf
  | jump target => exact next (plain_setTop _)
  | jumpIfTrue target => exact next (plain_jumpIf true target)
  | jumpIfFalse target => exact next (plain_jumpIf false target)
  | jumpIfArgumentSupplied p target => exact next (plain_jumpIfArgumentSupplied p target)
  | ret => exact plain_step plain_ret
  | call argc => exact .bind (plain_popMany argc) fun _ => .bind plain_pop fun _ => plain_pure _
  | callMethod i argc =>
    refine .bind (plain_name i) fun n => .bind (plain_popMany argc) fun args => ?_
    exact .bind plain_pop fun receiver => .bind (plain_find receiver n) fun _ => plain_pure _
  | instantiate argc =>
    refine .bind (plain_popMany argc) fun args => .bind plain_pop fun v => ?_
    split
    · exact plain_prepareInstance _ args
    · exact plain_fail _
  | createArray count => exact next (plain_createArray count)
  | createMap count => exact next (plain_createMap count)
  | createClosure i => exact next (plain_createClosure i)
  | createType i hasBase => exact next (plain_createType i hasBase)
  | createTrait i => exact next (plain_createTrait i)
  | composeTrait => exact next plain_composeTrait
  | throw => exact next plain_raise
  | pushTry target => exact next (plain_pushTry target)
  | popTry => exact next (plain_setTop _)
  | pop => exact next plain_discard
  | dup => exact next plain_dup

end Exec

end ScriptMachine
