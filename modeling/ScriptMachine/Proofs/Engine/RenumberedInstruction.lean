import ScriptMachine.Proofs.Engine.RenumberedMachine

namespace ScriptMachine

variable {ρ : Renumbering} {n : Nat}

namespace Effect

open Exec

theorem maps_pushConstant (i : Nat) : Maps ρ n id (pushConstant i) (pushConstant i) := by
  refine .bind maps_top fun f => ?_
  rw [Frame.closure_renumber]
  cases f.closure.template.body.constants[i]? with
  | none => exact .fail _
  | some c =>
    have hpush := maps_push (ρ := ρ) (n := n) (.ofConstant c)
    rw [Value.renumber_ofConstant] at hpush
    exact hpush

theorem maps_loadLocal (slot : Nat) : Maps ρ n id (loadLocal slot) (loadLocal slot) := by
  refine .bind maps_top fun f => ?_
  rw [Frame.renumber]
  dsimp only
  rw [Array.getElem?_map]
  cases f.locals[slot]? with
  | none => exact .fail _
  | some v => exact maps_push v

theorem maps_storeLocal (slot : Nat) : Maps ρ n id (storeLocal slot) (storeLocal slot) := by
  refine .bind maps_pop fun v => .bind maps_top fun f => ?_
  change Tracks ρ n _ (if slot < f.locals.size then _ else _)
    (if slot < (f.locals.map (Value.renumber ρ)).size then _ else _)
  rw [Array.size_map]
  split
  · refine maps_setTop fun g => ?_
    simp [Frame.renumber]
  · exact .fail _

theorem maps_loadThis : Maps ρ n id loadThis loadThis :=
  .bind maps_top fun f => maps_push f.this

theorem maps_loadStatic (slot : Nat) : Maps ρ n id (loadStatic slot) (loadStatic slot) := by
  refine .bind maps_statics fun b => ?_
  rw [Statics.get?_renumber, getD_renumber]
  exact maps_push _

theorem maps_storeStatic (slot : Nat) : Maps ρ n id (storeStatic slot) (storeStatic slot) := by
  refine .bind maps_pop fun v => .bind maps_statics fun b => ?_
  refine .bind (.ofExcept (.of_map (Statics.set_renumber b slot v))) fun b' => ?_
  refine .bind maps_top fun f => .modify fun m m' hm => ?_
  exact { hm with store := hm.store.setStatics f.closure.statics b' }

theorem maps_jumpIfStaticInitialized (slot target : Nat) :
    Maps ρ n id (jumpIfStaticInitialized slot target) (jumpIfStaticInitialized slot target) := by
  refine .bind maps_statics fun b => ?_
  have hset : (b.renumber ρ).isInitialized slot = b.isInitialized slot := by
    rw [Statics.isInitialized, Statics.get?_renumber, Option.isSome_map, Statics.isInitialized]
  rw [hset]
  split
  · exact maps_jump target
  · exact .pure rfl

theorem maps_loadGlobal (i : Nat) : Maps ρ n id (loadGlobal i) (loadGlobal i) := by
  refine .bind (maps_name i) fun name => .get_bind fun m m' hm => ?_
  rw [hm.globals, Table.get?_map, id]
  cases m.globals.get? name with
  | none => exact .fail _
  | some v => exact maps_push v

theorem maps_storeGlobal (i : Nat) : Maps ρ n id (storeGlobal i) (storeGlobal i) := by
  refine .bind (maps_name i) fun name => .bind maps_pop fun v => ?_
  refine .modify fun m m' hm => { hm with globals := ?_ }
  rw [hm.globals]
  exact Table.insert_map (Value.renumber ρ) m.globals name v

theorem maps_getAttribute (i : Nat) : Maps ρ n id (getAttribute i) (getAttribute i) := by
  refine .bind (maps_name i) fun name => .bind maps_pop fun receiver => ?_
  refine .bind (maps_find receiver name) fun v => ?_
  refine .bind (e := Value.renumber ρ) (.alloc fun s s' hs => hs.bind receiver v) fun w => ?_
  exact maps_push w

theorem maps_setAttribute (i : Nat) : Maps ρ n id (setAttribute i) (setAttribute i) := by
  refine .bind (maps_name i) fun name => .bind maps_pop fun v => .bind maps_pop fun target => ?_
  exact .bind maps_access fun a => .alter fun s s' hs => hs.set a target name v

theorem maps_defineAttribute (i : Nat) (flags : Flags) :
    Maps ρ n id (defineAttribute i flags) (defineAttribute i flags) := by
  refine .bind (maps_name i) fun name => .bind maps_pop fun v => .bind maps_pop fun target => ?_
  exact .bind (.alter fun s s' hs => hs.define target name v flags) fun _ => maps_push target

theorem maps_getIndex : Maps ρ n id getIndex getIndex := by
  refine .bind maps_pop fun index => .bind maps_pop fun container => .get_bind fun m m' hm => ?_
  exact .bind (.ofExcept (hm.store.readElement container index)) fun v => maps_push v

theorem maps_setIndex : Maps ρ n id setIndex setIndex := by
  refine .bind maps_pop fun v => .bind maps_pop fun index => .bind maps_pop fun container => ?_
  exact .alter fun s s' hs => hs.writeElement container index v

theorem concat?_fixed {a b v : Value} (h : BinaryOp.concat? a b = some v) : v.renumber ρ = v := by
  simp only [BinaryOp.concat?, Option.bind_eq_bind, Option.bind_eq_some_iff, pure,
    Option.some.injEq] at h
  obtain ⟨_, _, _, _, rfl⟩ := h
  rfl

theorem onPrimitives?_fixed {op : BinaryOp} {a b v : Value} (h : op.onPrimitives? a b = some v) :
    v.renumber ρ = v := by
  unfold BinaryOp.onPrimitives? at h
  split at h
  · cases h
    cases op <;> rfl
  · cases op <;> cases h <;> rfl
  · split at h
    · exact concat?_fixed h
    · cases h
  · split at h
    · exact concat?_fixed h
    · cases h
  · cases h

theorem onPrimitives?_renumber (op : BinaryOp) (a b : Value) :
    op.onPrimitives? (a.renumber ρ) (b.renumber ρ) =
      (op.onPrimitives? a b).map (Value.renumber ρ) := by
  have hsame : op.onPrimitives? (a.renumber ρ) (b.renumber ρ) = op.onPrimitives? a b := by
    cases a <;> cases b <;> rfl
  rw [hsame]
  cases h : op.onPrimitives? a b with
  | none => rfl
  | some v => rw [Option.map_some, onPrimitives?_fixed h]

theorem tracks_binary (op : BinaryOp) : Tracks ρ n (StepAlike ρ) (binary op) (binary op) := by
  refine .bind maps_pop fun b => .bind maps_pop fun a => ?_
  rw [onPrimitives?_renumber]
  cases op.onPrimitives? a b with
  | none => exact tracks_callOperator (.binary op) a [b]
  | some v => exact tracks_pushNext v

theorem tracks_neg : Tracks ρ n (StepAlike ρ) neg neg := by
  refine .bind maps_pop fun a => ?_
  have hnegate : (a.renumber ρ).negate? = a.negate?.map (Value.renumber ρ) := by cases a <;> rfl
  rw [hnegate]
  cases a.negate? with
  | none => exact tracks_callOperator .neg a []
  | some v => exact tracks_pushNext v

theorem maps_not : Maps ρ n id not not := by
  refine .bind maps_pop fun a => ?_
  rw [Value.truthy_renumber]
  exact maps_push (.bool !a.truthy)

theorem tracks_equal : Tracks ρ n (StepAlike ρ) equal equal := by
  refine .bind maps_pop fun b => .bind maps_pop fun a => ?_
  refine .bind (maps_hasEqualityMethod a) fun has => ?_
  cases has with
  | true => exact tracks_callOperator .equal a [b]
  | false =>
    rw [Value.renumber_beq]
    exact tracks_pushNext (.bool (a == b))

theorem tracks_notEqual : Tracks ρ n (StepAlike ρ) notEqual notEqual := by
  refine .bind maps_pop fun b => .bind maps_pop fun a => ?_
  refine .bind (maps_hasEqualityMethod a) fun has => ?_
  cases has with
  | true => exact .bind (maps_find a "==") fun method => .pure (.compare method a b)
  | false =>
    rw [Value.renumber_beq]
    exact tracks_pushNext (.bool !(a == b))

theorem maps_identical : Maps ρ n id identical identical := by
  refine .bind maps_pop fun b => .bind maps_pop fun a => ?_
  rw [Value.renumber_beq]
  exact maps_push (.bool (a == b))

theorem maps_isInstanceOf : Maps ρ n id isInstanceOf isInstanceOf := by
  refine .bind maps_pop fun t => .bind maps_pop fun v => ?_
  cases t with
  | type id =>
    refine .get_bind fun m m' hm => ?_
    rw [hm.store.isInstance]
    exact maps_push (.bool (m.store.isInstance v id))
  | _ => exact .fail _

theorem maps_jumpIf (expected : Bool) (target : Nat) :
    Maps ρ n id (jumpIf expected target) (jumpIf expected target) := by
  refine .bind maps_pop fun v => ?_
  rw [Value.truthy_renumber]
  split
  · exact maps_jump target
  · exact .pure rfl

theorem maps_jumpIfArgumentSupplied (p target : Nat) :
    Maps ρ n id (jumpIfArgumentSupplied p target) (jumpIfArgumentSupplied p target) := by
  refine .bind maps_top fun f => ?_
  change Tracks ρ n _ (if p < f.supplied then _ else _) (if p < f.supplied then _ else _)
  split
  · exact maps_jump target
  · exact .pure rfl

theorem tracks_ret : Tracks ρ n (StepAlike ρ) ret ret := by
  refine .get_bind fun m m' hm => ?_
  rw [hm.floor, hm.stack, List.length_map]
  split
  · exact .bind maps_pop fun v => .pure (.returned v)
  · exact .pure (.returned .void)

theorem maps_raise : Maps ρ n id raise raise := by
  refine .bind maps_pop fun v => .bind (.modify fun m m' hm => ?_) fun _ => .signal (.raise v)
  exact { hm with raiseTrace := rfl, raisePosition := rfl }

theorem maps_pushTry (target : Nat) : Maps ρ n id (pushTry target) (pushTry target) := by
  refine .get_bind fun m m' hm => ?_
  dsimp only
  rw [hm.stack, List.length_map]
  exact maps_setTop fun _ => rfl

theorem maps_popTry : Maps ρ n id popTry popTry :=
  maps_setTop fun _ => rfl

theorem maps_discard : Maps ρ n id discard discard :=
  .bind maps_pop fun _ => .pure rfl

theorem maps_dup : Maps ρ n id dup dup :=
  .bind maps_pop fun v => .bind (maps_push v) fun _ => maps_push v

theorem tracks_call (argc : Nat) : Tracks ρ n (StepAlike ρ) (call argc) (call argc) :=
  .bind (maps_popMany argc) fun _ => .bind maps_pop fun callee =>
    tracks_callAndGoOn callee none none

theorem tracks_callMethod (i argc : Nat) :
    Tracks ρ n (StepAlike ρ) (callMethod i argc) (callMethod i argc) := by
  refine .bind (maps_name i) fun name => .bind (maps_popMany argc) fun args => ?_
  refine .bind maps_pop fun receiver => .bind (maps_find receiver name) fun method => ?_
  exact tracks_callAndGoOn method (some receiver) none

theorem tracks_constructOn (id : ObjectId) (args : List Value) :
    Tracks ρ n (StepAlike ρ) (constructOn (.object id) args)
      (constructOn (.object id) (args.map (Value.renumber ρ))) := by
  refine .get_bind fun m m' hm => ?_
  have hresolve := hm.store.resolve (.object id) "_constructor"
  have hfind := hm.store.find (.within (.object id)) (.object id) "_constructor"
  change m'.store.resolve (.object id) _ = _ at hresolve
  change m'.store.find (.within (.object id)) (.object id) _ = _ at hfind
  dsimp only
  rw [hresolve, hfind]
  cases m.store.resolve (.object id) "_constructor" with
  | none => exact tracks_pushNext (.object id)
  | some r =>
    refine .bind (.ofExcept (.of_map rfl)) fun method => ?_
    exact tracks_callAndGoOn method (some (.object id)) (some (.object id))

theorem tracks_construct (t : TypeId) (args : List Value) :
    Tracks ρ n (StepAlike ρ) (construct t args) (construct t (args.map (Value.renumber ρ))) := by
  unfold construct
  split
  · exact .bind (maps_newArray args) fun v => tracks_pushNext v
  · split
    · refine .bind (e := id) (.alloc fun s s' hs => hs.newMap .empty) fun id => ?_
      exact tracks_pushNext (.map id)
    · split
      · refine .get_bind fun m m' hm => ?_
        rw [hm.store.typeName]
        exact .fail _
      · refine .bind (e := id) (.alloc fun s s' hs => hs.instantiate t) fun id => ?_
        exact tracks_constructOn id args

theorem tracks_instantiate (argc : Nat) :
    Tracks ρ n (StepAlike ρ) (instantiate argc) (instantiate argc) := by
  refine .bind (maps_popMany argc) fun args => .bind maps_pop fun v => ?_
  cases v with
  | type t => exact tracks_construct t args
  | _ => exact .fail _

theorem maps_createArray (count : UInt64) : Maps ρ n id (createArray count) (createArray count) :=
  .bind (maps_popCounted _) fun items => .bind (maps_newArray items) fun v => maps_push v

theorem maps_createMap (count : UInt64) : Maps ρ n id (createMap count) (createMap count) := by
  unfold createMap
  split
  · refine .bind (maps_popCounted _) fun items => ?_
    refine .bind (.ofExcept (.of_map (mapEntries_renumber .empty items))) fun entries => ?_
    refine .bind (e := id) (.alloc fun s s' hs => hs.newMap entries) fun id => ?_
    exact maps_push (.map id)
  · exact .overflow

theorem maps_createClosure (i : Nat) : Maps ρ n id (createClosure i) (createClosure i) := by
  refine .bind maps_top fun f => ?_
  rw [Frame.closure_renumber]
  cases f.closure.nested? i with
  | none => exact .fail _
  | some closure =>
    refine .bind (e := id) (.alloc fun s s' hs => hs.newFunction ⟨closure, .empty⟩) fun id => ?_
    exact maps_push (.function id)

theorem maps_baseType (hasBase : Bool) : Maps ρ n id (baseType hasBase) (baseType hasBase) := by
  cases hasBase with
  | false => exact .pure rfl
  | true =>
    refine .bind maps_pop fun v => ?_
    cases v with
    | type t => exact .pure rfl
    | _ => exact .fail _

theorem maps_createType (i : Nat) (hasBase : Bool) :
    Maps ρ n id (createType i hasBase) (createType i hasBase) := by
  refine .bind (maps_name i) fun name => .bind (maps_baseType hasBase) fun base => ?_
  refine .bind (e := id) (.alloc fun s s' hs => hs.newType { name, base := some base }) fun id => ?_
  exact maps_push (.type id)

theorem maps_createTrait (i : Nat) : Maps ρ n id (createTrait i) (createTrait i) := by
  refine .bind (maps_name i) fun name => ?_
  refine .bind (e := id) (.alloc fun s s' hs => hs.newTrait { name }) fun id => ?_
  exact maps_push (.trait id)

theorem maps_composeTrait : Maps ρ n id composeTrait composeTrait := by
  refine .bind maps_pop fun bundle => .bind maps_pop fun target => ?_
  cases target with
  | type t =>
    cases bundle with
    | trait b =>
      refine .bind (.modify fun m m' hm => ?_) fun _ => maps_push (.type t)
      exact { hm with store := hm.store.compose t b }
    | _ => exact .fail _
  | _ => exact .fail _

end Effect

namespace Exec

open Effect

/-- The same instruction on two machines that are alike. -/
theorem tracks_execute (o : Opcode) : Tracks ρ n (StepAlike ρ) (execute o) (execute o) := by
  cases o with
  | pushConstant i => exact tracks_andNext (maps_pushConstant i)
  | pushVoid => exact tracks_pushNext .void
  | pushTrue => exact tracks_pushNext (.bool true)
  | pushFalse => exact tracks_pushNext (.bool false)
  | loadLocal slot => exact tracks_andNext (maps_loadLocal slot)
  | storeLocal slot => exact tracks_andNext (maps_storeLocal slot)
  | loadThis => exact tracks_andNext maps_loadThis
  | loadStatic slot => exact tracks_andNext (maps_loadStatic slot)
  | storeStatic slot => exact tracks_andNext (maps_storeStatic slot)
  | jumpIfStaticInitialized slot target =>
    exact tracks_andNext (maps_jumpIfStaticInitialized slot target)
  | loadGlobal i => exact tracks_andNext (maps_loadGlobal i)
  | storeGlobal i => exact tracks_andNext (maps_storeGlobal i)
  | getAttribute i => exact tracks_andNext (maps_getAttribute i)
  | setAttribute i => exact tracks_andNext (maps_setAttribute i)
  | defineAttribute i flags => exact tracks_andNext (maps_defineAttribute i flags)
  | getIndex => exact tracks_andNext maps_getIndex
  | setIndex => exact tracks_andNext maps_setIndex
  | binary op => exact tracks_binary op
  | neg => exact tracks_neg
  | not => exact tracks_andNext maps_not
  | equal => exact tracks_equal
  | notEqual => exact tracks_notEqual
  | identical => exact tracks_andNext maps_identical
  | isInstanceOf => exact tracks_andNext maps_isInstanceOf
  | jump target => exact tracks_andNext (maps_jump target)
  | jumpIfTrue target => exact tracks_andNext (maps_jumpIf true target)
  | jumpIfFalse target => exact tracks_andNext (maps_jumpIf false target)
  | jumpIfArgumentSupplied p target => exact tracks_andNext (maps_jumpIfArgumentSupplied p target)
  | ret => exact tracks_ret
  | call argc => exact tracks_call argc
  | callMethod i argc => exact tracks_callMethod i argc
  | instantiate argc => exact tracks_instantiate argc
  | createArray count => exact tracks_andNext (maps_createArray count)
  | createMap count => exact tracks_andNext (maps_createMap count)
  | createClosure i => exact tracks_andNext (maps_createClosure i)
  | createType i hasBase => exact tracks_andNext (maps_createType i hasBase)
  | createTrait i => exact tracks_andNext (maps_createTrait i)
  | composeTrait => exact tracks_andNext maps_composeTrait
  | throw => exact tracks_andNext maps_raise
  | pushTry target => exact tracks_andNext (maps_pushTry target)
  | popTry => exact tracks_andNext maps_popTry
  | pop => exact tracks_andNext maps_discard
  | dup => exact tracks_andNext maps_dup

end Exec

end ScriptMachine
