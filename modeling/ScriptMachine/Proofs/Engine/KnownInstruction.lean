import ScriptMachine.Proofs.Engine.KnownMachine

namespace ScriptMachine

namespace Effect

open Exec

variable {n : Nat}

theorem stays_pushConstant (i : Nat) : Stays n (pushConstant i) := by
  unfold pushConstant
  refine known_top fun f _ => ?_
  split
  · rename_i c _
    cases c <;> exact stays_push trivial
  · exact known_fail

theorem stays_loadLocal (slot : Nat) : Stays n (loadLocal slot) := by
  unfold loadLocal
  refine known_top fun f hf => ?_
  split
  · rename_i v hv
    exact stays_push (hf.locals v (Array.mem_of_getElem? hv))
  · exact known_fail

theorem stays_storeLocal (slot : Nat) : Stays n (storeLocal slot) := by
  unfold storeLocal
  refine known_bind stays_pop fun v hv => known_top fun f _ => ?_
  split
  · exact stays_setTop fun f hf =>
      ⟨forall_mem_setIfInBounds hf.locals hv, hf.this, hf.constructing⟩
  · exact known_fail

theorem stays_loadThis : Stays n loadThis :=
  known_top fun _ hf => stays_push hf.this

theorem stays_loadStatic (slot : Nat) : Stays n (loadStatic slot) :=
  known_bind stays_statics fun _ hb => stays_push (hb.get? slot)

theorem stays_storeStatic (slot : Nat) : Stays n (storeStatic slot) := by
  unfold storeStatic
  refine known_bind stays_pop fun v hv => known_bind stays_statics fun b hb => ?_
  refine known_bind (stays_ofExcept fun _ hb' => hb.set hv hb') fun b' hb' => ?_
  exact known_top fun f _ => stays_modify fun m hm => hm.withStore (hm.store.setStatics _ hb')

theorem stays_jumpIfStaticInitialized (slot target : Nat) :
    Stays n (jumpIfStaticInitialized slot target) := by
  unfold jumpIfStaticInitialized
  refine known_bind stays_statics fun b _ => ?_
  split
  · exact stays_jump target
  · exact stays_pure trivial

theorem stays_loadGlobal (i : Nat) : Stays n (loadGlobal i) := by
  unfold loadGlobal
  refine known_bind (stays_name i) fun name _ => known_get fun m hm => ?_
  split
  · rename_i v hv
    exact stays_push (hm.globals _ v hv)
  · exact known_fail

theorem stays_storeGlobal (i : Nat) : Stays n (storeGlobal i) := by
  unfold storeGlobal
  refine known_bind (stays_name i) fun name _ => known_bind stays_pop fun v hv => ?_
  exact stays_modify fun m hm => ⟨hm.store, hm.globals.insert hv, hm.frames, hm.stack⟩

theorem stays_getAttribute (i : Nat) : Stays n (getAttribute i) := by
  unfold getAttribute
  refine known_bind (stays_name i) fun name _ => known_bind stays_pop fun receiver hr => ?_
  refine known_bind (stays_find receiver name) fun v hv => ?_
  exact known_bind (stays_alloc fun _ hs => hs.bind hr hv) fun w hw => stays_push hw

theorem stays_setAttribute (i : Nat) : Stays n (setAttribute i) := by
  unfold setAttribute
  refine known_bind (stays_name i) fun name _ => known_bind stays_pop fun v hv => ?_
  refine known_bind stays_pop fun target _ => known_bind stays_access fun a _ => ?_
  exact stays_alter fun s s' hs h => hs.set hv h

theorem stays_defineAttribute (i : Nat) (flags : Flags) : Stays n (defineAttribute i flags) := by
  unfold defineAttribute
  refine known_bind (stays_name i) fun name _ => known_bind stays_pop fun v hv => ?_
  refine known_bind stays_pop fun target ht => ?_
  exact known_bind (stays_alter fun s s' hs h => hs.define hv h) fun _ _ => stays_push ht

theorem stays_getIndex : Stays n getIndex := by
  unfold getIndex
  refine known_bind stays_pop fun index _ => known_bind stays_pop fun container _ => ?_
  refine known_get fun m hm => ?_
  exact known_bind (stays_ofExcept fun _ h => hm.store.readElement h) fun v hv => stays_push hv

theorem stays_setIndex : Stays n setIndex := by
  unfold setIndex
  refine known_bind stays_pop fun v hv => known_bind stays_pop fun index _ => ?_
  refine known_bind stays_pop fun container _ => ?_
  exact stays_alter fun s s' hs h => hs.writeElement hv h

theorem concat_known {a b v : Value} (h : BinaryOp.concat? a b = some v) : v.Known n := by
  simp only [BinaryOp.concat?, Option.bind_eq_bind, Option.bind_eq_some_iff, pure,
    Option.some.injEq] at h
  obtain ⟨_, _, _, _, rfl⟩ := h
  trivial

theorem onPrimitives_known {op : BinaryOp} {a b v : Value} (h : op.onPrimitives? a b = some v) :
    v.Known n := by
  unfold BinaryOp.onPrimitives? at h
  split at h
  · cases h
    cases op <;> trivial
  · cases op <;> cases h <;> trivial
  · split at h
    · exact concat_known h
    · cases h
  · split at h
    · exact concat_known h
    · cases h
  · cases h

theorem stays_binary (op : BinaryOp) : Stays n (binary op) (Step.Known n) := by
  unfold binary
  refine known_bind stays_pop fun b hb => known_bind stays_pop fun a ha => ?_
  split
  · rename_i v hv
    exact stays_andNext (stays_push (onPrimitives_known hv))
  · exact stays_callOperator _ ha (List.forall_mem_singleton.2 hb)

theorem stays_neg : Stays n neg (Step.Known n) := by
  unfold neg
  refine known_bind stays_pop fun a ha => ?_
  split
  · rename_i v hv
    refine stays_andNext (stays_push ?_)
    cases a <;> cases hv
    trivial
  · exact stays_callOperator _ ha nofun

theorem stays_not : Stays n not :=
  known_bind stays_pop fun _ _ => stays_push trivial

theorem stays_equal : Stays n equal (Step.Known n) := by
  unfold equal
  refine known_bind stays_pop fun b hb => known_bind stays_pop fun a ha => ?_
  refine known_bind (stays_hasEqualityMethod a) fun has _ => ?_
  split
  · exact stays_callOperator _ ha (List.forall_mem_singleton.2 hb)
  · exact stays_andNext (stays_push trivial)

theorem stays_notEqual : Stays n notEqual (Step.Known n) := by
  unfold notEqual
  refine known_bind stays_pop fun b hb => known_bind stays_pop fun a ha => ?_
  refine known_bind (stays_hasEqualityMethod a) fun has _ => ?_
  split
  · exact known_bind (stays_find a "==") fun _ _ => stays_pure ⟨ha, hb⟩
  · exact stays_andNext (stays_push trivial)

theorem stays_identical : Stays n identical :=
  known_bind stays_pop fun _ _ => known_bind stays_pop fun _ _ => stays_push trivial

theorem stays_isInstanceOf : Stays n isInstanceOf := by
  unfold isInstanceOf
  refine known_bind stays_pop fun t _ => known_bind stays_pop fun v _ => ?_
  split
  · exact known_get fun _ _ => stays_push trivial
  · exact known_fail

theorem stays_jumpIf (expected : Bool) (target : Nat) : Stays n (jumpIf expected target) := by
  unfold jumpIf
  refine known_bind stays_pop fun v _ => ?_
  split
  · exact stays_jump target
  · exact stays_pure trivial

theorem stays_jumpIfArgumentSupplied (p target : Nat) :
    Stays n (jumpIfArgumentSupplied p target) := by
  unfold jumpIfArgumentSupplied
  refine known_top fun f _ => ?_
  split
  · exact stays_jump target
  · exact stays_pure trivial

theorem stays_ret : Stays n ret (Step.Known n) := by
  unfold ret
  refine known_get fun m _ => ?_
  split
  · exact known_bind stays_pop fun v hv => stays_pure hv
  · exact stays_pure trivial

theorem stays_raise : Stays n raise := by
  unfold raise
  refine known_bind stays_pop fun v hv => known_bind (stays_modify fun m hm => ?_) fun _ _ => ?_
  · exact ⟨hm.store, hm.globals, hm.frames, hm.stack⟩
  · exact .signal fun _ hm => .of_known hm hv

theorem stays_pushTry (target : Nat) : Stays n (pushTry target) :=
  known_get fun _ _ => stays_setTop fun _ hf => ⟨hf.locals, hf.this, hf.constructing⟩

theorem stays_popTry : Stays n popTry :=
  stays_setTop fun _ hf => ⟨hf.locals, hf.this, hf.constructing⟩

theorem stays_discard : Stays n discard :=
  known_bind stays_pop fun _ _ => stays_pure trivial

theorem stays_dup : Stays n dup :=
  known_bind stays_pop fun _ hv => known_bind (stays_push hv) fun _ _ => stays_push hv

theorem stays_call (argc : Nat) : Stays n (call argc) (Step.Known n) := by
  unfold call
  refine known_bind (stays_popMany argc) fun args ha => known_bind stays_pop fun callee _ => ?_
  exact stays_callAndGoOn callee nofun ha nofun

theorem stays_callMethod (i argc : Nat) : Stays n (callMethod i argc) (Step.Known n) := by
  unfold callMethod
  refine known_bind (stays_name i) fun name _ => known_bind (stays_popMany argc) fun args ha => ?_
  refine known_bind stays_pop fun receiver hr => ?_
  refine known_bind (stays_find receiver name) fun method _ => ?_
  exact stays_callAndGoOn method (forall_mem_some hr) ha nofun

theorem stays_constructOn (id : ObjectId) {args : List Value} (ha : ∀ v ∈ args, v.Known n) :
    Stays n (constructOn (.object id) args) (Step.Known n) := by
  have hobj : ∀ v ∈ some (Value.object id), v.Known n := forall_mem_some trivial
  unfold constructOn
  refine known_get fun m _ => ?_
  dsimp only
  split
  · exact stays_andNext (stays_push trivial)
  · exact known_bind (stays_ofExcept fun _ _ => trivial) fun method _ =>
      stays_callAndGoOn method hobj ha hobj

theorem stays_construct {t : TypeId} {args : List Value} (ht : t.index < n)
    (ha : ∀ v ∈ args, v.Known n) : Stays n (construct t args) (Step.Known n) := by
  unfold construct
  split
  · exact known_bind (stays_newArray ha) fun v hv => stays_andNext (stays_push hv)
  · split
    · exact known_bind (Q := fun _ => True) (stays_alloc fun _ hs => ⟨trivial, hs.newMap .empty⟩)
        fun _ _ => stays_andNext (stays_push trivial)
    · split
      · exact known_get fun m _ => known_fail
      · exact known_bind (Q := fun _ => True)
          (stays_alloc fun _ hs => ⟨trivial, hs.instantiate ht⟩) fun id _ => stays_constructOn id ha

theorem stays_instantiate (argc : Nat) : Stays n (instantiate argc) (Step.Known n) := by
  unfold instantiate
  refine known_bind (stays_popMany argc) fun args ha => known_bind stays_pop fun v hv => ?_
  split
  · exact stays_construct hv ha
  · exact known_fail

theorem stays_createArray (count : UInt64) : Stays n (createArray count) :=
  known_bind (stays_popCounted _) fun _ hi => known_bind (stays_newArray hi) fun _ hv =>
    stays_push hv

theorem stays_createMap (count : UInt64) : Stays n (createMap count) := by
  unfold createMap
  split
  · refine known_bind (stays_popCounted _) fun items hi => ?_
    refine known_bind (stays_ofExcept fun _ h => mapEntries_known .empty hi h) fun entries he => ?_
    exact known_bind (Q := fun _ => True) (stays_alloc fun _ hs => ⟨trivial, hs.newMap he⟩)
      fun _ _ => stays_push trivial
  · exact .overflow

theorem stays_createClosure (i : Nat) : Stays n (createClosure i) := by
  unfold createClosure
  refine known_top fun f _ => ?_
  split
  · exact known_bind (Q := fun _ => True) (stays_alloc fun _ hs => ⟨trivial, hs.newFunction .empty⟩)
      fun _ _ => stays_push trivial
  · exact known_fail

theorem stays_baseType (hasBase : Bool) :
    Stays n (baseType hasBase) fun t => t.index < n := by
  unfold baseType
  split
  · refine known_bind stays_pop fun v hv => ?_
    split
    · exact stays_pure hv
    · exact known_fail
  · exact fun _ hm => ⟨hm, hm.store.builtin .object⟩

theorem grows_createType (i : Nat) (hasBase : Bool) :
    Grows n (createType i hasBase) fun _ _ => True := by
  unfold createType
  refine known_bind (stays_name i) fun name _ => known_bind (stays_baseType hasBase) fun b hb => ?_
  refine Grows.bind (Q := fun k (t : TypeId) => t.index < k) (.alloc fun m hm => ?_) fun k t _ ht =>
    (stays_push (v := .type t) ht).grows fun _ h => h
  -- the new type comes after all others, its base among them
  refine ⟨n + 1, Nat.le_succ n, hm.grow (hm.store.newType name hb), ?_⟩
  change m.store.types.size < n + 1
  rw [hm.store.size]
  exact Nat.lt_succ_self n

theorem stays_createTrait (i : Nat) : Stays n (createTrait i) := by
  unfold createTrait
  refine known_bind (stays_name i) fun name _ => ?_
  exact known_bind (Q := fun _ => True) (stays_alloc fun _ hs => ⟨trivial, hs.newTrait .empty⟩)
    fun _ _ => stays_push trivial

theorem stays_composeTrait : Stays n composeTrait := by
  unfold composeTrait
  refine known_bind stays_pop fun bundle _ => known_bind stays_pop fun target ht => ?_
  split
  · refine known_bind (stays_modify fun m hm => ?_) fun _ _ => stays_push ht
    exact hm.withStore (hm.store.compose _ _)
  · exact known_fail
  · exact known_fail

end Effect

namespace Exec

open Effect

theorem grows_execute (o : Opcode) {n : Nat} : Grows n (execute o) Step.Known := by
  have next {x : Exec Unit} (h : Stays n x) : Grows n (andNext x) Step.Known :=
    (stays_andNext h).grows fun _ hs => hs
  have step {x : Exec Step} (h : Stays n x (Step.Known n)) : Grows n x Step.Known :=
    h.grows fun _ hs => hs
  cases o with
  | pushConstant i => exact next (stays_pushConstant i)
  | pushVoid => exact next (stays_push trivial)
  | pushTrue => exact next (stays_push trivial)
  | pushFalse => exact next (stays_push trivial)
  | loadLocal slot => exact next (stays_loadLocal slot)
  | storeLocal slot => exact next (stays_storeLocal slot)
  | loadThis => exact next stays_loadThis
  | loadStatic slot => exact next (stays_loadStatic slot)
  | storeStatic slot => exact next (stays_storeStatic slot)
  | jumpIfStaticInitialized slot target => exact next (stays_jumpIfStaticInitialized slot target)
  | loadGlobal i => exact next (stays_loadGlobal i)
  | storeGlobal i => exact next (stays_storeGlobal i)
  | getAttribute i => exact next (stays_getAttribute i)
  | setAttribute i => exact next (stays_setAttribute i)
  | defineAttribute i flags => exact next (stays_defineAttribute i flags)
  | getIndex => exact next stays_getIndex
  | setIndex => exact next stays_setIndex
  | binary op => exact step (stays_binary op)
  | neg => exact step stays_neg
  | not => exact next stays_not
  | equal => exact step stays_equal
  | notEqual => exact step stays_notEqual
  | identical => exact next stays_identical
  | isInstanceOf => exact next stays_isInstanceOf
  | jump target => exact next (stays_jump target)
  | jumpIfTrue target => exact next (stays_jumpIf true target)
  | jumpIfFalse target => exact next (stays_jumpIf false target)
  | jumpIfArgumentSupplied p target => exact next (stays_jumpIfArgumentSupplied p target)
  | ret => exact step stays_ret
  | call argc => exact step (stays_call argc)
  | callMethod i argc => exact step (stays_callMethod i argc)
  | instantiate argc => exact step (stays_instantiate argc)
  | createArray count => exact next (stays_createArray count)
  | createMap count => exact next (stays_createMap count)
  | createClosure i => exact next (stays_createClosure i)
  | createType i hasBase =>
    exact Grows.bind (grows_createType i hasBase) fun k _ _ _ =>
      (stays_pure (a := Step.next) (Q := Step.Known k) trivial).grows fun _ hs => hs
  | createTrait i => exact next (stays_createTrait i)
  | composeTrait => exact next stays_composeTrait
  | throw => exact next stays_raise
  | pushTry target => exact next (stays_pushTry target)
  | popTry => exact next stays_popTry
  | pop => exact next stays_discard
  | dup => exact next stays_dup

end Exec

end ScriptMachine
