import ScriptMachine.Proofs.Engine.Instruction

namespace ScriptMachine

namespace Effect

open Exec

variable {o : Opcode} {m₀ : Machine} {f₀ : Frame} {rest : List Frame} {low : List Value}

theorem obeys_pushConstant (i : Nat) :
    Obeys (.pushConstant i) m₀ f₀ rest low (pushConstant i) := by
  unfold pushConstant
  refine running_top fun f hf => ?_
  split
  · exact obeys_push _
  · rename_i hc
    rw [hf.closure_eq] at hc
    exact obeys_fail (.of_breaks (.noConstant rfl hc))

theorem obeys_loadLocal (slot : Nat) : Obeys (.loadLocal slot) m₀ f₀ rest low (loadLocal slot) := by
  unfold loadLocal
  refine running_top fun f hf => ?_
  split
  · exact obeys_push _
  · rename_i hl
    have hsize := Array.getElem?_eq_none_iff.1 hl
    rw [hf.locals] at hsize
    exact obeys_fail (.of_breaks (.noLocal (.inl rfl) hsize))

theorem obeys_storeLocal (slot : Nat) :
    Obeys (.storeLocal slot) m₀ f₀ rest low (storeLocal slot) := by
  unfold storeLocal
  refine .bind obeys_pop fun v => running_top fun f hf => ?_
  split
  · exact obeys_setTop fun _ hf => hf.withLocal slot v
  · rename_i hl
    rw [hf.locals] at hl
    exact obeys_fail (.of_breaks (.noLocal (.inr rfl) (Nat.le_of_not_lt hl)))

theorem obeys_loadThis : Obeys o m₀ f₀ rest low loadThis :=
  running_top fun _ _ => obeys_push _

theorem obeys_loadStatic (slot : Nat) : Obeys o m₀ f₀ rest low (loadStatic slot) :=
  running_statics fun _ _ => obeys_push _

theorem obeys_storeStatic (slot : Nat) :
    Obeys (.storeStatic slot) m₀ f₀ rest low (storeStatic slot) := by
  unfold storeStatic
  refine .bind obeys_pop fun v => running_statics fun block hb => ?_
  cases hset : block.set slot v with
  | error c =>
    obtain ⟨rfl, hle⟩ := Statics.set_error hset
    exact obeys_fail (.of_breaks (.noStatic rfl fun hid => hb hid ▸ hle))
  | ok block' =>
    refine running_top fun f hf => obeys_modify fun m hm => ?_
    -- the block may have got new values since the start, but no other size
    rw [hf.closure_eq]
    exact hm.withStore (hm.store.setStatics fun hid => (Statics.size_set hset).trans (hb hid))

theorem obeys_jumpIfStaticInitialized (slot target : Nat) :
    Obeys (.jumpIfStaticInitialized slot target) m₀ f₀ rest low
      (jumpIfStaticInitialized slot target) := by
  unfold jumpIfStaticInitialized
  refine running_statics fun block _ => ?_
  split
  · exact obeys_jump rfl
  · exact obeys_pure _

theorem obeys_loadGlobal (i : Nat) : Obeys (.loadGlobal i) m₀ f₀ rest low (loadGlobal i) := by
  unfold loadGlobal
  refine .bind (obeys_name rfl) fun n => running_get fun m _ => ?_
  split
  · exact obeys_push _
  · exact obeys_fail (.of_kind nofun)

theorem obeys_storeGlobal (i : Nat) : Obeys (.storeGlobal i) m₀ f₀ rest low (storeGlobal i) := by
  unfold storeGlobal
  refine .bind (obeys_name rfl) fun n => .bind obeys_pop fun v => obeys_modify fun m hm => ?_
  exact ⟨hm.frames, hm.base, hm.stack, hm.config, hm.guard, hm.store, hm.executed, hm.clean⟩

theorem obeys_getAttribute (i : Nat) :
    Obeys (.getAttribute i) m₀ f₀ rest low (getAttribute i) := by
  unfold getAttribute
  refine .bind (obeys_name rfl) fun n => .bind obeys_pop fun receiver => ?_
  refine .bind (obeys_find receiver n) fun v => ?_
  exact .bind (obeys_alloc fun s => (s.kept_bind receiver v).toUntouched) fun _ => obeys_push _

theorem obeys_setAttribute (i : Nat) :
    Obeys (.setAttribute i) m₀ f₀ rest low (setAttribute i) := by
  unfold setAttribute
  refine .bind (obeys_name rfl) fun n => .bind obeys_pop fun v => .bind obeys_pop fun target => ?_
  refine .bind obeys_access fun a => obeys_alter ?_ ?_
  · exact fun _ _ h => (Store.kept_set h).toUntouched
  · exact fun _ _ h => Store.set_kind h

theorem obeys_defineAttribute (i : Nat) (flags : Flags) :
    Obeys (.defineAttribute i flags) m₀ f₀ rest low (defineAttribute i flags) := by
  unfold defineAttribute
  refine .bind (obeys_name rfl) fun n => .bind obeys_pop fun v => .bind obeys_pop fun target => ?_
  refine .bind (obeys_alter ?_ ?_) fun _ => obeys_push _
  · exact fun _ _ h => (Store.kept_define h).toUntouched
  · exact fun _ _ h => Store.define_kind h

theorem obeys_getIndex : Obeys o m₀ f₀ rest low getIndex := by
  unfold getIndex
  refine .bind obeys_pop fun index => .bind obeys_pop fun container => running_get fun m _ => ?_
  refine .bind (obeys_ofExcept fun c hc => ?_) fun _ => obeys_push _
  exact .of_kind (Store.readElement_kind hc)

theorem obeys_setIndex : Obeys o m₀ f₀ rest low setIndex := by
  unfold setIndex
  refine .bind obeys_pop fun v => .bind obeys_pop fun index => .bind obeys_pop fun container => ?_
  refine obeys_alter ?_ ?_
  · exact fun _ _ h => (Store.kept_writeElement h).toUntouched
  · exact fun _ _ h => Store.writeElement_kind h

theorem advances_binary (ho : o.jumpTarget? = none) (op : BinaryOp) :
    Advances o m₀ f₀ rest low (binary op) := by
  unfold binary
  refine .bind obeys_pop fun b => .bind obeys_pop fun a => ?_
  split
  · exact advances_push _
  · exact advances_callOperator ho rfl _ _

theorem advances_neg (ho : o.jumpTarget? = none) : Advances o m₀ f₀ rest low neg := by
  unfold neg
  refine .bind obeys_pop fun a => ?_
  split
  · exact advances_push _
  · exact advances_callOperator ho rfl _ _

theorem obeys_not : Obeys o m₀ f₀ rest low not :=
  .bind obeys_pop fun _ => obeys_push _

theorem advances_equal (ho : o.jumpTarget? = none) : Advances o m₀ f₀ rest low equal := by
  unfold equal
  refine .bind obeys_pop fun b => .bind obeys_pop fun a => ?_
  refine .bind (obeys_hasEqualityMethod a) fun has => ?_
  split
  · exact advances_callOperator ho rfl _ _
  · exact advances_push _

theorem advances_notEqual (ho : o.jumpTarget? = none) : Advances o m₀ f₀ rest low notEqual := by
  unfold notEqual
  refine .bind obeys_pop fun b => .bind obeys_pop fun a => ?_
  refine .bind (obeys_hasEqualityMethod a) fun has => ?_
  split
  · exact .bind (obeys_find a "==") fun _ => .pure fun _ hm => ⟨hm, ho⟩
  · exact advances_push _

theorem obeys_identical : Obeys o m₀ f₀ rest low identical :=
  .bind obeys_pop fun _ => .bind obeys_pop fun _ => obeys_push _

theorem obeys_isInstanceOf : Obeys o m₀ f₀ rest low isInstanceOf := by
  unfold isInstanceOf
  refine .bind obeys_pop fun t => .bind obeys_pop fun v => ?_
  split
  · exact running_get fun _ _ => obeys_push _
  · exact obeys_fail (.of_kind nofun)

theorem obeys_jumpIf {expected : Bool} {target : Nat} (h : o.jumpTarget? = some target) :
    Obeys o m₀ f₀ rest low (jumpIf expected target) := by
  unfold jumpIf
  refine .bind obeys_pop fun v => ?_
  split
  · exact obeys_jump h
  · exact obeys_pure _

theorem obeys_jumpIfArgumentSupplied (p target : Nat) :
    Obeys (.jumpIfArgumentSupplied p target) m₀ f₀ rest low (jumpIfArgumentSupplied p target) := by
  unfold jumpIfArgumentSupplied
  refine running_top fun f _ => ?_
  split
  · exact obeys_jump rfl
  · exact obeys_pure _

theorem advances_ret : Advances o m₀ f₀ rest low ret := by
  unfold ret
  refine running_get fun m _ => ?_
  split
  · exact .bind obeys_pop fun _ => .pure fun _ hm => hm
  · exact .pure fun _ hm => hm

theorem obeys_raise : Obeys .throw m₀ f₀ rest low raise := by
  unfold raise
  refine .bind obeys_pop fun v => .bind (obeys_modify fun m hm => ?_) fun _ => ?_
  · exact ⟨hm.frames, hm.base, hm.stack, hm.config, hm.guard, hm.store, hm.executed,
      fun _ => ⟨rfl, rfl⟩⟩
  · exact .signal fun _ hm => ⟨hm, rfl⟩

theorem obeys_pushTry (target : Nat) : Obeys (.pushTry target) m₀ f₀ rest low (pushTry target) := by
  unfold pushTry
  -- the region is opened at the height of the stack, which is not below the base
  refine running_get fun m hm => obeys_setTop fun f hf => hf.withHandler rfl ?_
  exact hm.base ▸ hm.stack.length_le

theorem obeys_popTry : Obeys o m₀ f₀ rest low popTry :=
  obeys_setTop fun _ hf => hf.dropHandler

theorem obeys_discard : Obeys o m₀ f₀ rest low discard :=
  .bind obeys_pop fun _ => obeys_pure _

theorem obeys_dup : Obeys o m₀ f₀ rest low dup :=
  .bind obeys_pop fun _ => .bind (obeys_push _) fun _ => obeys_push _

theorem advances_call (ho : o.jumpTarget? = none) (argc : Nat) :
    Advances o m₀ f₀ rest low (call argc) :=
  .bind (obeys_popMany argc) fun _ => .bind obeys_pop fun _ => advances_callAndGoOn ho _ _ _ _

theorem advances_callMethod (i argc : Nat) :
    Advances (.callMethod i argc) m₀ f₀ rest low (callMethod i argc) := by
  unfold callMethod
  refine .bind (obeys_name rfl) fun n => .bind (obeys_popMany argc) fun args => ?_
  refine .bind obeys_pop fun receiver => .bind (obeys_find receiver n) fun method => ?_
  exact advances_callAndGoOn rfl _ _ _ _

theorem advances_constructOn (ho : o.jumpTarget? = none) (obj : Value) (args : List Value) :
    Advances o m₀ f₀ rest low (constructOn obj args) := by
  unfold constructOn
  refine running_get fun m _ => ?_
  dsimp only
  split
  · exact advances_push _
  · refine .bind (obeys_ofExcept fun c hc => ?_) fun _ => advances_callAndGoOn ho _ _ _ _
    exact .of_kind (Store.find_kind hc)

theorem advances_construct (ho : o.jumpTarget? = none) (t : TypeId) (args : List Value) :
    Advances o m₀ f₀ rest low (construct t args) := by
  unfold construct
  split
  · exact .bind (obeys_newArray args) fun _ => advances_push _
  · split
    · exact .bind (obeys_alloc fun s => s.untouched_newMap _) fun _ => advances_push _
    · split
      · exact running_get fun m _ => advances_fail nofun
      · refine .bind (obeys_alloc fun s => ?_) fun _ => advances_constructOn ho _ _
        exact (Store.Grown.instantiate s t).kept.toUntouched

theorem advances_instantiate (ho : o.jumpTarget? = none) (argc : Nat) :
    Advances o m₀ f₀ rest low (instantiate argc) := by
  unfold instantiate
  refine .bind (obeys_popMany argc) fun args => .bind obeys_pop fun v => ?_
  split
  · exact advances_construct ho _ args
  · exact advances_fail nofun

theorem obeys_createArray (count : UInt64) : Obeys o m₀ f₀ rest low (createArray count) :=
  .bind (obeys_popCounted _) fun _ => .bind (obeys_newArray _) fun _ => obeys_push _

theorem obeys_createMap (count : UInt64) : Obeys o m₀ f₀ rest low (createMap count) := by
  unfold createMap
  split
  · refine .bind (obeys_popCounted _) fun items =>
      .bind (obeys_ofExcept fun c hc => ?_) fun entries => ?_
    · exact .of_kind (mapEntries_kind hc)
    · exact .bind (obeys_alloc fun s => s.untouched_newMap _) fun _ => obeys_push _
  · exact .overflow

theorem obeys_createClosure (i : Nat) :
    Obeys (.createClosure i) m₀ f₀ rest low (createClosure i) := by
  unfold createClosure
  refine running_top fun f hf => ?_
  split
  · exact .bind (obeys_alloc fun s => s.untouched_newFunction _) fun _ => obeys_push _
  · rename_i hn
    rw [hf.closure_eq] at hn
    exact obeys_fail (.of_breaks (.noNested rfl (Option.map_eq_none_iff.1 hn)))

theorem obeys_baseType (hasBase : Bool) : Obeys o m₀ f₀ rest low (baseType hasBase) := by
  unfold baseType
  split
  · refine .bind obeys_pop fun v => ?_
    split
    · exact obeys_pure _
    · exact obeys_fail (.of_kind nofun)
  · exact obeys_pure _

theorem obeys_createType (i : Nat) (hasBase : Bool) :
    Obeys (.createType i hasBase) m₀ f₀ rest low (createType i hasBase) := by
  unfold createType
  refine .bind (obeys_name rfl) fun n => .bind (obeys_baseType hasBase) fun base => ?_
  exact .bind (obeys_alloc fun s => s.untouched_newType _) fun _ => obeys_push _

theorem obeys_createTrait (i : Nat) : Obeys (.createTrait i) m₀ f₀ rest low (createTrait i) := by
  unfold createTrait
  refine .bind (obeys_name rfl) fun n => ?_
  exact .bind (obeys_alloc fun s => s.untouched_newTrait _) fun _ => obeys_push _

theorem obeys_composeTrait : Obeys o m₀ f₀ rest low composeTrait := by
  unfold composeTrait
  refine .bind obeys_pop fun bundle => .bind obeys_pop fun target => ?_
  split
  · rename_i t b
    refine .bind (obeys_modify fun m hm => ?_) fun _ => obeys_push _
    exact hm.withStore (hm.store.trans (m.store.untouched_compose t b).retained)
  · exact obeys_fail (.of_kind nofun)
  · exact obeys_fail (.of_kind nofun)

end Effect

namespace Exec

open Effect

theorem advances_execute (o : Opcode) {m₀ : Machine} {f₀ : Frame} {rest : List Frame}
    {low : List Value} : Advances o m₀ f₀ rest low (execute o) := by
  have next {x : Exec Unit} (h : Obeys o m₀ f₀ rest low x) :
      Advances o m₀ f₀ rest low (andNext x) := advances_andNext h
  cases o with
  | pushConstant i => exact next (obeys_pushConstant i)
  | pushVoid => exact next (obeys_push _)
  | pushTrue => exact next (obeys_push _)
  | pushFalse => exact next (obeys_push _)
  | loadLocal slot => exact next (obeys_loadLocal slot)
  | storeLocal slot => exact next (obeys_storeLocal slot)
  | loadThis => exact next obeys_loadThis
  | loadStatic slot => exact next (obeys_loadStatic slot)
  | storeStatic slot => exact next (obeys_storeStatic slot)
  | jumpIfStaticInitialized slot target => exact next (obeys_jumpIfStaticInitialized slot target)
  | loadGlobal i => exact next (obeys_loadGlobal i)
  | storeGlobal i => exact next (obeys_storeGlobal i)
  | getAttribute i => exact next (obeys_getAttribute i)
  | setAttribute i => exact next (obeys_setAttribute i)
  | defineAttribute i flags => exact next (obeys_defineAttribute i flags)
  | getIndex => exact next obeys_getIndex
  | setIndex => exact next obeys_setIndex
  | binary op => exact advances_binary rfl op
  | neg => exact advances_neg rfl
  | not => exact next obeys_not
  | equal => exact advances_equal rfl
  | notEqual => exact advances_notEqual rfl
  | identical => exact next obeys_identical
  | isInstanceOf => exact next obeys_isInstanceOf
  | jump target => exact next (obeys_jump rfl)
  | jumpIfTrue target => exact next (obeys_jumpIf rfl)
  | jumpIfFalse target => exact next (obeys_jumpIf rfl)
  | jumpIfArgumentSupplied p target => exact next (obeys_jumpIfArgumentSupplied p target)
  | ret => exact advances_ret
  | call argc => exact advances_call rfl argc
  | callMethod i argc => exact advances_callMethod i argc
  | instantiate argc => exact advances_instantiate rfl argc
  | createArray count => exact next (obeys_createArray count)
  | createMap count => exact next (obeys_createMap count)
  | createClosure i => exact next (obeys_createClosure i)
  | createType i hasBase => exact next (obeys_createType i hasBase)
  | createTrait i => exact next (obeys_createTrait i)
  | composeTrait => exact next obeys_composeTrait
  | throw => exact next obeys_raise
  | pushTry target => exact next (obeys_pushTry target)
  | popTry => exact next obeys_popTry
  | pop => exact next obeys_discard
  | dup => exact next obeys_dup

end Exec

end ScriptMachine
