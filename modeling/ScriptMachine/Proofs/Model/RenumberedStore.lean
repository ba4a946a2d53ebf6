import ScriptMachine.Proofs.Model.Dispatch
import ScriptMachine.Proofs.Model.ReadBack
import ScriptMachine.Proofs.Model.Renumbering

namespace ScriptMachine

variable {ρ : Renumbering} {n : Nat}

section Arrays

variable {α β : Type}

theorem map_modify {f : α → β} {g : α → α} {g' : β → β} (xs : Array α) (i : Nat)
    (h : ∀ a, g' (f a) = f (g a)) : (xs.map f).modify i g' = (xs.modify i g).map f := by
  apply Array.ext_getElem?
  intro j
  simp only [Array.getElem?_modify, Array.getElem?_map]
  split
  · cases xs[j]? with
    | none => rfl
    | some a => exact congrArg some (h a)
  · rfl

theorem getD_renumber (o : Option Value) :
    (o.map (Value.renumber ρ)).getD .void = (o.getD .void).renumber ρ := by
  cases o <;> rfl

end Arrays

namespace Store.Renumbers

variable {s s' : Store} (h : s.Renumbers ρ n s')
include h

theorem newArray (items : Array Value) :
    (s'.newArray (items.map (Value.renumber ρ))).1 = (s.newArray items).1 ∧
      (s.newArray items).2.Renumbers ρ n (s'.newArray (items.map (Value.renumber ρ))).2 := by
  refine ⟨?_, { h with arrays := ?_ }⟩
  · simp [Store.newArray, h.arrays]
  · simp [Store.newArray, h.arrays]

theorem newMap (entries : Table Value) :
    (s'.newMap (entries.map (Value.renumber ρ))).1 = (s.newMap entries).1 ∧
      (s.newMap entries).2.Renumbers ρ n (s'.newMap (entries.map (Value.renumber ρ))).2 := by
  refine ⟨?_, { h with maps := ?_ }⟩
  · simp [Store.newMap, h.maps]
  · simp [Store.newMap, h.maps]

theorem newObject (o : Object) :
    (s'.newObject (o.renumber ρ)).1 = (s.newObject o).1 ∧
      (s.newObject o).2.Renumbers ρ n (s'.newObject (o.renumber ρ)).2 := by
  refine ⟨?_, { h with objects := ?_, enough := ?_ }⟩
  · simp [Store.newObject, h.objects]
  · simp [Store.newObject, h.objects]
  · rw [Store.newObject, Array.size_push]
    exact Nat.le_succ_of_le h.enough

theorem newFunction (f : Function) :
    (s'.newFunction (f.renumber ρ)).1 = (s.newFunction f).1 ∧
      (s.newFunction f).2.Renumbers ρ n (s'.newFunction (f.renumber ρ)).2 := by
  refine ⟨?_, { h with functions := ?_ }⟩
  · simp [Store.newFunction, h.functions]
  · simp [Store.newFunction, h.functions]

theorem newType (c : TypeCell) :
    (s'.newType (c.renumber ρ)).1 = (s.newType c).1 ∧
      (s.newType c).2.Renumbers ρ n (s'.newType (c.renumber ρ)).2 := by
  refine ⟨?_, { h with types := ?_ }⟩
  · simp [Store.newType, h.types]
  · simp [Store.newType, h.types]

theorem newTrait (t : Trait) :
    (s'.newTrait (t.renumber ρ)).1 = (s.newTrait t).1 ∧
      (s.newTrait t).2.Renumbers ρ n (s'.newTrait (t.renumber ρ)).2 := by
  refine ⟨?_, { h with traits := ?_ }⟩
  · simp [Store.newTrait, h.traits]
  · simp [Store.newTrait, h.traits]

theorem newBound (b : Bound) (hold : b.method.BoundBelow s.bounds.size)
    (hold' : (b.renumber ρ).method.BoundBelow s'.bounds.size) :
    (s'.newBound (b.renumber ρ) hold').1 = ρ.image (s.newBound b hold).1 ∧
      (s.newBound b hold).2.Renumbers ρ n (s'.newBound (b.renumber ρ) hold').2 := by
  have hnew : ρ.image ⟨s.bounds.size⟩ = ⟨s'.bounds.size⟩ := h.fresh 0
  refine ⟨hnew.symm, { h with bound := fun id => ?_, fresh := fun j => ?_ }⟩
  · simp only [Store.newBound, Store.bound, Bounds.get_push]
    by_cases hid : id = ⟨s.bounds.size⟩
    · subst hid
      rw [hnew, if_pos rfl, if_pos rfl]
    · have hne : id.index ≠ s.bounds.size := Id.index_ne hid
      have hne' : (ρ.image id).index ≠ s'.bounds.size := by
        refine Id.index_ne (b := ⟨s'.bounds.size⟩) fun heq => hid (ρ.injective ?_)
        rw [heq, hnew]
      rw [if_neg hne, if_neg hne']
      exact h.bound id
  · have hnext := h.fresh (j + 1)
    simp only [Store.newBound, Bounds.size_push]
    rw [Nat.add_assoc, Nat.add_comm 1 j, hnext, Nat.add_assoc, Nat.add_comm 1 j]

theorem bind (receiver v : Value) :
    (s'.bind (receiver.renumber ρ) (v.renumber ρ)).1 = ((s.bind receiver v).1).renumber ρ ∧
      (s.bind receiver v).2.Renumbers ρ n (s'.bind (receiver.renumber ρ) (v.renumber ρ)).2 := by
  simp only [Store.bind, Value.callable?_renumber]
  cases v.callable? with
  | none => exact ⟨rfl, h⟩
  | some method =>
    have hold (n : Nat) : (Bound.renumber ρ ⟨receiver, method.value⟩).method.BoundBelow n := by
      rw [Bound.renumber, Value.renumber_callable]
      exact method.boundBelow_value n
    obtain ⟨hid, hs⟩ := h.newBound ⟨receiver, method.value⟩ (method.boundBelow_value _) (hold _)
    simp only [Bound.renumber, Value.renumber_callable] at hid hs
    exact ⟨congrArg Value.bound hid, hs⟩

theorem isPlain (v : Value) : s'.isPlain (v.renumber ρ) = s.isPlain v := by
  cases v with
  | bound id =>
    rw [Value.renumber, Store.isPlain, h.bound, Store.isPlain]
    exact congrArg Option.isSome (Value.callable?_renumber _)
  | _ => rfl

theorem dispatch (access : Access) (callee this : Value) :
    s'.dispatch (access.renumber ρ) (callee.renumber ρ) (this.renumber ρ) =
      (s.dispatch access callee this).map fun p => (p.1, p.2.renumber ρ) := by
  fun_induction Store.dispatch s access callee this with
  | case1 this id => rfl
  | case2 this id => rfl
  | case3 this id ih =>
    change s'.dispatch _ (.bound (ρ.image id)) _ = _
    rw [Store.dispatch, h.bound]
    exact ih
  | case4 this id ih =>
    change s'.dispatch _ (.object id) _ = _
    have hfind := h.find access (.object id) "_call"
    rw [Store.dispatch_object, show s'.find _ (.object id) "_call" = _ from hfind]
    cases s.find access (.object id) "_call" with
    | error c => rfl
    | ok handler =>
      change (if s'.isPlain (handler.renumber ρ) then _ else _) = Except.map _ (if _ then _ else _)
      rw [h.isPlain, Value.kindName_renumber]
      split
      · exact ih handler ‹_›
      · rfl
  | case5 this v hfunction hnative hbound hobject =>
    cases v with
    | function id => exact absurd rfl (hfunction id)
    | native id => exact absurd rfl (hnative id)
    | bound id => exact absurd rfl (hbound id)
    | object id => exact absurd rfl (hobject id)
    | _ => rfl

theorem setArray (id : ArrayId) {f f' : Array Value → Array Value}
    (hf : ∀ xs, f' (xs.map (Value.renumber ρ)) = (f xs).map (Value.renumber ρ)) :
    (s.setArray id f).Renumbers ρ n (s'.setArray id f') := by
  refine { h with arrays := ?_ }
  rw [Store.setArray, h.arrays]
  exact map_modify s.arrays id.index hf

theorem setMap (id : MapId) {f f' : Table Value → Table Value}
    (hf : ∀ t, f' (t.map (Value.renumber ρ)) = (f t).map (Value.renumber ρ)) :
    (s.setMap id f).Renumbers ρ n (s'.setMap id f') := by
  refine { h with maps := ?_ }
  rw [Store.setMap, h.maps]
  exact map_modify s.maps id.index hf

section Attributes

variable {f f' : Attributes → Attributes}
  (hf : ∀ as, f' (as.map (Attribute.renumber ρ)) = (f as).map (Attribute.renumber ρ))
include hf

theorem setObject (id : ObjectId) : (s.setObject id f).Renumbers ρ n (s'.setObject id f') := by
  refine { h with objects := ?_, enough := ?_ }
  · simp only [Store.setObject, h.objects]
    refine map_modify s.objects id.index fun o => ?_
    exact congrArg (Object.mk o.type) (hf o.attributes)
  · rw [Store.setObject, Array.size_modify]
    exact h.enough

theorem setFunction (id : FunctionId) :
    (s.setFunction id f).Renumbers ρ n (s'.setFunction id f') := by
  refine { h with functions := ?_ }
  simp only [Store.setFunction, h.functions]
  refine map_modify s.functions id.index fun o => ?_
  exact congrArg (Function.mk o.closure) (hf o.attributes)

theorem setType (id : TypeId) : (s.setType id f).Renumbers ρ n (s'.setType id f') := by
  refine { h with types := ?_ }
  simp only [Store.setType, h.types]
  refine map_modify s.types id.index fun c => ?_
  exact congrArg (TypeCell.mk c.name c.base · (c.traits.map (Snapshot.renumber ρ)))
    (hf c.attributes)

theorem setTrait (id : TraitId) : (s.setTrait id f).Renumbers ρ n (s'.setTrait id f') := by
  refine { h with traits := ?_ }
  simp only [Store.setTrait, h.traits]
  refine map_modify s.traits id.index fun t => ?_
  exact congrArg (Trait.mk t.name) (hf t.attributes)

theorem setOwn (target : Value) :
    (s.setOwn target f).Renumbers ρ n (s'.setOwn (target.renumber ρ) f') := by
  cases target with
  | object id => exact h.setObject hf id
  | function id => exact h.setFunction hf id
  | type id => exact h.setType hf id
  | trait id => exact h.setTrait hf id
  | _ => exact h

end Attributes

theorem insertOwn (target : Value) (name : String) (v : Value) (flags : Flags) :
    (s.setOwn target (·.insert name ⟨v, flags⟩)).Renumbers ρ n
      (s'.setOwn (target.renumber ρ) (·.insert name ⟨v.renumber ρ, flags⟩)) :=
  h.setOwn (fun as => Table.insert_map (Attribute.renumber ρ) as name ⟨v, flags⟩) target

theorem setDatum (id : HostedId) (d : Datum) :
    (s.setDatum id d).Renumbers ρ n (s'.setDatum id d) := by
  refine { h with hosted := ?_ }
  rw [Store.setDatum, h.hosted]
  rfl

theorem setStatics (id : StaticsId) (b : Statics) :
    (s.setStatics id b).Renumbers ρ n (s'.setStatics id (b.renumber ρ)) := by
  refine { h with statics := ?_ }
  rw [Store.setStatics, h.statics, Store.setStatics, Array.map_setIfInBounds]

theorem compose (t : TypeId) (b : TraitId) :
    (s.compose t b).Renumbers ρ n (s'.compose t b) := by
  refine { h with types := ?_ }
  simp only [Store.compose, h.types, h.trait]
  refine map_modify s.types t.index fun c => ?_
  simp [TypeCell.renumber, Trait.renumber, Snapshot.renumber]

end Store.Renumbers

/-- Two answers: both fail for one cause, or both are given and related by `R`. -/
inductive Answers {α β : Type} (R : α → β → Prop) : Except Cause α → Except Cause β → Prop
  | ok {a : α} {b : β} (h : R a b) : Answers R (.ok a) (.ok b)
  | error (c : Cause) : Answers R (.error c) (.error c)

namespace Answers

variable {α β γ δ : Type} {R : α → β → Prop} {S : γ → δ → Prop} {x : Except Cause α}
  {y : Except Cause β} {f : α → Except Cause γ} {g : β → Except Cause δ}

theorem bind (h : Answers R x y) (hf : ∀ a b, R a b → Answers S (f a) (g b)) :
    Answers S (x >>= f) (y >>= g) := by
  cases h with
  | ok h => exact hf _ _ h
  | error c => exact .error c

theorem refl (x : Except Cause α) : Answers Eq x x := by
  cases x with
  | ok a => exact .ok rfl
  | error c => exact .error c

theorem of_map {f : α → β} (h : y = x.map f) : Answers (fun a b => b = f a) x y := by
  subst h
  cases x with
  | ok a => exact .ok rfl
  | error c => exact .error c

end Answers

namespace Store.Renumbers

variable {s s' : Store} (h : s.Renumbers ρ n s')
include h

theorem assigned? (target : Value) (name : String) : s'.assigned? (target.renumber ρ) name =
    (s.assigned? target name).map (Resolved.renumber ρ) := by
  cases target with
  | type t => exact h.lookup t name
  | trait id =>
    change ((s'.trait id).attributes.get? name).map _ = Option.map _ (Option.map _ _)
    rw [h.trait]
    simp [Trait.renumber, Resolved.renumber, Function.comp_def]
  | object id => exact h.resolve (.object id) name
  | function id => exact h.resolve (.function id) name
  | bound id => exact h.resolve (.bound id) name
  | void => exact h.resolve .void name
  | bool b => exact h.resolve (.bool b) name
  | number x => exact h.resolve (.number x) name
  | string x => exact h.resolve (.string x) name
  | array id => exact h.resolve (.array id) name
  | map id => exact h.resolve (.map id) name
  | native id => exact h.resolve (.native id) name
  | hosted id => exact h.resolve (.hosted id) name

theorem own (target : Value) :
    s'.own (target.renumber ρ) = (s.own target).map (Attribute.renumber ρ) := by
  rw [Store.own, h.ownAttributes?, Store.own]
  cases s.ownAttributes? target <;> rfl

theorem checkAssign (access : Access) (target : Value) (name : String) :
    s'.checkAssign (access.renumber ρ) (target.renumber ρ) name =
      s.checkAssign access target name := by
  rw [Store.checkAssign, h.assigned?, Store.checkAssign]
  cases s.assigned? target name with
  | none => rfl
  | some r => exact h.checkWrite access target name r

theorem assignedFlags (target : Value) (name : String) :
    s'.assignedFlags (target.renumber ρ) name = s.assignedFlags target name := by
  rw [Store.assignedFlags, h.own, h.assigned?, Table.get?_map, Store.assignedFlags]
  cases (s.own target).get? name with
  | some a => rfl
  | none => cases s.assigned? target name <;> rfl

theorem set (access : Access) (target : Value) (name : String) (v : Value) :
    Answers (Store.Renumbers ρ n) (s.set access target name v)
      (s'.set (access.renumber ρ) (target.renumber ρ) name (v.renumber ρ)) := by
  have hown : hasOwn (target.renumber ρ) = hasOwn target := by cases target <;> rfl
  by_cases htarget : hasOwn target = true
  · rw [set_eq htarget, set_eq (hown.trans htarget), h.checkAssign]
    cases s.checkAssign access target name with
    | error c => exact .error c
    | ok _ =>
      refine .ok ?_
      rw [written, written, h.assignedFlags]
      exact h.insertOwn target name v _
  · rw [Store.set, Store.set, hown, if_neg htarget, if_neg htarget, Value.kindName_renumber]
    exact .error _

theorem define (target : Value) (name : String) (v : Value) (flags : Flags) :
    Answers (Store.Renumbers ρ n) (s.define target name v flags)
      (s'.define (target.renumber ρ) name (v.renumber ρ) flags) := by
  have hown : hasOwn (target.renumber ρ) = hasOwn target := by cases target <;> rfl
  rw [Store.define, Store.define, hown, Value.kindName_renumber]
  split
  · exact .ok (h.insertOwn target name v flags)
  · exact .error _

theorem readElement (container index : Value) :
    Answers (fun v w => w = v.renumber ρ) (s.readElement container index)
      (s'.readElement (container.renumber ρ) (index.renumber ρ)) := by
  apply Answers.of_map
  cases container with
  | array id =>
    cases index with
    | number x =>
      refine congrArg Except.ok ?_
      change (((Value.number x).index?.bind fun i => (s'.array id)[i]?).getD .void) = _
      rw [h.array]
      cases (Value.number x).index? with
      | none => rfl
      | some i =>
        rw [Option.bind_some, Option.bind_some, Array.getElem?_map]
        exact getD_renumber _
    | _ => rfl
  | map id =>
    change s'.readElement (.map id) (index.renumber ρ) = _
    rw [Store.readElement, Value.mapKey?_renumber, Value.kindName_renumber, h.map,
      Store.readElement]
    cases index.mapKey? with
    | none => rfl
    | some key =>
      refine congrArg Except.ok ?_
      rw [Table.get?_map]
      exact getD_renumber _
  | string t =>
    cases index with
    | number x =>
      refine congrArg Except.ok ?_
      change ((Value.number x).index?.bind fun i => t.toList[i]?).elim _ _ = _
      cases (Value.number x).index?.bind fun i => t.toList[i]? <;> rfl
    | _ => rfl
  | _ => rfl

end Store.Renumbers

theorem storeElement_renumber (items : Array Value) (i : Nat) (v : Value) :
    storeElement (items.map (Value.renumber ρ)) i (v.renumber ρ) =
      (storeElement items i v).map (·.map (Value.renumber ρ)) := by
  rw [storeElement, storeElement, Array.size_map]
  split
  · rw [Except.map, Array.map_setIfInBounds]
  · split
    · rfl
    · simp [Except.map]

theorem Effect.mapEntries_renumber (t : Table Value) (items : List Value) :
    mapEntries (t.map (Value.renumber ρ)) (items.map (Value.renumber ρ)) =
      (mapEntries t items).map (·.map (Value.renumber ρ)) := by
  fun_induction mapEntries t items with
  | case1 t key v rest k hk ih =>
    simp only [List.map_cons, mapEntries, Value.mapKey?_renumber, hk]
    rw [Table.insert_map]
    exact ih
  | case2 t key v rest hk =>
    simp only [List.map_cons, mapEntries, Value.mapKey?_renumber, hk, Value.kindName_renumber]
    rfl
  | case3 items t hitems =>
    match items with
    | [] => rfl
    | [_] => rfl
    | key :: v :: rest => exact absurd rfl (hitems key v rest)

namespace Statics

theorem get?_renumber (b : Statics) (slot : Nat) :
    (b.renumber ρ).get? slot = (b.get? slot).map (Value.renumber ρ) := by
  simp only [get?, renumber, Array.getElem?_map]
  cases b.slots[slot]? <;> rfl

theorem set_renumber (b : Statics) (slot : Nat) (v : Value) :
    (b.renumber ρ).set slot (v.renumber ρ) = (b.set slot v).map (Statics.renumber ρ) := by
  simp only [set, renumber, Array.getElem?_map]
  cases b.slots[slot]? with
  | none => rfl
  | some e =>
    obtain ⟨name, w⟩ := e
    simp [Except.map, renumber]

end Statics

namespace Store.Renumbers

variable {s s' : Store} (h : s.Renumbers ρ n s')
include h

theorem writeElement (container index v : Value) :
    Answers (Store.Renumbers ρ n) (s.writeElement container index v)
      (s'.writeElement (container.renumber ρ) (index.renumber ρ) (v.renumber ρ)) := by
  cases container with
  | array id =>
    change Answers _ _ (s'.writeElement (.array id) (index.renumber ρ) (v.renumber ρ))
    rw [Store.writeElement, Store.writeElement, Value.index?_renumber, Value.kindName_renumber,
      h.array]
    cases index.index? with
    | none => exact .error _
    | some i =>
      dsimp only
      rw [storeElement_renumber]
      cases storeElement (s.array id) i v with
      | error c => exact .error c
      | ok items => exact .ok (h.setArray id fun _ => rfl)
  | map id =>
    change Answers _ _ (s'.writeElement (.map id) (index.renumber ρ) (v.renumber ρ))
    rw [Store.writeElement, Store.writeElement, Value.mapKey?_renumber, Value.kindName_renumber]
    cases index.mapKey? with
    | none => exact .error _
    | some key => exact .ok (h.setMap id fun t => Table.insert_map (Value.renumber ρ) t key v)
  | _ => exact .error _

theorem instanceCopy (a : Attribute) :
    (s'.instanceCopy (a.renumber ρ)).1 = (s.instanceCopy a).1.renumber ρ ∧
      (s.instanceCopy a).2.Renumbers ρ n (s'.instanceCopy (a.renumber ρ)).2 := by
  obtain ⟨v, flags⟩ := a
  cases v with
  | array id =>
    obtain ⟨hid, hs⟩ := h.newArray (s.array id)
    rw [← h.array id] at hid hs
    exact ⟨congrArg (fun id => Attribute.mk (.array id) flags.settled) hid, hs⟩
  | map id =>
    obtain ⟨hid, hs⟩ := h.newMap (s.map id)
    rw [← h.map id] at hid hs
    exact ⟨congrArg (fun id => Attribute.mk (.map id) flags.settled) hid, hs⟩
  | _ => exact ⟨rfl, h⟩

omit h in
theorem copyInit {s s' : Store} (h : s.Renumbers ρ n s') (into : Attributes)
    (l : List (String × Attribute)) :
    (s'.copyInit (into.map (Attribute.renumber ρ)) (l.map fun e => (e.1, e.2.renumber ρ))).1 =
        (s.copyInit into l).1.map (Attribute.renumber ρ) ∧
      (s.copyInit into l).2.Renumbers ρ n
        (s'.copyInit (into.map (Attribute.renumber ρ))
          (l.map fun e => (e.1, e.2.renumber ρ))).2 := by
  induction l generalizing s s' into with
  | nil => exact ⟨rfl, h⟩
  | cons e rest ih =>
    obtain ⟨name, a⟩ := e
    rw [List.map_cons, Store.copyInit, Store.copyInit]
    by_cases hinit : a.flags.isInit = true
    · obtain ⟨ha, hs⟩ := h.instanceCopy a
      rw [if_pos hinit, if_pos (show (a.renumber ρ).flags.isInit = true from hinit)]
      dsimp only
      rw [ha, Table.insert_map]
      exact ih hs _
    · rw [if_neg hinit, if_neg (show ¬ (a.renumber ρ).flags.isInit = true from hinit)]
      exact ih h into

theorem instanceDeclarations (t : TypeId) : s'.instanceDeclarations t =
    (s.instanceDeclarations t).map fun e => (e.1, e.2.renumber ρ) := by
  simp only [Store.instanceDeclarations, h.chain, h.type, List.map_flatMap, List.map_append]
  congr 1
  funext u
  simp [TypeCell.renumber, Snapshot.renumber, Table.map, List.flatMap_map]

theorem instantiate (t : TypeId) :
    (s'.instantiate t).1 = (s.instantiate t).1 ∧
      (s.instantiate t).2.Renumbers ρ n (s'.instantiate t).2 := by
  obtain ⟨hattributes, hs⟩ := h.copyInit .empty (s.instanceDeclarations t)
  rw [Table.map_empty, ← h.instanceDeclarations t] at hattributes hs
  obtain ⟨hid, hobject⟩ := hs.newObject ⟨t, (s.copyInit .empty (s.instanceDeclarations t)).1⟩
  rw [Object.renumber] at hid hobject
  dsimp only at hid hobject
  rw [← hattributes] at hid hobject
  exact ⟨hid, hobject⟩

omit h in
theorem insert_fixed (as : Attributes) (name : String) {v : Value} (hv : v.renumber ρ = v)
    {flags : Flags} : (as.map (Attribute.renumber ρ)).insert name ⟨v, flags⟩ =
      (as.insert name ⟨v, flags⟩).map (Attribute.renumber ρ) := by
  rw [← Table.insert_map, Attribute.renumber, hv]

theorem makeException (kind message : String) (line : Option Nat) :
    (s'.makeException kind message line).1 = (s.makeException kind message line).1.renumber ρ ∧
      (s.makeException kind message line).2.Renumbers ρ n
        (s'.makeException kind message line).2 := by
  obtain ⟨hid, hs⟩ := h.instantiate Builtin.exception.id
  refine ⟨congrArg Value.object hid, ?_⟩
  simp only [Store.makeException, hid]
  refine hs.setObject (fun as => ?_) _
  have hline : (line.elim Value.void fun k => .number (Float.ofNat k)).renumber ρ =
      line.elim .void fun k => .number (Float.ofNat k) := by cases line <;> rfl
  rw [insert_fixed as "kind" rfl, insert_fixed _ "message" rfl, insert_fixed _ "line" hline]

end Store.Renumbers

namespace Method

theorem thisType_renumber (op : String) (v : Value) :
    thisType op (v.renumber ρ) = thisType op v := by
  cases v <;> rfl

theorem thisArray_renumber (op : String) (v : Value) :
    thisArray op (v.renumber ρ) = thisArray op v := by
  cases v <;> rfl

theorem thisMap_renumber (op : String) (v : Value) : thisMap op (v.renumber ρ) = thisMap op v := by
  cases v <;> rfl

theorem thisFunction_renumber (op : String) (v : Value) :
    thisFunction op (v.renumber ρ) = thisFunction op v := by
  cases v <;> rfl

theorem indexOf_renumber (op : String) (v : Value) :
    indexOf op (v.renumber ρ) = indexOf op v := by
  rw [indexOf, Value.index?_renumber, mismatch, Value.kindName_renumber]
  rfl

theorem keyOf_renumber (op : String) (v : Value) : keyOf op (v.renumber ρ) = keyOf op v := by
  rw [keyOf, Value.mapKey?_renumber, mismatch, Value.kindName_renumber]
  rfl

theorem argument_renumber (args : List Value) (i : Nat) :
    (args.map (Value.renumber ρ))[i]?.getD .void = (args[i]?.getD .void).renumber ρ := by
  rw [List.getElem?_map]
  exact getD_renumber _

/-- Results of a method in two stores. -/
def Agree (ρ : Renumbering) (n : Nat) (r r' : Value × Store) : Prop :=
  r'.1 = r.1.renumber ρ ∧ r.2.Renumbers ρ n r'.2

variable {s s' : Store} (h : s.Renumbers ρ n s')
include h

theorem agree_strings (names : List String) : Agree ρ n (strings s names) (strings s' names) := by
  obtain ⟨hid, hs⟩ := h.newArray (names.map Value.string).toArray
  have hsame : (names.map Value.string).toArray.map (Value.renumber ρ) =
      (names.map Value.string).toArray := by
    rw [List.map_toArray, List.map_map]
    rfl
  rw [hsame] at hid hs
  exact ⟨congrArg Value.array hid, hs⟩

theorem arityOf_renumber (v : Value) : arityOf s' (v.renumber ρ) = arityOf s v := by
  rw [arityOf, thisFunction_renumber, arityOf]
  cases thisFunction "function introspection" v with
  | error c => rfl
  | ok id =>
    refine congrArg Except.ok ?_
    dsimp only
    rw [h.closure]

theorem assignOwn_renumber (id : ObjectId) (name : String) {v : Value} (hv : v.renumber ρ = v) :
    ((s.assignOwn (.object id) name v).getD s).Renumbers ρ n
      ((s'.assignOwn (.object id) name v).getD s') := by
  have hown : s'.own (.object id) = (s.own (.object id)).map (Attribute.renumber ρ) :=
    h.own (.object id)
  rw [Store.assignOwn_eq rfl, Store.assignOwn_eq rfl, hown, Table.get?_map]
  cases (s.own (.object id)).get? name with
  | none => exact h
  | some a =>
    have hinsert := h.insertOwn (.object id) name v a.flags
    rw [hv] at hinsert
    exact hinsert

theorem apply_renumber (m : Method) (this : Value) (args : List Value) :
    Answers (Agree ρ n) (m.apply s this args)
      (m.apply s' (this.renumber ρ) (args.map (Value.renumber ρ))) := by
  cases m with
  | getType => exact .ok ⟨congrArg Value.type (h.typeOf this), h⟩
  | isA =>
    simp only [apply, argument_renumber]
    cases args[0]?.getD .void with
    | type t => exact .ok ⟨congrArg Value.bool (h.isInstance this t), h⟩
    | _ => exact .error _
  | toString => exact .ok ⟨congrArg Value.string (h.text this), h⟩
  | getName =>
    simp only [apply, thisType_renumber]
    exact .bind (.refl _) fun t _ ht => ht ▸ .ok ⟨congrArg Value.string (h.typeName t), h⟩
  | getBaseType =>
    simp only [apply, thisType_renumber]
    refine .bind (.refl _) fun t _ ht => ht ▸ .ok ⟨?_, h⟩
    rw [h.type]
    change (s.type t).base.elim _ _ = _
    cases (s.type t).base <;> rfl
  | getTraits =>
    simp only [apply, thisType_renumber]
    refine .bind (.refl _) fun t _ ht => ht ▸ .ok ?_
    have hnames : (s'.type t).traits.map (·.name) = (s.type t).traits.map (·.name) := by
      rw [h.type]
      simp [TypeCell.renumber, Snapshot.renumber]
    rw [hnames]
    exact agree_strings h _
  | arraySize =>
    simp only [apply, thisArray_renumber]
    refine .bind (.refl _) fun id _ hid => hid ▸ .ok ⟨?_, h⟩
    rw [h.array, Array.size_map]
    rfl
  | arrayPush =>
    simp only [apply, thisArray_renumber]
    refine .bind (.refl _) fun id _ hid => hid ▸ .ok ⟨rfl, h.setArray id fun xs => ?_⟩
    simp
  | arrayPop =>
    simp only [apply, thisArray_renumber]
    refine .bind (.refl _) fun id _ hid => hid ▸ .ok ⟨?_, h.setArray id fun xs => ?_⟩
    · rw [h.array, Array.back?_map]
      exact getD_renumber _
    · simp
  | arrayGet =>
    simp only [apply, argument_renumber, indexOf_renumber, thisArray_renumber]
    refine .bind (.refl _) fun i _ hi => hi ▸ .bind (.refl _) fun id _ hid => hid ▸ .ok ⟨?_, h⟩
    rw [h.array, Array.getElem?_map]
    exact getD_renumber _
  | arraySet =>
    simp only [apply, argument_renumber, indexOf_renumber, thisArray_renumber]
    refine .bind (.refl _) fun i _ hi => hi ▸ .bind (.refl _) fun id _ hid => hid ▸ ?_
    rw [h.array]
    refine .bind (.of_map (storeElement_renumber ..)) fun items items' hitems => ?_
    subst hitems
    exact .ok ⟨rfl, h.setArray id fun _ => rfl⟩
  | mapSize =>
    simp only [apply, thisMap_renumber]
    refine .bind (.refl _) fun id _ hid => hid ▸ .ok ⟨?_, h⟩
    rw [h.map, Table.size_map]
    rfl
  | mapGet =>
    simp only [apply, argument_renumber, keyOf_renumber, thisMap_renumber]
    refine .bind (.refl _) fun key _ hk => hk ▸ .bind (.refl _) fun id _ hid => hid ▸ .ok ⟨?_, h⟩
    rw [h.map, Table.get?_map]
    exact getD_renumber _
  | mapSet =>
    simp only [apply, argument_renumber, keyOf_renumber, thisMap_renumber]
    refine .bind (.refl _) fun key _ hk => hk ▸ .bind (.refl _) fun id _ hid => hid ▸ .ok ⟨rfl, ?_⟩
    exact h.setMap id fun t => Table.insert_map (Value.renumber ρ) t key _
  | mapContains =>
    simp only [apply, argument_renumber, keyOf_renumber, thisMap_renumber]
    refine .bind (.refl _) fun key _ hk => hk ▸ .bind (.refl _) fun id _ hid => hid ▸ .ok ⟨?_, h⟩
    rw [h.map, Table.contains_map]
    rfl
  | mapKeys =>
    simp only [apply, thisMap_renumber]
    refine .bind (.refl _) fun id _ hid => hid ▸ .ok ?_
    rw [h.map, Table.names_map]
    exact agree_strings h _
  | stringLength =>
    cases this with
    | string t => exact .ok ⟨rfl, h⟩
    | _ => exact .error _
  | getParamCount | getMinParamCount =>
    simp only [apply, arityOf_renumber h]
    exact .bind (.refl _) fun a _ ha => ha ▸ .ok ⟨rfl, h⟩
  | getMaxParamCount =>
    simp only [apply, arityOf_renumber h]
    refine .bind (.refl _) fun a _ ha => ha ▸ .ok ⟨?_, h⟩
    cases a.bound? <;> rfl
  | getMultiParam =>
    simp only [apply, arityOf_renumber h]
    refine .bind (.refl _) fun a _ ha => ha ▸ .ok ⟨?_, h⟩
    cases a.variadic <;> rfl
  | getLine =>
    simp only [apply, thisFunction_renumber]
    refine .bind (.refl _) fun id _ hid => hid ▸ .ok ⟨?_, h⟩
    rw [h.closure]
    rfl
  | clone =>
    simp only [apply, thisFunction_renumber]
    refine .bind (.refl _) fun id _ hid => hid ▸ .ok ?_
    obtain ⟨hcopy, hs⟩ := h.newFunction (s.function id)
    rw [← h.function] at hcopy hs
    exact ⟨congrArg Value.function hcopy, hs⟩
  | exceptionConstructor =>
    cases this with
    | object id =>
      cases args with
      | nil => exact .ok ⟨rfl, h⟩
      | cons message rest =>
        refine .ok ⟨rfl, ?_⟩
        rw [h.text]
        exact assignOwn_renumber h id "message" rfl
    | _ => cases args <;> exact .ok ⟨rfl, h⟩
  | getMessage =>
    cases this with
    | object id =>
      refine .ok ⟨?_, h⟩
      rw [h.object]
      change ((Table.map _ (s.object id).attributes).get? "message").elim _ _ = _
      rw [Table.get?_map]
      cases (s.object id).attributes.get? "message" <;> rfl
    | _ => exact .error _

end Method

end ScriptMachine
