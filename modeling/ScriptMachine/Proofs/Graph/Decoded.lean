import Mathlib.Data.List.Forall2
import Mathlib.Tactic.Tauto
import ScriptMachine.Graph.Rebuild
import ScriptMachine.Proofs.Graph.Reach

namespace ScriptMachine

open List (Forall₂)

namespace Store

/-- From `t` to `t'` one container got the cell, and no other has changed. -/
def Puts (t : Store) (x : Value) (cell : Option Cell) (t' : Store) : Prop :=
  t'.cell? x = cell ∧ ∀ y, y ≠ x → t'.cell? y = t.cell? y

theorem Puts.trans {t t' t'' : Store} {x : Value} {cell cell' : Option Cell} (h : t.Puts x cell t')
    (h' : t'.Puts x cell' t'') : t.Puts x cell' t'' :=
  ⟨h'.1, fun y hy => (h'.2 y hy).trans (h.2 y hy)⟩

section Cells

variable {t : Store} {x : Value}

theorem exists_array {items : Array Value} (h : t.cell? x = some (.array items)) :
    ∃ id, x = .array id ∧ t.array id = items := by
  cases x <;> simp_all [cell?, array]

theorem exists_map {entries : Table Value} (h : t.cell? x = some (.map entries)) :
    ∃ id, x = .map id ∧ t.map id = entries := by
  cases x <;> simp_all [cell?, map]

theorem exists_object {o : Object} (h : t.cell? x = some (.object o)) :
    ∃ id, x = .object id ∧ t.object id = o := by
  cases x <;> simp_all [cell?, object]

variable (t)

theorem puts_newArray (items : Array Value) :
    t.cell? (.array (t.newArray items).1) = none ∧
      t.Puts (.array (t.newArray items).1) (some (.array items)) (t.newArray items).2 := by
  refine ⟨by simp [cell?, newArray], by simp [cell?, newArray], fun y hy => ?_⟩
  cases y with
  | array id =>
    have hne : id.index ≠ t.arrays.size := fun h => hy (congrArg _ (congrArg Id.mk h))
    simp [cell?, newArray, Array.getElem?_push, hne]
  | _ => rfl

theorem puts_newMap (entries : Table Value) :
    t.cell? (.map (t.newMap entries).1) = none ∧
      t.Puts (.map (t.newMap entries).1) (some (.map entries)) (t.newMap entries).2 := by
  refine ⟨by simp [cell?, newMap], by simp [cell?, newMap], fun y hy => ?_⟩
  cases y with
  | map id =>
    have hne : id.index ≠ t.maps.size := fun h => hy (congrArg _ (congrArg Id.mk h))
    simp [cell?, newMap, Array.getElem?_push, hne]
  | _ => rfl

theorem puts_newObject (o : Object) :
    t.cell? (.object (t.newObject o).1) = none ∧
      t.Puts (.object (t.newObject o).1) (some (.object o)) (t.newObject o).2 := by
  refine ⟨by simp [cell?, newObject], by simp [cell?, newObject], fun y hy => ?_⟩
  cases y with
  | object id =>
    have hne : id.index ≠ t.objects.size := fun h => hy (congrArg _ (congrArg Id.mk h))
    simp [cell?, newObject, Array.getElem?_push, hne]
  | _ => rfl

variable {t}

theorem puts_setArray {id : ArrayId} {items : Array Value}
    (h : t.cell? (.array id) = some (.array items)) (f : Array Value → Array Value) :
    t.Puts (.array id) (some (.array (f items))) (t.setArray id f) := by
  refine ⟨?_, fun y hy => ?_⟩
  · simp only [cell?, Option.map_eq_some_iff] at h
    obtain ⟨_, hget, heq⟩ := h
    cases heq
    simp [cell?, setArray, Array.getElem?_modify, hget]
  · cases y with
    | array id' =>
      have hne : id.index ≠ id'.index := fun h => hy (congrArg _ (congrArg Id.mk h.symm))
      simp [cell?, setArray, Array.getElem?_modify, hne]
    | _ => rfl

theorem puts_setMap {id : MapId} {entries : Table Value}
    (h : t.cell? (.map id) = some (.map entries)) (f : Table Value → Table Value) :
    t.Puts (.map id) (some (.map (f entries))) (t.setMap id f) := by
  refine ⟨?_, fun y hy => ?_⟩
  · simp only [cell?, Option.map_eq_some_iff] at h
    obtain ⟨_, hget, heq⟩ := h
    cases heq
    simp [cell?, setMap, Array.getElem?_modify, hget]
  · cases y with
    | map id' =>
      have hne : id.index ≠ id'.index := fun h => hy (congrArg _ (congrArg Id.mk h.symm))
      simp [cell?, setMap, Array.getElem?_modify, hne]
    | _ => rfl

theorem puts_setObject {id : ObjectId} {type : TypeId} {attributes : Attributes}
    (h : t.cell? (.object id) = some (.object ⟨type, attributes⟩)) (f : Attributes → Attributes) :
    t.Puts (.object id) (some (.object ⟨type, f attributes⟩)) (t.setObject id f) := by
  refine ⟨?_, fun y hy => ?_⟩
  · simp only [cell?, Option.map_eq_some_iff] at h
    obtain ⟨_, hget, heq⟩ := h
    cases heq
    simp [cell?, setObject, Array.getElem?_modify, hget]
  · cases y with
    | object id' =>
      have hne : id.index ≠ id'.index := fun h => hy (congrArg _ (congrArg Id.mk h.symm))
      simp [cell?, setObject, Array.getElem?_modify, hne]
    | _ => rfl

end Cells

end Store

theorem putEntry_of_notMem {α : Type} {name : String} {a : α} {l : List (String × α)}
    (h : name ∉ l.map Prod.fst) : putEntry name a l = l ++ [(name, a)] := by
  induction l with
  | nil => rfl
  | cons e l ih =>
    obtain ⟨k, b⟩ := e
    rw [List.map_cons, List.mem_cons, not_or] at h
    rw [putEntry, if_neg (Ne.symm h.1), ih h.2, List.cons_append]

theorem Table.entries_insertAll {α : Type} {T : Table α} {l : List (String × α)}
    (h : (T.names ++ l.map Prod.fst).Nodup) : (T.insertAll l).entries = T.entries ++ l := by
  induction l generalizing T with
  | nil => simp [insertAll]
  | cons e l ih =>
    obtain ⟨name, a⟩ := e
    have hnew : name ∉ T.names := by
      intro hmem
      exact (List.nodup_append.1 h).2.2 name hmem name (by simp) rfl
    have hnames : (T.insert name a).names = T.names ++ [name] := by
      rw [names_insert, if_neg hnew]
    have hentries : (T.insert name a).entries = T.entries ++ [(name, a)] := putEntry_of_notMem hnew
    rw [insertAll, ih (by rw [hnames]; simpa using h), hentries]
    simp

theorem Table.entries_ofList {α : Type} {l : List (String × α)} (h : (l.map Prod.fst).Nodup) :
    (Table.ofList l).entries = l :=
  entries_insertAll h

theorem Table.ofList_entries {α : Type} (T : Table α) : Table.ofList T.entries = T :=
  Table.ext (entries_ofList T.nodup)

/-- The value of a slot when the containers of the graph are `vs`. -/
def Node.value (lookup : TypeLookup) (vs : List Value) : Node → Value
  | void => .void
  | bool b => .bool b
  | number n => .number n
  | string t => .string t
  | type name => .type ((lookup name).getD default)
  | ref i => vs.getD i .void

/-- What the slot refers to is there, in a graph of `n` records. -/
def Node.Known (lookup : TypeLookup) (n : Nat) : Node → Prop
  | type name => (lookup name).isSome = true
  | ref i => i < n
  | _ => True

def TypeLookup.fault? (lookup : TypeLookup) (name : String) : Option CodecError :=
  if (lookup name).isSome then none else some (.unknownType name)

/-- Why the slot has no value, in a graph of `n` records. -/
def Node.fault? (lookup : TypeLookup) (n : Nat) : Node → Option CodecError
  | type name => lookup.fault? name
  | ref i => if i < n then none else some (.unknownId i)
  | _ => none

theorem TypeLookup.fault?_eq_none_iff {lookup : TypeLookup} {name : String} :
    lookup.fault? name = none ↔ (lookup name).isSome = true := by
  unfold fault?
  cases lookup name <;> simp

theorem Node.fault?_eq_none_iff {lookup : TypeLookup} {n : Nat} {node : Node} :
    node.fault? lookup n = none ↔ node.Known lookup n := by
  cases node with
  | type name => exact TypeLookup.fault?_eq_none_iff
  | ref i => simp [fault?, Known]
  | _ => simp [fault?, Known]

namespace Record

def nodes : Record → List Node
  | array items => items
  | map entries => entries.map (·.value)
  | object _ fields => fields.map (·.value)

/-- The type of an object is found. -/
def Typed (lookup : TypeLookup) : Record → Prop
  | object name _ => (lookup name).isSome = true
  | _ => True

/-- Why there is no container for the record. -/
def fault? (lookup : TypeLookup) : Record → Option CodecError
  | object name _ => lookup.fault? name
  | _ => none

theorem fault?_eq_none_iff {lookup : TypeLookup} {r : Record} :
    r.fault? lookup = none ↔ r.Typed lookup := by
  cases r with
  | object name fields => exact TypeLookup.fault?_eq_none_iff
  | _ => simp [fault?, Typed]

/-- The container as the first pass makes it. -/
def emptyCell (lookup : TypeLookup) : Record → Store.Cell
  | array _ => .array #[]
  | map _ => .map .empty
  | object name _ => .object ⟨(lookup name).getD default, .empty⟩

/-- The container as the second pass leaves it. Of slots with the same name the last one counts. -/
def cell (lookup : TypeLookup) (vs : List Value) : Record → Store.Cell
  | array items => .array (items.map (·.value lookup vs)).toArray
  | map entries => .map (.ofList (entries.map fun e => (e.key, e.value.value lookup vs)))
  | object name fields =>
    .object ⟨(lookup name).getD default, .ofList (fields.map fun f =>
      (f.name, ⟨f.value.value lookup vs, { isPrivate := f.isPrivate, isConstant := f.isConstant }⟩))⟩

end Record

namespace Graph

def nodes (g : Graph) : List Node :=
  g.root :: g.records.flatMap Record.nodes

/-- The graph names a type of that name, in a slot or as the type of an object. -/
def Mentions (g : Graph) (name : String) : Prop :=
  .type name ∈ g.nodes ∨ ∃ fields, .object name fields ∈ g.records

/-- Everything that the graph refers to is there, and there is a number for each record. -/
structure Closed (lookup : TypeLookup) (g : Graph) : Prop where
  limit : g.records.length ≤ idLimit
  typed : ∀ r ∈ g.records, r.Typed lookup
  root : g.root.Known lookup g.records.length
  nodes : ∀ r ∈ g.records, ∀ n ∈ r.nodes, n.Known lookup g.records.length

/-- The containers `vs` were added to `t`, one for each record and as the record says. -/
structure Built (lookup : TypeLookup) (g : Graph) (vs : List Value) (t t' : Store) : Prop where
  cells : Forall₂ (fun r x => t'.cell? x = some (r.cell lookup vs)) g.records vs
  nodup : vs.Nodup
  fresh : ∀ x ∈ vs, t.cell? x = none
  kept : ∀ y, y ∉ vs → t'.cell? y = t.cell? y
  types : t'.types = t.types

/-- Steps that succeed exactly under `C`, and then with `Q`. -/
def Builds {α : Type} (C : Prop) (Q : α → Store → Prop) : EStateM.Result CodecError Store α → Prop
  | .ok a t => C ∧ Q a t
  | .error _ _ => ¬ C

/-- Steps that fail with `F` if that is an error, and otherwise succeed with `Q`. -/
def Settles {α : Type} (F : Option CodecError) (Q : α → Store → Prop) :
    EStateM.Result CodecError Store α → Prop
  | .ok a t => F = none ∧ Q a t
  | .error err _ => F = some err

section Rules

variable {α β : Type} {F G : Option CodecError} {Q Q' : α → Store → Prop} {K : β → Store → Prop}
  {t : Store}

theorem Settles.mono {r : EStateM.Result CodecError Store α} (h : Settles F Q r)
    (hQ : ∀ a t, Q a t → Q' a t) : Settles F Q' r := by
  cases r with
  | ok a t => exact ⟨h.1, hQ a t h.2⟩
  | error err t => exact h

theorem Settles.builds {C : Prop} {r : EStateM.Result CodecError Store α} (h : Settles F Q r)
    (hF : F = none ↔ C) : Builds C Q r := by
  cases r with
  | ok a t => exact ⟨hF.1 h.1, h.2⟩
  | error err t =>
    intro hC
    have hnone := hF.2 hC
    rw [show F = some err from h] at hnone
    cases hnone

theorem Settles.bind {x : RebuildM α} {f : α → RebuildM β} (hx : Settles F Q (x t))
    (hf : ∀ a t', Q a t' → Settles G K (f a t')) : Settles (F.or G) K ((x >>= f) t) := by
  change Settles (F.or G) K (EStateM.bind x f t)
  unfold EStateM.bind
  cases hr : x t with
  | ok a t' =>
    rw [hr] at hx
    rw [hx.1, Option.none_or]
    exact hf a t' hx.2
  | error err t' =>
    rw [hr] at hx
    exact congrArg (·.or G) hx

theorem Settles.last {x : RebuildM α} {f : α → RebuildM β} (hx : Settles F Q (x t))
    (hf : ∀ a t', Q a t' → Settles none K (f a t')) : Settles F K ((x >>= f) t) := by
  rw [← Option.or_none (o := F)]
  exact hx.bind hf

theorem findSome?_cons_eq_or (f : α → Option β) (a : α) (l : List α) :
    (a :: l).findSome? f = (f a).or (l.findSome? f) := by
  rw [List.findSome?_cons]
  cases f a <;> rfl

end Rules

variable {lookup : TypeLookup}

theorem settles_findType (name : String) (t : Store) :
    Settles (lookup.fault? name) (fun ty t' => lookup name = some ty ∧ t' = t)
      (ofExcept (findType lookup name) t) := by
  unfold findType TypeLookup.fault?
  cases lookup name with
  | some ty => exact ⟨rfl, rfl, rfl⟩
  | none => rfl

theorem settles_shell (r : Record) (t : Store) :
    Settles (r.fault? lookup)
      (fun x t' => t.cell? x = none ∧ t.Puts x (some (r.emptyCell lookup)) t' ∧ t'.types = t.types)
      (shell lookup r t) := by
  cases r with
  | array _ =>
    obtain ⟨hnew, hputs⟩ := t.puts_newArray #[]
    exact ⟨rfl, hnew, hputs, rfl⟩
  | map _ =>
    obtain ⟨hnew, hputs⟩ := t.puts_newMap .empty
    exact ⟨rfl, hnew, hputs, rfl⟩
  | object name fields =>
    refine (settles_findType name t).last ?_
    rintro ty t' ⟨hty, rfl⟩
    obtain ⟨hnew, hputs⟩ := t'.puts_newObject ⟨ty, .empty⟩
    rw [Record.emptyCell, hty]
    exact ⟨rfl, hnew, hputs, rfl⟩

theorem get?_bind {r : Registry} {i : Nat} {x : Value} (hi : i < idLimit) (hnone : r.get? i = none) :
    ∃ r', r.bind i x = some r' ∧ r'.get? i = some x ∧ ∀ j, j ≠ i → r'.get? j = r.get? j := by
  refine ⟨_, if_pos ⟨hi, by rw [hnone]; rfl⟩, ?_, ?_⟩
  · simp [Registry.get?]
  · intro j hj
    simp [Registry.get?, List.lookup_cons, beq_eq_false_iff_ne.2 hj]

/-- What the first pass leaves: an empty container of its own for every record, numbered from `i`. -/
structure Shelled (lookup : TypeLookup) (r : Registry) (i : Nat) (records : List Record) (t : Store)
    (vs : List Value) (r' : Registry) (t' : Store) : Prop where
  cells : Forall₂ (fun r x => t'.cell? x = some (r.emptyCell lookup)) records vs
  nodup : vs.Nodup
  fresh : ∀ x ∈ vs, t.cell? x = none
  kept : ∀ y, y ∉ vs → t'.cell? y = t.cell? y
  types : t'.types = t.types
  numbers : ∀ j, r'.get? (i + j) = vs[j]?
  below : ∀ j, j < i → r'.get? j = r.get? j

theorem Shelled.cons {r r₁ r' : Registry} {i : Nat} {record : Record} {records : List Record}
    {t t₁ t' : Store} {x : Value} {vs : List Value} (hnew : t.cell? x = none)
    (hputs : t.Puts x (some (record.emptyCell lookup)) t₁) (htypes : t₁.types = t.types)
    (hself : r₁.get? i = some x) (hother : ∀ j, j ≠ i → r₁.get? j = r.get? j)
    (h : Shelled lookup r₁ (i + 1) records t₁ vs r' t') :
    Shelled lookup r i (record :: records) t (x :: vs) r' t' := by
  -- the later ones are new to a store that has `x` already
  have hx : x ∉ vs := by
    intro hmem
    have hnone := h.fresh x hmem
    rw [hputs.1] at hnone
    cases hnone
  refine ⟨.cons ?_ h.cells, List.nodup_cons.2 ⟨hx, h.nodup⟩, ?_, ?_, h.types.trans htypes, ?_, ?_⟩
  · rw [h.kept x hx, hputs.1]
  · intro y hy
    rcases List.mem_cons.1 hy with rfl | hy
    · exact hnew
    · rw [← hputs.2 y fun heq => hx (heq ▸ hy)]
      exact h.fresh y hy
  · intro y hy
    rw [List.mem_cons, not_or] at hy
    rw [h.kept y hy.2, hputs.2 y hy.1]
  · intro j
    cases j with
    | zero =>
      rw [Nat.add_zero, h.below i (Nat.lt_succ_self i), hself]
      rfl
    | succ j =>
      rw [List.getElem?_cons_succ, ← h.numbers j]
      congr 1
      omega
  · intro j hj
    rw [h.below j (by omega), hother j (by omega)]

/-- Why the first pass fails on records that are numbered from `i` on. -/
def shellsFault? (lookup : TypeLookup) : Nat → List Record → Option CodecError
  | _, [] => none
  | i, r :: rest =>
    (r.fault? lookup).or
      (if i < idLimit then shellsFault? lookup (i + 1) rest else some .idsExhausted)

theorem shellsFault?_eq_none_iff {records : List Record} {i : Nat} (hi : i ≤ idLimit) :
    shellsFault? lookup i records = none ↔
      i + records.length ≤ idLimit ∧ ∀ r ∈ records, r.Typed lookup := by
  induction records generalizing i with
  | nil => simp [shellsFault?, hi]
  | cons r records ih =>
    rw [shellsFault?, Option.or_eq_none_iff, Record.fault?_eq_none_iff, List.length_cons,
      List.forall_mem_cons]
    by_cases hlt : i < idLimit
    · rw [if_pos hlt, ih hlt, show i.succ + records.length = i + (records.length + 1) by omega]
      tauto
    · simp only [if_neg hlt, reduceCtorEq, and_false, false_iff]
      omega

/-- With numbers for all records, the first one without a type is at fault. -/
theorem shellsFault?_eq_findSome? {records : List Record} {i : Nat}
    (h : i + records.length ≤ idLimit) :
    shellsFault? lookup i records = records.findSome? (·.fault? lookup) := by
  induction records generalizing i with
  | nil => rfl
  | cons r records ih =>
    rw [List.length_cons] at h
    rw [shellsFault?, findSome?_cons_eq_or, if_pos (by omega), ih (by omega)]

theorem settles_shells (records : List Record) {r : Registry} {i : Nat} (t : Store)
    (hfree : ∀ j, i ≤ j → r.get? j = none) :
    Settles (shellsFault? lookup i records)
      (fun p t' => Shelled lookup r i records t p.1 p.2 t') (shells lookup r i records t) := by
  induction records generalizing r i t with
  | nil =>
    refine ⟨rfl, .nil, List.nodup_nil, by simp, fun _ _ => rfl, rfl, fun j => ?_, fun _ _ => rfl⟩
    rw [hfree (i + j) (Nat.le_add_right i j)]
    rfl
  | cons record records ih =>
    refine (settles_shell record t).bind ?_
    rintro x t₁ ⟨hnew, hputs, htypes⟩
    by_cases hlt : i < idLimit
    · obtain ⟨r₁, hbind, hself, hother⟩ := get?_bind (x := x) hlt (hfree i (Nat.le_refl i))
      simp only [hbind, if_pos hlt]
      have hfree₁ : ∀ j, i + 1 ≤ j → r₁.get? j = none := by
        intro j hj
        rw [hother j (by omega)]
        exact hfree j (by omega)
      refine (ih t₁ hfree₁).last ?_
      rintro ⟨vs, r'⟩ t' h
      exact ⟨rfl, .cons hnew hputs htypes hself hother h⟩
    · have hbind : r.bind i x = none := if_neg fun h => hlt h.1
      simp only [hbind, if_neg hlt]
      rfl

section Fill

variable {registry : Registry} {vs : List Value} {t : Store}

theorem settles_leaf (hget : ∀ i, registry.get? i = vs[i]?) (n : Node) (t : Store) :
    Settles (n.fault? lookup vs.length) (fun v t' => v = n.value lookup vs ∧ t' = t)
      (ofExcept (leaf lookup registry n) t) := by
  cases n with
  | void => exact ⟨rfl, rfl, rfl⟩
  | bool b => exact ⟨rfl, rfl, rfl⟩
  | number x => exact ⟨rfl, rfl, rfl⟩
  | string x => exact ⟨rfl, rfl, rfl⟩
  | type name =>
    simp only [leaf, findType, Node.fault?, TypeLookup.fault?, Node.value]
    cases lookup name with
    | some ty => exact ⟨rfl, rfl, rfl⟩
    | none => rfl
  | ref i =>
    simp only [leaf, Node.fault?, Node.value, hget i]
    by_cases hi : i < vs.length
    · rw [List.getD_eq_getElem?_getD, List.getElem?_eq_getElem hi, if_pos hi]
      exact ⟨rfl, rfl, rfl⟩
    · rw [List.getElem?_eq_none (Nat.le_of_not_lt hi), if_neg hi]
      rfl

theorem ofExcept_bind {α β : Type} (x : Except CodecError α) (f : α → Except CodecError β) :
    ofExcept (x >>= f) = ofExcept x >>= fun a => ofExcept (f a) := by
  cases x <;> rfl

theorem settles_leaves (hget : ∀ i, registry.get? i = vs[i]?) (nodes : List Node) (t : Store) :
    Settles (nodes.findSome? (·.fault? lookup vs.length))
      (fun ws t' => ws = nodes.map (·.value lookup vs) ∧ t' = t)
      (ofExcept (leaves lookup registry nodes) t) := by
  induction nodes generalizing t with
  | nil => exact ⟨rfl, rfl, rfl⟩
  | cons n nodes ih =>
    rw [leaves, ofExcept_bind, findSome?_cons_eq_or]
    refine (settles_leaf hget n t).bind ?_
    rintro v t' ⟨rfl, rfl⟩
    rw [ofExcept_bind]
    refine (ih t').last ?_
    rintro ws t'' ⟨rfl, rfl⟩
    exact ⟨rfl, rfl, rfl⟩

theorem settles_inserts {α β : Type} {x : Value} {node : β → Node} (W : Table α → Store.Cell)
    (put : String → α → Store → Store) (name : β → String) (pack : β → Value → α)
    (hget : ∀ i, registry.get? i = vs[i]?)
    (hput : ∀ (t : Store) (T : Table α) (name : String) (a : α), t.cell? x = some (W T) →
      t.Puts x (some (W (T.insert name a))) (put name a t) ∧ (put name a t).types = t.types)
    {T : Table α} (ht : t.cell? x = some (W T)) (fs : List β) :
    Settles ((fs.map node).findSome? (·.fault? lookup vs.length))
      (fun _ t' => t.Puts x (some (W (T.insertAll
        (fs.map fun f => (name f, pack f ((node f).value lookup vs)))))) t' ∧ t'.types = t.types)
      ((fs.forM fun f => do
        let v ← ofExcept (leaf lookup registry (node f))
        modify (put (name f) (pack f v)) : RebuildM Unit) t) := by
  induction fs generalizing T t with
  | nil => exact ⟨rfl, ⟨ht, fun _ _ => rfl⟩, rfl⟩
  | cons f fs ih =>
    rw [List.map_cons, findSome?_cons_eq_or]
    refine Settles.bind ((settles_leaf hget (node f) t).last (K := fun _ t' =>
      t.Puts x (some (W (T.insert (name f) (pack f ((node f).value lookup vs))))) t' ∧
        t'.types = t.types) ?_) ?_
    · rintro v t' ⟨rfl, rfl⟩
      exact ⟨rfl, hput t' T (name f) _ ht⟩
    · intro _ t₁ h₁
      exact (ih h₁.1.1).mono fun _ t₂ h₂ => ⟨h₁.1.trans h₂.1, h₂.2.trans h₁.2⟩

/-- An empty container is filled as its record says, and nothing else is touched. -/
theorem settles_fill (hget : ∀ i, registry.get? i = vs[i]?) (r : Record) {x : Value}
    (hx : t.cell? x = some (r.emptyCell lookup)) :
    Settles (r.nodes.findSome? (·.fault? lookup vs.length))
      (fun _ t' => t.Puts x (some (r.cell lookup vs)) t' ∧ t'.types = t.types)
      (fill lookup registry r x t) := by
  cases r with
  | array items =>
    obtain ⟨id, rfl, -⟩ := Store.exists_array hx
    refine (settles_leaves hget items t).last ?_
    rintro ws t' ⟨rfl, rfl⟩
    have hputs := Store.puts_setArray hx (· ++ (items.map (·.value lookup vs)).toArray)
    rw [Array.empty_append] at hputs
    exact ⟨rfl, hputs, rfl⟩
  | map entries =>
    obtain ⟨id, rfl, -⟩ := Store.exists_map hx
    exact settles_inserts .map (fun name v t => t.setMap id (·.insert name v)) (·.key)
      (fun _ v => v) hget
      (fun t T name a h => ⟨Store.puts_setMap h (·.insert name a), rfl⟩) hx entries
  | object type fields =>
    obtain ⟨id, rfl, -⟩ := Store.exists_object hx
    exact settles_inserts (fun T => .object ⟨(lookup type).getD default, T⟩)
      (fun name a t => t.setObject id (·.insert name a)) (·.name)
      (fun f v => ⟨v, { isPrivate := f.isPrivate, isConstant := f.isConstant }⟩) hget
      (fun t T name a h => ⟨Store.puts_setObject h (·.insert name a), rfl⟩) hx fields

/-- The second pass: every empty container becomes what its record says. -/
theorem settles_fills (hget : ∀ i, registry.get? i = vs[i]?) {records : List Record} {xs : List Value}
    (hempty : Forall₂ (fun r x => t.cell? x = some (r.emptyCell lookup)) records xs)
    (hnodup : xs.Nodup) :
    Settles ((records.flatMap Record.nodes).findSome? (·.fault? lookup vs.length))
      (fun _ t' => Forall₂ (fun r x => t'.cell? x = some (r.cell lookup vs)) records xs ∧
        (∀ y, y ∉ xs → t'.cell? y = t.cell? y) ∧ t'.types = t.types)
      (((records.zip xs).forM fun (record, v) => fill lookup registry record v : RebuildM Unit) t) := by
  induction records generalizing xs t with
  | nil =>
    cases hempty
    exact ⟨rfl, .nil, fun _ _ => rfl, rfl⟩
  | cons r records ih =>
    cases hempty with
    | @cons _ x _ xs hx hempty =>
      rw [List.nodup_cons] at hnodup
      rw [List.flatMap_cons, List.findSome?_append]
      refine (settles_fill hget r hx).bind fun _ t₁ h₁ => ?_
      -- the containers that are still empty are others than this one
      have hempty₁ : Forall₂ (fun r y => t₁.cell? y = some (r.emptyCell lookup)) records xs := by
        have hother : ∀ y ∈ xs, y ≠ x := fun y hy heq => hnodup.1 (heq ▸ hy)
        refine (((List.forall₂_and_left ..).2 ⟨hother, hempty.flip⟩).imp fun y r h => ?_).flip
        rw [flip, h₁.1.2 y h.1]
        exact h.2
      refine (ih hempty₁ hnodup.2).mono fun _ t' h' => ⟨.cons ?_ h'.1, fun y hy => ?_, ?_⟩
      · rw [h'.2.1 x hnodup.1, h₁.1.1]
      · rw [List.mem_cons, not_or] at hy
        rw [h'.2.1 y hy.2, h₁.1.2 y hy.1]
      · rw [h'.2.2, h₁.2]

end Fill

/-- Decoding looks for faults in the records first, then in their slots and last in the root, and
builds what the records say. -/
theorem settles_decode (g : Graph) (lookup : TypeLookup) (t : Store) :
    Settles ((shellsFault? lookup 0 g.records).or
        (((g.records.flatMap Record.nodes).findSome? (·.fault? lookup g.records.length)).or
          (g.root.fault? lookup g.records.length)))
      (fun d t' => ∃ vs, g.Built lookup vs t t' ∧ d.root = g.root.value lookup vs)
      (g.decode lookup t) := by
  refine (settles_shells g.records t fun _ _ => rfl).bind ?_
  rintro ⟨vs, registry⟩ t₁ h
  have hget : ∀ i, registry.get? i = vs[i]? := fun i => by simpa using h.numbers i
  rw [h.cells.length_eq]
  refine (settles_fills hget h.cells h.nodup).bind fun _ t₂ h₂ => ?_
  refine (settles_leaf hget g.root t₂).last ?_
  rintro root t' ⟨rfl, rfl⟩
  refine ⟨rfl, vs, ⟨h₂.1, h.nodup, h.fresh, fun y hy => ?_, h₂.2.2.trans h.types⟩, rfl⟩
  rw [h₂.2.1 y hy, h.kept y hy]

/-- Decoding accepts the closed graphs and builds what their records say. -/
theorem builds_decode (g : Graph) (lookup : TypeLookup) (t : Store) :
    Builds (g.Closed lookup)
      (fun d t' => ∃ vs, g.Built lookup vs t t' ∧ d.root = g.root.value lookup vs)
      (g.decode lookup t) := by
  refine (settles_decode g lookup t).builds ?_
  rw [Option.or_eq_none_iff, Option.or_eq_none_iff, shellsFault?_eq_none_iff (Nat.zero_le _),
    List.findSome?_eq_none_iff, Nat.zero_add]
  simp only [Node.fault?_eq_none_iff, List.mem_flatMap]
  constructor
  · rintro ⟨⟨hlimit, htyped⟩, hnodes, hroot⟩
    exact ⟨hlimit, htyped, hroot, fun r hr n hn => hnodes n ⟨r, hr, hn⟩⟩
  · rintro ⟨hlimit, htyped, hroot, hnodes⟩
    exact ⟨⟨hlimit, htyped⟩, fun n ⟨r, hr, hn⟩ => hnodes r hr n hn, hroot⟩

theorem Closed.decode_spec {g : Graph} (h : g.Closed lookup) (t : Store) :
    ∃ vs d t', g.decode lookup t = .ok d t' ∧ g.Built lookup vs t t' ∧
      d.root = g.root.value lookup vs := by
  have hend := g.builds_decode lookup t
  cases hr : g.decode lookup t with
  | ok d t' =>
    rw [hr] at hend
    obtain ⟨-, vs, hbuilt, hroot⟩ := hend
    exact ⟨vs, d, t', rfl, hbuilt, hroot⟩
  | error err t' =>
    rw [hr] at hend
    exact absurd h hend

end Graph

end ScriptMachine
