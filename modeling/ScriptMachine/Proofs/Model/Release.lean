import ScriptMachine.Model.Release

namespace ScriptMachine

/-- What a cell has in it. -/
inductive Content where
  | array (items : Array Value)
  | map (entries : Table Value)
  | object (o : Object)
  | function (f : Function)
  | native (n : Native)
  | bound (b : Bound)
  | type (c : TypeCell)
  | trait (t : Trait)
  | hosted (h : Hosted)
  | statics (b : Statics)

/-- The cell without what breaking references lets go. -/
def Content.emptied : Content → Content
  | array _ => array #[]
  | map _ => map .empty
  | object o => object { o with attributes := .empty }
  | function f => function { f with attributes := .empty }
  | type c => type { c with attributes := .empty, traits := [] }
  | trait t => trait { t with attributes := .empty }
  | statics b => statics b.clear
  | native n => native n
  | bound b => bound b
  | hosted h => hosted h

def attributeValues (as : Attributes) : List Value :=
  as.values.map (·.value)

/-- The values in the trait snapshots of a type. -/
def TypeCell.snapshotValues (c : TypeCell) : List Value :=
  c.traits.flatMap fun snapshot => attributeValues snapshot.attributes

def Statics.assigned (b : Statics) : List Value :=
  b.slots.toList.filterMap Prod.snd

namespace Store

def content? (s : Store) : CellKind × Nat → Option Content
  | (.array, i) => s.arrays[i]?.map .array
  | (.map, i) => s.maps[i]?.map .map
  | (.object, i) => s.objects[i]?.map .object
  | (.function, i) => s.functions[i]?.map .function
  | (.native, i) => s.natives[i]?.map .native
  | (.bound, i) => s.bounds.cells[i]?.map .bound
  | (.type, i) => s.types[i]?.map .type
  | (.trait, i) => s.traits[i]?.map .trait
  | (.hosted, i) => s.hosted[i]?.map .hosted
  | (.statics, i) => s.statics[i]?.map .statics

/-- The block of static slots that a function shares with its siblings. -/
def sharedBlock (s : Store) (f : FunctionId) : Statics :=
  s.staticsCell (s.function f).closure.statics

/-- The values that a value holds directly, once for each time. -/
def held (s : Store) : Value → List Value
  | .array id => (s.array id).toList
  | .map id => (s.map id).values
  | .object id => attributeValues (s.object id).attributes
  | .function id => attributeValues (s.function id).attributes ++ (s.sharedBlock id).assigned
  | .type id => attributeValues (s.type id).attributes ++ (s.type id).snapshotValues
  | .trait id => attributeValues (s.trait id).attributes
  | _ => []

/-- How many static slots of a function have no value. -/
def unassignedSlots (s : Store) : Value → Nat
  | .function id => (s.sharedBlock id).slots.toList.countP (·.2.isNone)
  | _ => 0

/-- How many attributes there are in the trait snapshots of a type. -/
def snapshotAttributes (s : Store) : Value → Nat
  | .type id => (s.type id).snapshotValues.length
  | _ => 0

/-- The cells that are emptied: that of the value, and the block of a function. -/
def cleared (s : Store) : Value → List (CellKind × Nat)
  | .function id =>
    [(.function, id.index), (.statics, (s.function id).closure.statics.index)]
  | v => v.identity?.toList

end Store

theorem length_attributeValues (as : Attributes) : (attributeValues as).length = as.size := by
  simp [attributeValues, Table.values, Table.size]

theorem Statics.length_assigned (b : Statics) :
    b.assigned.length + b.slots.toList.countP (·.2.isNone) = b.slots.size := by
  rw [assigned, ← Array.length_toList]
  induction b.slots.toList with
  | nil => rfl
  | cons e rest ih =>
    obtain ⟨name, v⟩ := e
    cases v <;> simp at ih ⊢ <;> omega

theorem Statics.assigned_clear (b : Statics) : b.clear.assigned = [] := by
  simp [assigned, clear, List.filterMap_map]

namespace Store

variable (s : Store) (x : Value)

theorem breakReferences_count :
    (s.breakReferences x).1 + s.snapshotAttributes x = (s.held x).length + s.unassignedSlots x := by
  cases x with
  | array id => rfl
  | map id => exact (List.length_map _).symm
  | object id => exact (length_attributeValues _).symm
  | trait id => exact (length_attributeValues _).symm
  | function id =>
    have hslots := (s.sharedBlock id).length_assigned
    simp only [held, List.length_append, length_attributeValues, unassignedSlots]
    rw [Nat.add_assoc, hslots]
    rfl
  | type id =>
    simp only [held, List.length_append, length_attributeValues]
    rfl
  | _ => rfl

section Cells

variable {α : Type} {f : α → α}

/-- What holds of each result of `f` and of the default holds of a cell that `f` was applied to. -/
theorem of_getD_modify {P : α → Prop} {d : α} {xs : Array α} {i : Nat} (hd : P d)
    (hf : ∀ a, P (f a)) : P ((xs.modify i f).getD i d) := by
  rw [Array.getD_eq_getD_getElem?, Array.getElem?_modify, if_pos rfl]
  cases xs[i]? with
  | none => exact hd
  | some a => exact hf a

theorem map_getElem?_modify (mk : α → Content) (f : α → α) (hf : ∀ a, mk (f a) = (mk a).emptied)
    (xs : Array α) (i j : Nat) :
    (xs.modify i f)[j]?.map mk =
      if j = i then (xs[j]?.map mk).map .emptied else xs[j]?.map mk := by
  rw [Array.getElem?_modify]
  by_cases hij : i = j
  · rw [if_pos hij, if_pos hij.symm, Option.map_map, Option.map_map]
    exact congrArg (xs[j]?.map ·) (funext hf)
  · rw [if_neg hij, if_neg (Ne.symm hij)]

end Cells

theorem setStatics_clear (id : StaticsId) :
    s.setStatics id (s.staticsCell id).clear =
      { s with statics := s.statics.modify id.index .clear } := by
  have heq : s.statics.setIfInBounds id.index (s.staticsCell id).clear =
      s.statics.modify id.index .clear := by
    apply Array.ext_getElem?
    intro j
    rw [Array.getElem?_setIfInBounds, Array.getElem?_modify]
    by_cases hij : id.index = j
    · subst hij
      cases hcell : s.statics[id.index]? with
      | none => simpa using hcell
      | some b =>
        obtain ⟨hj, rfl⟩ := Array.getElem?_eq_some_iff.1 hcell
        simp [staticsCell, hj]
    · rw [if_neg hij, if_neg hij]
  rw [setStatics, heq]

theorem breakReferences_function (id : FunctionId) :
    (s.breakReferences (.function id)).2 =
      { s.setFunction id fun _ => .empty with
        statics := s.statics.modify (s.function id).closure.statics.index .clear } :=
  (s.setFunction id fun _ => .empty).setStatics_clear (s.function id).closure.statics

theorem content_breakReferences (c : CellKind × Nat) :
    (s.breakReferences x).2.content? c =
      if c ∈ s.cleared x then (s.content? c).map .emptied else s.content? c := by
  obtain ⟨kind, j⟩ := c
  cases x with
  | array id =>
    have h := map_getElem?_modify .array (fun _ => #[]) (fun _ => rfl) s.arrays id.index j
    cases kind <;> simp [breakReferences, cleared, Value.identity?, content?, setArray, h]
  | map id =>
    have h := map_getElem?_modify .map (fun _ => .empty) (fun _ => rfl) s.maps id.index j
    cases kind <;> simp [breakReferences, cleared, Value.identity?, content?, setMap, h]
  | object id =>
    have h := map_getElem?_modify .object (fun o => { o with attributes := .empty }) (fun _ => rfl)
      s.objects id.index j
    cases kind <;> simp [breakReferences, cleared, Value.identity?, content?, setObject, h]
  | trait id =>
    have h := map_getElem?_modify .trait (fun t => { t with attributes := .empty }) (fun _ => rfl)
      s.traits id.index j
    cases kind <;> simp [breakReferences, cleared, Value.identity?, content?, setTrait, h]
  | type id =>
    have h := map_getElem?_modify .type (fun c => { c with attributes := .empty, traits := [] })
      (fun _ => rfl) s.types id.index j
    cases kind <;> simp [breakReferences, cleared, Value.identity?, content?, h]
  | function id =>
    have hfunctions := map_getElem?_modify .function (fun o => { o with attributes := .empty })
      (fun _ => rfl) s.functions id.index j
    have hstatics := map_getElem?_modify .statics .clear (fun _ => rfl) s.statics
      (s.function id).closure.statics.index j
    rw [breakReferences_function]
    cases kind <;> simp [cleared, content?, setFunction, hfunctions, hstatics]
  | native id | bound id | hosted id =>
    -- these cells keep what they hold
    cases kind <;> simp [breakReferences, cleared, Value.identity?, content?, Content.emptied,
      Function.comp_def]
  | _ => simp [breakReferences, cleared, Value.identity?]

theorem closure_setFunction (id : FunctionId) (f : Attributes → Attributes) :
    ((s.setFunction id f).function id).closure = (s.function id).closure := by
  rw [function, setFunction, function, Array.getD_eq_getD_getElem?, Array.getElem?_modify,
    if_pos rfl, Array.getD_eq_getD_getElem?]
  cases s.functions[id.index]? <;> rfl

theorem held_breakReferences : (s.breakReferences x).2.held x = [] := by
  cases x with
  | array id => exact of_getD_modify (P := fun xs : Array Value => xs.toList = []) rfl fun _ => rfl
  | map id => exact of_getD_modify (P := fun t : Table Value => t.values = []) rfl fun _ => rfl
  | object id =>
    exact of_getD_modify (P := fun o : Object => attributeValues o.attributes = []) rfl fun _ => rfl
  | trait id =>
    exact of_getD_modify (P := fun t : Trait => attributeValues t.attributes = []) rfl fun _ => rfl
  | type id =>
    exact of_getD_modify (P := fun c : TypeCell => attributeValues c.attributes ++
      c.snapshotValues = []) rfl fun _ => rfl
  | function id =>
    have hown : attributeValues ((s.setFunction id fun _ => .empty).function id).attributes = [] :=
      of_getD_modify (P := fun f : Function => attributeValues f.attributes = []) rfl fun _ => rfl
    have hblock : ((s.breakReferences (.function id)).2.sharedBlock id).assigned = [] := by
      -- the function is still on the block that was cleared
      have hsame := congrArg (·.statics.index) (s.closure_setFunction id fun _ => .empty)
      rw [breakReferences_function, sharedBlock, staticsCell]
      exact hsame ▸ of_getD_modify (P := fun b : Statics => b.assigned = []) rfl
        Statics.assigned_clear
    rw [held, hblock, breakReferences_function, List.append_nil]
    exact hown
  | _ => rfl

theorem unassignedSlots_or_snapshotAttributes :
    s.unassignedSlots x = 0 ∨ s.snapshotAttributes x = 0 := by
  cases x with
  | type id => exact .inl rfl
  | _ => exact .inr rfl

/-- Breaking references empties what the value holds and touches no other cell. Its count is that of
the values held, save that it includes the slots without a value and leaves out the attributes in
trait snapshots. -/
theorem breakReferences_releases :
    (s.breakReferences x).1 + s.snapshotAttributes x = (s.held x).length + s.unassignedSlots x ∧
      ((s.breakReferences x).1 = (s.held x).length ↔
        s.unassignedSlots x = 0 ∧ s.snapshotAttributes x = 0) ∧
      (s.breakReferences x).2.held x = [] ∧
      ∀ c, (s.breakReferences x).2.content? c =
        if c ∈ s.cleared x then (s.content? c).map .emptied else s.content? c := by
  have hcount := s.breakReferences_count x
  have hone := s.unassignedSlots_or_snapshotAttributes x
  refine ⟨hcount, ?_, s.held_breakReferences x, s.content_breakReferences x⟩
  omega

/-- A slot that was never assigned is counted, and an attribute in a trait snapshot is not. -/
theorem breakReferences_miscounts :
    let block : Statics := .ofNames ["n"]
    let f : Function := ⟨⟨default, ⟨0, []⟩, ⟨0⟩⟩, .empty⟩
    let c : TypeCell :=
      { name := "T", base := none, traits := [⟨"Tr", .ofList [("a", { value := .bool true })]⟩] }
    let s : Store := { functions := #[f], statics := #[block], types := #[c] }
    (s.held (.function ⟨0⟩) = [] ∧ (s.breakReferences (.function ⟨0⟩)).1 = 1) ∧
      s.held (.type ⟨0⟩) = [.bool true] ∧ (s.breakReferences (.type ⟨0⟩)).1 = 0 ∧
        (s.breakReferences (.type ⟨0⟩)).2.held (.type ⟨0⟩) = [] :=
  ⟨⟨rfl, rfl⟩, rfl, rfl, rfl⟩

end Store

end ScriptMachine
