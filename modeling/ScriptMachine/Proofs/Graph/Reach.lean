import ScriptMachine.Graph.Encoder

namespace ScriptMachine

/-- A copy of an attribute with its value mapped by `φ`; it is no declaration for instances. -/
def Attribute.copied (φ : Value → Value) (a : Attribute) : Attribute :=
  ⟨φ a.value, { a.flags with isInit := false }⟩

/-- The table with its values mapped; names and their order stay. -/
def Table.mapValues {α β : Type} (f : α → β) (t : Table α) : Table β where
  entries := t.entries.map fun e => (e.1, f e.2)
  nodup := by
    rw [List.map_map]
    exact t.nodup

namespace Value

def isContainer : Value → Bool
  | array _ | map _ | object _ => true
  | _ => false

/-- Whether graphs have a form for the value; what a container holds is another matter. -/
def Encodable : Value → Prop
  | void | bool _ | string _ | type _ | array _ | map _ | object _ => True
  | number n => n.isFinite = true
  | _ => False

theorem eq_of_identity {c d : Value} (hc : c.isContainer = true) (hd : d.isContainer = true)
    (h : c.identity? = d.identity?) : c = d := by
  cases c <;> cases d <;> simp_all [isContainer, identity?] <;>
    exact congrArg Id.mk h

theorem exists_identity {c : Value} (hc : c.isContainer = true) : ∃ cell, c.identity? = some cell := by
  cases c <;> simp_all [isContainer, identity?]

end Value

namespace Store

/-- The values in a container, in order. -/
def contents (s : Store) : Value → List Value
  | .array id => (s.array id).toList
  | .map id => (s.map id).entries.map fun e => e.2
  | .object id => (s.object id).attributes.entries.map fun e => e.2.value
  | _ => []

/-- What is reached from `v` through elements of arrays, values of maps and attributes of objects. -/
inductive Reach (s : Store) (v : Value) : Value → Prop
  | refl : Reach s v v
  | step {c w : Value} : Reach s v c → w ∈ s.contents c → Reach s v w

theorem isContainer_of_mem_contents {s : Store} {c w : Value} (h : w ∈ s.contents c) :
    c.isContainer = true := by
  cases c <;> first | rfl | exact absurd h List.not_mem_nil

/-- More containers are reached from `v` than there are numbers. -/
def TooMany (s : Store) (v : Value) : Prop :=
  ∃ l : List Value, l.Nodup ∧ idLimit < l.length ∧ ∀ c ∈ l, c.isContainer = true ∧ s.Reach v c

/-- The cell of a container. -/
inductive Cell where
  | array (items : Array Value)
  | map (entries : Table Value)
  | object (o : Object)

def Cell.values : Cell → List Value
  | array items => items.toList
  | map entries => entries.entries.map fun e => e.2
  | object o => o.attributes.entries.map fun e => e.2.value

/-- The cell that a container names, if it is in the store. -/
def cell? (s : Store) : Value → Option Cell
  | .array id => s.arrays[id.index]?.map .array
  | .map id => s.maps[id.index]?.map .map
  | .object id => s.objects[id.index]?.map .object
  | _ => none

/-- The cell of a copy: the same elements, entries or attributes in the same order, with their values
mapped by `φ`. -/
def copied (s : Store) (φ : Value → Value) : Value → Option Cell
  | .array id => some (.array ((s.array id).map φ))
  | .map id => some (.map ((s.map id).mapValues φ))
  | .object id =>
    some (.object ⟨(s.object id).type, (s.object id).attributes.mapValues (·.copied φ)⟩)
  | _ => none

theorem contents_of_cell {t : Store} {x : Value} {cell : Cell} (h : t.cell? x = some cell) :
    t.contents x = cell.values := by
  cases x <;> simp only [cell?, Option.map_eq_some_iff, reduceCtorEq] at h
  all_goals
    obtain ⟨_, hget, rfl⟩ := h
    simp [contents, Cell.values, array, map, object, hget]

theorem contents_of_copied {s t : Store} {φ : Value → Value} {c x : Value}
    (hc : c.isContainer = true) (h : t.cell? x = s.copied φ c) :
    t.contents x = (s.contents c).map φ := by
  cases c with
  | array id =>
    rw [contents_of_cell h]
    simp [Cell.values, contents]
  | map id =>
    rw [contents_of_cell h]
    simp [Cell.values, contents, Table.mapValues]
  | object id =>
    rw [contents_of_cell h]
    simp [Cell.values, contents, Table.mapValues, Attribute.copied]
  | _ => cases hc

theorem isContainer_of_cell {t : Store} {x : Value} {cell : Cell} (h : t.cell? x = some cell) :
    x.isContainer = true := by
  cases x <;> first | rfl | cases h

end Store

end ScriptMachine
