import Std.Data.HashMap
import ScriptMachine.Model.Builtin

namespace ScriptMachine

instance : Hashable CellKind := ⟨fun k => hash k.ctorIdx⟩

abbrev Cell := CellKind × Nat

namespace Store

/-- Lets go of everything that a value holds directly, and counts it. For a function that includes
the static slots it shares, assigned or not; trait snapshots of a type go uncounted. -/
def breakReferences (s : Store) (v : Value) : Nat × Store :=
  match v with
  | .array id => ((s.array id).size, s.setArray id fun _ => #[])
  | .map id => ((s.map id).size, s.setMap id fun _ => .empty)
  | .object id => ((s.object id).attributes.size, s.setObject id fun _ => .empty)
  | .function id =>
    let f := s.function id
    let block := s.staticsCell f.closure.statics
    (f.attributes.size + block.slots.size,
      (s.setFunction id fun _ => .empty).setStatics f.closure.statics block.clear)
  | .type id =>
    ((s.type id).attributes.size,
      { s with
        types := s.types.modify id.index fun c => { c with attributes := .empty, traits := [] } })
  | .trait id => ((s.trait id).attributes.size, s.setTrait id fun _ => .empty)
  | _ => (0, s)

def cellsOf (vs : List Value) : List Cell :=
  vs.filterMap Value.identity?

def attributeCells (as : Attributes) : List Cell :=
  cellsOf (as.values.map (·.value))

def typeCell (t : TypeId) : Cell :=
  (.type, t.index)

/-- The cells that a cell holds, once for each time. -/
def holds (s : Store) : Cell → List Cell
  | (.array, i) => cellsOf (s.array ⟨i⟩).toList
  | (.map, i) => cellsOf (s.map ⟨i⟩).values
  | (.object, i) =>
    let o := s.object ⟨i⟩
    typeCell o.type :: attributeCells o.attributes
  | (.function, i) =>
    let f := s.function ⟨i⟩
    (.statics, f.closure.statics.index) :: attributeCells f.attributes
  | (.native, i) => cellsOf (s.native ⟨i⟩).holds
  | (.bound, i) =>
    let b := s.bound ⟨i⟩
    cellsOf [b.receiver, b.method]
  | (.type, i) =>
    let c := s.type ⟨i⟩
    c.base.toList.map typeCell ++ attributeCells c.attributes ++
      c.traits.flatMap fun t => attributeCells t.attributes
  | (.trait, i) => attributeCells (s.trait ⟨i⟩).attributes
  | (.hosted, i) => [typeCell (s.hostedCell ⟨i⟩).type]
  | (.statics, i) => cellsOf ((s.staticsCell ⟨i⟩).slots.toList.filterMap Prod.snd)

def cells (s : Store) : List Cell :=
  let of (k : CellKind) (n : Nat) : List Cell := (List.range n).map fun i => (k, i)
  of .array s.arrays.size ++ of .map s.maps.size ++ of .object s.objects.size ++
    of .function s.functions.size ++ of .native s.natives.size ++ of .bound s.bounds.size ++
    of .type s.types.size ++ of .trait s.traits.size ++ of .hosted s.hosted.size ++
    of .statics s.statics.size

abbrev Holds := Std.HashMap Cell Nat

def hold (held : Holds) (cell : Cell) : Holds :=
  held.alter cell fun n => some (n.getD 0 + 1)

/-- Lets go of a cell once; the cell is free when this was the last hold on it. -/
def letGo : List Cell × Holds → Cell → List Cell × Holds
  | (free, held), cell =>
    match held.getD cell 0 with
    | 0 | 1 => (cell :: free, held.erase cell)
    | n + 2 => (free, held.insert cell (n + 1))

/-- Releases the free cells and those that become free by it, at most `n` of them. -/
def release (s : Store) : Nat → List Cell × Holds → Holds
  | 0, (_, held) => held
  | _, ([], held) => held
  | n + 1, (cell :: free, held) => s.release n ((s.holds cell).foldl letGo (free, held))

/-- How many times a value is held, by `roots` and by the cells that are kept. -/
def referenceCount (s : Store) (roots : List Cell) (v : Value) : Nat :=
  match v.identity? with
  | none => 0
  | some cell =>
    let cells := s.cells
    let held := (roots ++ cells.flatMap s.holds).foldl hold ∅
    (s.release cells.length (cells.filter (!held.contains ·), held)).getD cell 0

end Store

end ScriptMachine
