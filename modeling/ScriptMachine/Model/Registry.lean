import ScriptMachine.Model.Value

namespace ScriptMachine

/-- The number that is never given out. -/
def idLimit : Nat := UInt32.size - 1

structure Registry where
  /-- Numbers of cells, the latest first. -/
  ids : List ((CellKind × Nat) × Nat) := []
  /-- Values by number, the latest first. -/
  values : List (Nat × Value) := []
  next : Nat := 0
  deriving Inhabited

namespace Registry

def size (r : Registry) : Nat :=
  r.values.length

def get? (r : Registry) (id : Nat) : Option Value :=
  r.values.lookup id

def idOf? (r : Registry) (v : Value) : Option Nat := do
  r.ids.lookup (← v.identity?)

/-- The number of a value, and whether it is new. Fails on a primitive and when the numbers are
used up. -/
def register (r : Registry) (v : Value) : Option (Nat × Bool × Registry) := do
  let cell ← v.identity?
  match r.ids.lookup cell with
  | some id => return (id, false, r)
  | none =>
    if r.next < idLimit then
      return (r.next, true,
        { ids := (cell, r.next) :: r.ids, values := (r.next, v) :: r.values, next := r.next + 1 })
    else none

/-- Gives a value a number chosen elsewhere. Fails when the number is taken. -/
def bind (r : Registry) (id : Nat) (v : Value) : Option Registry :=
  if id < idLimit ∧ (r.get? id).isNone then
    some
      { ids := (v.identity?.map fun cell => (cell, id)).toList ++ r.ids
        values := (id, v) :: r.values
        next := max r.next (id + 1) }
  else none

end Registry

end ScriptMachine
