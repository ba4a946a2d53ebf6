import ScriptMachine.Fault

namespace ScriptMachine

structure Arity where
  parameters : Nat
  minimum : Nat
  maximum : Nat
  /-- Slot of the collected tail; a slot past the parameters marks a tail that nobody reads. -/
  variadic : Option Nat := none
  deriving DecidableEq, Inhabited

namespace Arity

def fixed (n : Nat) : Arity where
  parameters := n
  minimum := n
  maximum := n

def withVariadic (a : Arity) (slot : Nat) : Arity :=
  { a with variadic := some slot, maximum := slot }

/-- How many arguments are bound one to one. -/
def positionalLimit (a : Arity) : Nat :=
  a.variadic.getD a.maximum

/-- How many arguments are of use, if that is bounded. -/
def bound? (a : Arity) : Option Nat :=
  match a.variadic with
  | some _ => none
  | none => some a.maximum

def admits (a : Arity) (argc : Nat) : Bool :=
  a.minimum ≤ argc

def flaw? (a : Arity) : Option ArityFlaw :=
  if a.positionalLimit < a.minimum then some (.minimumAboveLimit a.minimum a.positionalLimit)
  else if a.parameters < a.positionalLimit then
    some (.limitAboveParameters a.positionalLimit a.parameters)
  else none

end Arity

end ScriptMachine
