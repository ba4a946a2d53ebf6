import ScriptMachine.Model.Builtin

namespace ScriptMachine

inductive Origin where
  | own
  | type (t : TypeId)
  | trait (t : TypeId) (name : String)
  deriving DecidableEq

structure Resolved where
  attr : Attribute
  origin : Origin

/-- The attributes that a type brings in by itself: its own, then its traits from the last. -/
def TypeCell.find? (c : TypeCell) (t : TypeId) (name : String) : Option Resolved :=
  match c.attributes.get? name with
  | some a => some ⟨a, .type t⟩
  | none => c.traits.reverse.findSome? fun s =>
      (s.attributes.get? name).map fun a => ⟨a, .trait t s.name⟩

/-- Whether a type declares a function itself, by its own attributes or a trait. -/
def TypeCell.declares (c : TypeCell) (f : FunctionId) : Bool :=
  let holds (as : Attributes) : Bool := as.values.any fun a =>
    match a.value with
    | .function g => g == f
    | _ => false
  holds c.attributes || c.traits.any fun s => holds s.attributes

namespace Store

/-- Resolution through the chain of a type alone. -/
def lookup (s : Store) (t : TypeId) (name : String) : Option Resolved :=
  (s.chain t).findSome? fun u => (s.type u).find? u name

/-- The own attributes of a value that has any; a type shows those of its chain instead. -/
def ownAttributes? (s : Store) : Value → Option Attributes
  | .object id => some (s.object id).attributes
  | .function id => some (s.function id).attributes
  | .type id => some (s.type id).attributes
  | .trait id => some (s.trait id).attributes
  | _ => none

/-- What the receiver itself answers to. -/
def resolveOwn (s : Store) (receiver : Value) (name : String) : Option Resolved :=
  match receiver with
  | .type t => s.lookup t name
  | v => ((s.ownAttributes? v).bind (·.get? name)).map fun a => ⟨a, .own⟩

def resolve (s : Store) (receiver : Value) (name : String) : Option Resolved :=
  (s.resolveOwn receiver name).or (s.lookup (s.typeOf receiver) name)

end Store

end ScriptMachine
