import ScriptMachine.Number.Layout

namespace ScriptMachine

/-- One slot of a record. -/
inductive Node where
  | void
  | bool (b : Bool)
  | number (n : Float)
  | string (s : String)
  /-- A type, by name. -/
  | type (name : String)
  | ref (id : Nat)
  deriving Inhabited, BEq

structure Entry where
  key : String
  value : Node
  deriving Inhabited, BEq

structure Field where
  name : String
  isPrivate : Bool := false
  isConstant : Bool := false
  value : Node
  deriving Inhabited, BEq

inductive Record where
  | array (items : List Node)
  | map (entries : List Entry)
  | object (typeName : String) (attributes : List Field)
  deriving Inhabited, BEq

structure Graph where
  root : Node
  records : List Record := []
  deriving Inhabited, BEq

inductive CodecError where
  | unsupported (kind : String)
  | nonFinite (x : Float)
  | unknownType (name : String)
  | unknownId (id : Nat)
  | idsExhausted
  | malformed

def CodecError.message : CodecError → String
  | unsupported kind => s!"cannot serialize {kind} values"
  | nonFinite x => s!"number {Layout.literal.render x} has no JSON representation"
  | unknownType name => s!"unknown type '{name}'"
  | unknownId id => s!"reference to undefined id {id}"
  | idsExhausted => "too many reference values for one graph"
  | malformed => "malformed JSON"

end ScriptMachine
