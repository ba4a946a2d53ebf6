import ScriptMachine.Code.Constant

namespace ScriptMachine

inductive CellKind where
  | array | map | object | function | native | bound | type | trait | hosted | statics
  deriving DecidableEq

/-- Identity of a cell of kind `k`. -/
structure Id (k : CellKind) where
  index : Nat
  deriving DecidableEq, Inhabited

abbrev ArrayId := Id .array
abbrev MapId := Id .map
abbrev ObjectId := Id .object
abbrev FunctionId := Id .function
abbrev NativeId := Id .native
abbrev BoundId := Id .bound
abbrev TypeId := Id .type
abbrev TraitId := Id .trait
abbrev HostedId := Id .hosted
abbrev StaticsId := Id .statics

/-- Primitives are themselves; everything else is the identity of a cell in the store. -/
inductive Value where
  | void
  | bool (b : Bool)
  | number (n : Float)
  | string (s : String)
  | array (id : ArrayId)
  | map (id : MapId)
  | object (id : ObjectId)
  | function (id : FunctionId)
  | native (id : NativeId)
  | bound (id : BoundId)
  | type (id : TypeId)
  | trait (id : TraitId)
  /-- A datum of the host in the clothes of a script object. -/
  | hosted (id : HostedId)
  deriving Inhabited

namespace Value

def ofConstant : Constant → Value
  | .void => void
  | .bool b => bool b
  | .number n => number n
  | .string s => string s

def kindName : Value → String
  | void => "Void"
  | bool _ => "Bool"
  | number _ => "Number"
  | string _ => "String"
  | array _ => "Array"
  | map _ => "Map"
  | object _ => "Object"
  | function _ => "UserFunction"
  | native _ => "NativeFunction"
  | bound _ => "BoundMethod"
  | type _ => "Type"
  | trait _ => "Trait"
  | hosted _ => "Wrapped"

/-- The cell that a value names; none for a primitive. -/
def identity? : Value → Option (CellKind × Nat)
  | void | bool _ | number _ | string _ => none
  | array id => some (.array, id.index)
  | map id => some (.map, id.index)
  | object id => some (.object, id.index)
  | function id => some (.function, id.index)
  | native id => some (.native, id.index)
  | bound id => some (.bound, id.index)
  | type id => some (.type, id.index)
  | trait id => some (.trait, id.index)
  | hosted id => some (.hosted, id.index)

def isPrimitive (v : Value) : Bool :=
  v.identity?.isNone

def isCallable : Value → Bool
  | function _ | native _ | bound _ => true
  | _ => false

/-- Void, false, zero and what is not a number count as false. -/
def truthy : Value → Bool
  | void => false
  | bool b => b
  | number n => n != 0.0 && !n.isNaN
  | _ => true

/-- Primitives by value, everything else by identity. -/
def same : Value → Value → Bool
  | void, void => true
  | bool a, bool b => a == b
  | number a, number b => a == b
  | string a, string b => a == b
  | array a, array b => a == b
  | map a, map b => a == b
  | object a, object b => a == b
  | function a, function b => a == b
  | native a, native b => a == b
  | bound a, bound b => a == b
  | type a, type b => a == b
  | trait a, trait b => a == b
  | hosted a, hosted b => a == b
  | _, _ => false

instance : BEq Value := ⟨same⟩

def isVoid : Value → Bool
  | void => true
  | _ => false

def number? : Value → Option Float
  | number n => some n
  | _ => none

def string? : Value → Option String
  | string s => some s
  | _ => none

def index? : Value → Option Nat
  | number n => ScriptMachine.index? n
  | _ => none

def primitiveText? : Value → Option String
  | void => some "void"
  | bool b => some (if b then "true" else "false")
  | number n => some (numberText n)
  | string s => some s
  | _ => none

/-- The key under which a map keeps what is stored at this index. -/
def mapKey? : Value → Option String
  | string s => some s
  | v@(number _) | v@(bool _) => v.primitiveText?
  | _ => none

end Value

/-- What a call runs in the end. -/
inductive Callable where
  | function (id : FunctionId)
  | native (id : NativeId)
  deriving DecidableEq, Inhabited

def Callable.value : Callable → Value
  | function id => .function id
  | native id => .native id

def Value.callable? : Value → Option Callable
  | function id => some (.function id)
  | native id => some (.native id)
  | _ => none

/-- If the value names a bound method, that is one of the first `n`. -/
def Value.BoundBelow (n : Nat) : Value → Prop
  | bound id => id.index < n
  | _ => True

instance (n : Nat) : (v : Value) → Decidable (v.BoundBelow n)
  | .bound id => inferInstanceAs (Decidable (id.index < n))
  | .void | .bool _ | .number _ | .string _ | .array _ | .map _ | .object _ | .function _
  | .native _ | .type _ | .trait _ | .hosted _ => isTrue trivial

theorem Callable.boundBelow_value (c : Callable) (n : Nat) : c.value.BoundBelow n := by
  cases c <;> exact trivial

end ScriptMachine
