import ScriptMachine.Model.Store

namespace ScriptMachine

inductive Builtin where
  | object | type | trait | void | bool | number | string | array | map
  | function | userFunction | nativeFunction | boundMethod | exception
  deriving DecidableEq

namespace Builtin

def all : List Builtin :=
  [object, type, trait, void, bool, number, string, array, map,
    function, userFunction, nativeFunction, boundMethod, exception]

def name : Builtin → String
  | object => "Object"
  | type => "Type"
  | trait => "Trait"
  | void => "Void"
  | bool => "Bool"
  | number => "Number"
  | string => "String"
  | array => "Array"
  | map => "Map"
  | function => "Function"
  | userFunction => "UserFunction"
  | nativeFunction => "NativeFunction"
  | boundMethod => "BoundMethod"
  | exception => "Exception"

def id : Builtin → TypeId
  | object => ⟨0⟩
  | type => ⟨1⟩
  | trait => ⟨2⟩
  | void => ⟨3⟩
  | bool => ⟨4⟩
  | number => ⟨5⟩
  | string => ⟨6⟩
  | array => ⟨7⟩
  | map => ⟨8⟩
  | function => ⟨9⟩
  | userFunction => ⟨10⟩
  | nativeFunction => ⟨11⟩
  | boundMethod => ⟨12⟩
  | exception => ⟨13⟩

def base? : Builtin → Option TypeId
  | object => none
  | userFunction | nativeFunction | boundMethod => some function.id
  | _ => some object.id

/-- Types whose values only the machine makes. -/
def sealed : List Builtin :=
  [void, bool, number, string, function, userFunction, nativeFunction, boundMethod, type, trait]

def isSealed (t : TypeId) : Bool :=
  sealed.any (·.id == t)

end Builtin

/-- A built-in method: the type that has it, its name and how many arguments it takes. -/
structure MethodEntry where
  owner : Builtin
  name : String
  minimum : Nat
  maximum : Option Nat
  method : Method

namespace MethodEntry

def all : List MethodEntry :=
  [⟨.object, "getType", 0, some 0, .getType⟩,
    ⟨.object, "isA", 1, some 1, .isA⟩,
    ⟨.object, "toString", 0, some 0, .toString⟩,
    ⟨.type, "getName", 0, some 0, .getName⟩,
    ⟨.type, "getBaseType", 0, some 0, .getBaseType⟩,
    ⟨.type, "getTraits", 0, some 0, .getTraits⟩,
    ⟨.array, "size", 0, some 0, .arraySize⟩,
    ⟨.array, "push", 1, none, .arrayPush⟩,
    ⟨.array, "pop", 0, some 0, .arrayPop⟩,
    ⟨.array, "get", 1, some 1, .arrayGet⟩,
    ⟨.array, "set", 2, some 2, .arraySet⟩,
    ⟨.map, "size", 0, some 0, .mapSize⟩,
    ⟨.map, "get", 1, some 1, .mapGet⟩,
    ⟨.map, "set", 2, some 2, .mapSet⟩,
    ⟨.map, "contains", 1, some 1, .mapContains⟩,
    ⟨.map, "keys", 0, some 0, .mapKeys⟩,
    ⟨.string, "length", 0, some 0, .stringLength⟩,
    ⟨.userFunction, "getParamCount", 0, some 0, .getParamCount⟩,
    ⟨.userFunction, "getMinParamCount", 0, some 0, .getMinParamCount⟩,
    ⟨.userFunction, "getMaxParamCount", 0, some 0, .getMaxParamCount⟩,
    ⟨.userFunction, "getMultiParam", 0, some 0, .getMultiParam⟩,
    ⟨.userFunction, "getLine", 0, some 0, .getLine⟩,
    ⟨.userFunction, "clone", 0, some 0, .clone⟩,
    ⟨.exception, "_constructor", 0, some 1, .exceptionConstructor⟩,
    ⟨.exception, "getMessage", 0, some 0, .getMessage⟩]

def native (e : MethodEntry) : Native where
  name := e.name
  minimum := e.minimum
  maximum := e.maximum
  body := .method e.method

end MethodEntry

namespace Store

def exceptionSlots : List (String × Attribute) :=
  let slot (name : String) (v : Value) : String × Attribute := (name, ⟨v, { isInit := true }⟩)
  [slot "kind" (.string ErrorKind.userRaised.name), slot "message" (.string ""), slot "line" .void]

/-- The own attributes of a built-in type; its methods are natives in the order of the list. -/
def builtinAttributes (b : Builtin) : Attributes :=
  let slots := if b = .exception then exceptionSlots else []
  let methods := MethodEntry.all.zipIdx.filterMap fun (e, i) =>
    if e.owner = b then some (e.name, { value := .native ⟨i⟩ : Attribute }) else none
  .ofList (slots ++ methods)

def initial : Store where
  natives := (MethodEntry.all.map MethodEntry.native).toArray
  types := (Builtin.all.map fun b =>
    { name := b.name, base := b.base?, attributes := builtinAttributes b : TypeCell }).toArray

def typeOf (s : Store) : Value → TypeId
  | .void => Builtin.void.id
  | .bool _ => Builtin.bool.id
  | .number _ => Builtin.number.id
  | .string _ => Builtin.string.id
  | .array _ => Builtin.array.id
  | .map _ => Builtin.map.id
  | .object id => (s.object id).type
  | .function _ => Builtin.userFunction.id
  | .native _ => Builtin.nativeFunction.id
  | .bound _ => Builtin.boundMethod.id
  | .type _ => Builtin.type.id
  | .trait _ => Builtin.trait.id
  | .hosted id => (s.hostedCell id).type

def typeName (s : Store) (t : TypeId) : String :=
  (s.type t).name

/-- A type and its bases, up to the root. Bases are older than the types derived from them. -/
def chain (s : Store) (t : TypeId) : List TypeId :=
  match (s.type t).base with
  | some b => if b.index < t.index then t :: s.chain b else [t]
  | none => [t]
termination_by t.index

/-- Whether a type is `u` or derived from it. -/
def isSubtype (s : Store) (t u : TypeId) : Bool :=
  t = u ||
    match (s.type t).base with
    | some b => if b.index < t.index then s.isSubtype b u else false
    | none => false
termination_by t.index

def isInstance (s : Store) (v : Value) (t : TypeId) : Bool :=
  s.isSubtype (s.typeOf v) t

end Store

end ScriptMachine
