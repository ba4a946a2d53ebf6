import ScriptMachine.Model.Display
import ScriptMachine.Model.Element
import ScriptMachine.Model.Instance

namespace ScriptMachine

namespace Method

abbrev Result := Except Cause (Value × Store)

def mismatch {α : Type} (operation : String) (v : Value) : Except Cause α :=
  .error (.typeMismatch operation v.kindName)

def thisType (op : String) : Value → Except Cause TypeId
  | .type id => .ok id
  | v => mismatch op v

def thisArray (op : String) : Value → Except Cause ArrayId
  | .array id => .ok id
  | v => mismatch op v

def thisMap (op : String) : Value → Except Cause MapId
  | .map id => .ok id
  | v => mismatch op v

def thisFunction (op : String) : Value → Except Cause FunctionId
  | .function id => .ok id
  | v => mismatch op v

def indexOf (op : String) (v : Value) : Except Cause Nat :=
  match v.index? with
  | some i => .ok i
  | none => mismatch op v

def keyOf (op : String) (v : Value) : Except Cause String :=
  match v.mapKey? with
  | some key => .ok key
  | none => mismatch op v

def count (n : Nat) : Value :=
  .number (Float.ofNat n)

def strings (s : Store) (names : List String) : Value × Store :=
  let (id, s) := s.newArray (names.map Value.string).toArray
  (.array id, s)

def arityOf (s : Store) (this : Value) : Except Cause Arity :=
  (thisFunction "function introspection" this).map fun id => (s.function id).closure.template.arity

/-- Runs a method; a missing argument reads as void. -/
def apply (m : Method) (s : Store) (this : Value) (args : List Value) : Result :=
  let arg (i : Nat) : Value := args[i]?.getD .void
  match m with
  | getType => .ok (.type (s.typeOf this), s)
  | isA =>
    match arg 0 with
    | .type t => .ok (.bool (s.isInstance this t), s)
    | v => mismatch "isA" v
  | toString => .ok (.string (s.text this), s)
  | getName => do
    let t ← thisType "getName" this
    return (.string (s.typeName t), s)
  | getBaseType => do
    let t ← thisType "getBaseType" this
    return ((s.type t).base.elim .void .type, s)
  | getTraits => do
    let t ← thisType "getTraits" this
    return strings s ((s.type t).traits.map (·.name))
  | arraySize => do
    let id ← thisArray "size" this
    return (count (s.array id).size, s)
  | arrayPush => do
    let id ← thisArray "push" this
    return (this, s.setArray id (· ++ args.toArray))
  | arrayPop => do
    let id ← thisArray "pop" this
    return ((s.array id).back?.getD .void, s.setArray id Array.pop)
  | arrayGet => do
    let i ← indexOf "get" (arg 0)
    let id ← thisArray "get" this
    return ((s.array id)[i]?.getD .void, s)
  | arraySet => do
    let i ← indexOf "set" (arg 0)
    let id ← thisArray "set" this
    let items ← storeElement (s.array id) i (arg 1)
    return (this, s.setArray id fun _ => items)
  | mapSize => do
    let id ← thisMap "size" this
    return (count (s.map id).size, s)
  | mapGet => do
    let key ← keyOf "get" (arg 0)
    let id ← thisMap "get" this
    return (((s.map id).get? key).getD .void, s)
  | mapSet => do
    let key ← keyOf "set" (arg 0)
    let id ← thisMap "set" this
    return (this, s.setMap id (·.insert key (arg 1)))
  | mapContains => do
    let key ← keyOf "contains" (arg 0)
    let id ← thisMap "contains" this
    return (.bool ((s.map id).contains key), s)
  | mapKeys => do
    let id ← thisMap "keys" this
    return strings s (s.map id).names
  | stringLength =>
    match this with
    | .string t => .ok (count t.length, s)
    | v => mismatch "length" v
  | getParamCount => do
    let a ← arityOf s this
    return (count a.parameters, s)
  | getMinParamCount => do
    let a ← arityOf s this
    return (count a.minimum, s)
  | getMaxParamCount => do
    let a ← arityOf s this
    return (a.bound?.elim (.number (-1.0)) count, s)
  | getMultiParam => do
    let a ← arityOf s this
    return (a.variadic.elim .void count, s)
  | getLine => do
    let id ← thisFunction "getLine" this
    return (count (s.function id).closure.template.line, s)
  | clone => do
    let id ← thisFunction "clone" this
    let (copy, s) := s.newFunction (s.function id)
    return (.function copy, s)
  | exceptionConstructor =>
    match this, args with
    | .object _, message :: _ =>
      .ok (.void, (s.assignOwn this "message" (.string (s.text message))).getD s)
    | _, _ => .ok (.void, s)
  | getMessage =>
    match this with
    | .object id => .ok (((s.object id).attributes.get? "message").elim .void (·.value), s)
    | v => mismatch "getMessage" v

end Method

end ScriptMachine
