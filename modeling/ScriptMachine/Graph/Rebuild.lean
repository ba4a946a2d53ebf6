import ScriptMachine.Graph.Basic
import ScriptMachine.Model.Registry
import ScriptMachine.Model.Access

namespace ScriptMachine

abbrev TypeLookup := String → Option TypeId

namespace Graph

/-- Steps that build in a store; what they have built stays when they fail. -/
abbrev RebuildM := EStateM CodecError Store

def findType (lookup : TypeLookup) (name : String) : Except CodecError TypeId :=
  match lookup name with
  | some t => .ok t
  | none => .error (.unknownType name)

def leaf (lookup : TypeLookup) (r : Registry) : Node → Except CodecError Value
  | .void => .ok .void
  | .bool b => .ok (.bool b)
  | .number n => .ok (.number n)
  | .string t => .ok (.string t)
  | .type name => (findType lookup name).map .type
  | .ref id =>
    match r.get? id with
    | some v => .ok v
    | none => .error (.unknownId id)

def leaves (lookup : TypeLookup) (r : Registry) : List Node → Except CodecError (List Value)
  | [] => .ok []
  | n :: rest => do
    let v ← leaf lookup r n
    return v :: (← leaves lookup r rest)

def ofExcept {α : Type} : Except CodecError α → RebuildM α
  | .ok a => return a
  | .error e => throw e

/-- The empty container of a record. -/
def shell (lookup : TypeLookup) : Record → RebuildM Value
  | .array _ => modifyGet fun s => (s.newArray #[]).map .array id
  | .map _ => modifyGet fun s => (s.newMap .empty).map .map id
  | .object typeName _ => do
    let t ← ofExcept (findType lookup typeName)
    modifyGet fun s => (s.newObject ⟨t, .empty⟩).map .object id

def shells (lookup : TypeLookup) (r : Registry) (i : Nat) :
    List Record → RebuildM (List Value × Registry)
  | [] => return ([], r)
  | record :: rest => do
    let v ← shell lookup record
    match r.bind i v with
    | none => throw .idsExhausted
    | some r =>
      let (vs, r) ← shells lookup r (i + 1) rest
      return (v :: vs, r)

/-- Fills the container of a record: an array at once, a map or an object slot by slot. -/
def fill (lookup : TypeLookup) (r : Registry) : Record → Value → RebuildM Unit
  | .array items, .array id => do
    let vs ← ofExcept (leaves lookup r items)
    modify (·.setArray id (· ++ vs.toArray))
  | .map entries, .map id =>
    entries.forM fun e => do
      let v ← ofExcept (leaf lookup r e.value)
      modify (·.setMap id (·.insert e.key v))
  | .object _ fields, .object id =>
    fields.forM fun f => do
      let v ← ofExcept (leaf lookup r f.value)
      modify (·.setObject id
        (·.insert f.name ⟨v, { isPrivate := f.isPrivate, isConstant := f.isConstant }⟩))
  | _, v => throw (.unsupported v.kindName)

structure Decoded where
  root : Value
  registry : Registry

def decode (g : Graph) (lookup : TypeLookup) : RebuildM Decoded := do
  let (vs, registry) ← shells lookup {} 0 g.records
  (g.records.zip vs).forM fun (record, v) => fill lookup registry record v
  return { root := ← ofExcept (leaf lookup registry g.root), registry }

end Graph

end ScriptMachine
