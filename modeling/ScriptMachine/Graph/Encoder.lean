import ScriptMachine.Graph.Basic
import ScriptMachine.Model.Registry
import ScriptMachine.Model.Resolve

namespace ScriptMachine

structure Encoder where
  registry : Registry := {}
  records : Array Record := #[]
  /-- Containers that have a number and no record yet. -/
  pending : List Value := []
  deriving Inhabited

namespace Encoder

/-- Steps of an encoder; what it has numbered stays so when it fails. -/
abbrev EncodeM := EStateM CodecError Encoder

/-- What stands for a value in a slot. -/
def slot (s : Store) (v : Value) : EncodeM Node := do
  match v with
  | .void => return .void
  | .bool b => return .bool b
  | .number n => if n.isFinite then return .number n else throw (.nonFinite n)
  | .string t => return .string t
  | .type t => return .type (s.typeName t)
  | .array _ | .map _ | .object _ =>
    let e ← get
    match e.registry.register v with
    | some (id, isNew, registry) =>
      set { e with registry, pending := if isNew then e.pending ++ [v] else e.pending }
      return .ref id
    | none => throw .idsExhausted
  | w => throw (.unsupported w.kindName)

def slots (s : Store) : List Value → EncodeM (List Node)
  | [] => return []
  | v :: rest => do
    let node ← slot s v
    return node :: (← slots s rest)

def entries (s : Store) : List (String × Value) → EncodeM (List Entry)
  | [] => return []
  | (key, v) :: rest => do
    let value ← slot s v
    return { key, value } :: (← entries s rest)

def fields (s : Store) : List (String × Attribute) → EncodeM (List Field)
  | [] => return []
  | (name, a) :: rest => do
    let value ← slot s a.value
    return { name, isPrivate := a.flags.isPrivate, isConstant := a.flags.isConstant, value } ::
      (← fields s rest)

def record (s : Store) (v : Value) : EncodeM Record := do
  match v with
  | .array id => return .array (← slots s (s.array id).toList)
  | .map id => return .map (← entries s (s.map id).entries)
  | .object id =>
    let o := s.object id
    return .object (s.typeName o.type) (← fields s o.attributes.entries)
  | w => throw (.unsupported w.kindName)

/-- Writes at most `n` of the records that are pending. -/
def drain (s : Store) : Nat → EncodeM Unit
  | 0 => return
  | n + 1 => do
    match (← get).pending with
    | [] => return
    | v :: rest =>
      modify fun e => { e with pending := rest }
      let r ← record s v
      modify fun e => { e with records := e.records.push r }
      drain s n

/-- Encodes a value and what it reaches. There are never more records to write than numbers. -/
def encode (s : Store) (v : Value) : EncodeM Node := do
  let node ← slot s v
  drain s (idLimit + (← get).pending.length)
  return node

end Encoder

namespace Store

def encode (s : Store) (v : Value) : Except CodecError Graph :=
  match Encoder.encode s v {} with
  | .ok root e => .ok ⟨root, e.records.toList⟩
  | .error err _ => .error err

end Store

end ScriptMachine
