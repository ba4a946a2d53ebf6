import ScriptMachine.Graph.Rebuild

namespace ScriptMachine

structure Decoder where
  lookup : TypeLookup
  /-- The containers of the graph that was decoded last. -/
  registry : Registry := {}

namespace Decoder

abbrev DecodeM := EStateM CodecError (Decoder × Store)

def references (d : Decoder) : Nat :=
  d.registry.size

/-- A step that builds with what the decoder knows. -/
def building {α : Type} (f : TypeLookup → Registry → Graph.RebuildM α) : DecodeM α :=
  fun (d, s) =>
    match f d.lookup d.registry s with
    | .ok a s => .ok a (d, s)
    | .error e s => .error e (d, s)

def forget : DecodeM Unit :=
  modify fun (d, s) => ({ d with registry := {} }, s)

def number (i : Nat) (v : Value) : DecodeM Unit := do
  match (← get).1.registry.bind i v with
  | none => throw .idsExhausted
  | some registry => modify fun (d, s) => ({ d with registry }, s)

/-- The containers of all records, numbered from `i` on. -/
def shells (i : Nat) : List Record → DecodeM (List Value)
  | [] => return []
  | record :: rest => do
    let v ← building fun lookup _ => Graph.shell lookup record
    number i v
    return v :: (← shells (i + 1) rest)

def decode (g : Graph) : DecodeM Value := do
  forget
  let vs ← shells 0 g.records
  (g.records.zip vs).forM fun (record, v) =>
    building fun lookup registry => Graph.fill lookup registry record v
  building fun lookup registry => Graph.ofExcept (Graph.leaf lookup registry g.root)

end Decoder

end ScriptMachine
