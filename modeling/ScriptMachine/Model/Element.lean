import ScriptMachine.Model.Builtin

namespace ScriptMachine

/-- How many void elements one write may add. -/
def maxGap : Nat := UInt16.size

/-- Writes one element, after filling up with void. -/
def storeElement (items : Array Value) (i : Nat) (v : Value) : Except Cause (Array Value) :=
  if i < items.size then .ok (items.setIfInBounds i v)
  else if maxGap < i - items.size then .error (.indexTooFar i items.size)
  else .ok ((items ++ Array.replicate (i - items.size) Value.void).push v)

namespace Store

def readElement (s : Store) (container index : Value) : Except Cause Value :=
  match container with
  | .array id =>
    match index with
    | .number _ => .ok ((index.index?.bind fun i => (s.array id)[i]?).getD .void)
    | _ => .error (.typeMismatch "array index" index.kindName)
  | .map id =>
    match index.mapKey? with
    | some key => .ok (((s.map id).get? key).getD .void)
    | none => .error (.typeMismatch "map key" index.kindName)
  | .string t =>
    match index with
    | .number _ =>
      .ok ((index.index?.bind fun i => t.toList[i]?).elim .void fun c => .string c.toString)
    | _ => .error (.typeMismatch "string index" index.kindName)
  | v => .error (.typeMismatch "index" v.kindName)

/-- `container[index] = v`. -/
def writeElement (s : Store) (container index v : Value) : Except Cause Store :=
  match container with
  | .array id =>
    match index.index? with
    | some i => (storeElement (s.array id) i v).map fun items => s.setArray id fun _ => items
    | none => .error (.typeMismatch "array index" index.kindName)
  | .map id =>
    match index.mapKey? with
    | some key => .ok (s.setMap id (·.insert key v))
    | none => .error (.typeMismatch "map key" index.kindName)
  | w => .error (.typeMismatch "index assignment" w.kindName)

end Store

end ScriptMachine
