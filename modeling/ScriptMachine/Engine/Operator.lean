import ScriptMachine.Code.Opcode
import ScriptMachine.Model.Value

namespace ScriptMachine

namespace BinaryOp

def onNumbers (x y : Float) : BinaryOp → Value
  | add => .number (x + y)
  | sub => .number (x - y)
  | mul => .number (x * y)
  | div => .number (x / y)
  | mod => .number (remainder x y)
  | less => .bool (x < y)
  | lessEqual => .bool (x ≤ y)
  | greater => .bool (y < x)
  | greaterEqual => .bool (y ≤ x)

def onStrings (x y : String) : BinaryOp → Option Value
  | add => some (.string (x ++ y))
  | less => some (.bool (x < y))
  | lessEqual => some (.bool (x ≤ y))
  | greater => some (.bool (y < x))
  | greaterEqual => some (.bool (y ≤ x))
  | _ => none

/-- The text of two primitives side by side. -/
def concat? (a b : Value) : Option Value := do
  return .string ((← a.primitiveText?) ++ (← b.primitiveText?))

def onPrimitives? (op : BinaryOp) (a b : Value) : Option Value :=
  match a, b with
  | .number x, .number y => some (op.onNumbers x y)
  | .string x, .string y => op.onStrings x y
  | .string _, _ | _, .string _ => if op = add then concat? a b else none
  | _, _ => none

end BinaryOp

namespace Opcode

/-- What an instruction makes of two primitives, if it is an operator. -/
def applyBinary? (o : Opcode) (a b : Value) : Option Value :=
  match o with
  | binary op => op.onPrimitives? a b
  | _ => none

end Opcode

namespace Value

def negate? : Value → Option Value
  | number n => some (.number (-n))
  | _ => none

/-- Whether `==` is decided by the machine; only objects may have a rule of their own. -/
def hasBuiltinEquality : Value → Bool
  | object _ => false
  | _ => true

end Value

end ScriptMachine
