import ScriptMachine.Number.Layout
import ScriptMachine.Text.Quoted

namespace ScriptMachine

inductive Constant where
  | void
  | bool (b : Bool)
  | number (n : Float)
  | string (s : String)
  deriving Inhabited

namespace Constant

def isNumber : Constant → Bool
  | number _ => true
  | _ => false

def number? : Constant → Option Float
  | number n => some n
  | _ => none

def string? : Constant → Option String
  | string s => some s
  | _ => none

def listing : Constant → String
  | void => "void"
  | bool b => if b then "true" else "false"
  | number n => Layout.literal.render n
  | string s => Text.quoted s

def same : Constant → Constant → Bool
  | void, void => true
  | bool a, bool b => a == b
  | number a, number b => a == b
  | string a, string b => a == b
  | _, _ => false

instance : BEq Constant := ⟨same⟩

end Constant

end ScriptMachine
