import ScriptMachine.Text.Unprintable
import ScriptMachine.Text.GraphemeExtend

namespace ScriptMachine.Text

def inRanges (ranges : Array (Nat × Nat)) (n : Nat) : Bool :=
  ranges.any fun (lo, hi) => lo ≤ n && n ≤ hi

/-- The halfwidth voiced and semi-voiced sound marks: they extend a grapheme, but take a cell of
their own. -/
def soundMark (n : Nat) : Bool :=
  n == 0xff9e || n == 0xff9f

/-- Whether a character could run into the one before it. -/
def combining (n : Nat) : Bool :=
  inRanges graphemeExtendRanges n && !soundMark n

def plain (c : Char) : Bool :=
  let n := c.toNat
  if n < 0x20 then false
  else if n < 0x7f then true
  else !combining n && !inRanges unprintableRanges n

def escape (c : Char) : List Char :=
  match c with
  | '\x00' => ['\\', '0']
  | '\t' => ['\\', 't']
  | '\r' => ['\\', 'r']
  | '\n' => ['\\', 'n']
  | '"' => ['\\', '"']
  | '\\' => ['\\', '\\']
  | c => if plain c then [c] else ['\\', 'u', '\x7b'] ++ Nat.toDigits 16 c.toNat ++ ['\x7d']

def quoted (s : String) : String :=
  String.ofList ('"' :: s.toList.flatMap escape ++ ['"'])

end ScriptMachine.Text
