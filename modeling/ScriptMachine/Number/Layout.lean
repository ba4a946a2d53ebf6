import ScriptMachine.Number.Shortest

namespace ScriptMachine

structure Layout where
  tie : Tie
  /-- Whether a number whose decimal point stands at the given place has no exponent. -/
  positional : Int → Bool
  /-- Whether a whole number ends in `.0`. -/
  pointZero : Bool
  /-- Whether a positive exponent has a sign. -/
  plusSign : Bool
  nan : String
  infinity : String

namespace Layout

def zeros (n : Nat) : List Char :=
  List.replicate n '0'

/-- The digits `ds` with the decimal point at place `p`. -/
def place (l : Layout) (ds : List Char) (p : Int) : List Char :=
  if p ≤ 0 then ['0', '.'] ++ zeros (-p).toNat ++ ds
  else
    let whole := ds.take p.toNat
    let fraction := ds.drop p.toNat
    if fraction.isEmpty then
      whole ++ zeros (p.toNat - ds.length) ++ (if l.pointZero then ['.', '0'] else [])
    else whole ++ '.' :: fraction

def scientific (l : Layout) (ds : List Char) (p : Int) : List Char :=
  let mantissa :=
    match ds with
    | [] => []
    | [d] => [d]
    | d :: rest => d :: '.' :: rest
  let sign :=
    if p - 1 < 0 then ['-'] else if l.plusSign then ['+'] else []
  mantissa ++ 'e' :: sign ++ Nat.toDigits 10 (p - 1).natAbs

def digits (l : Layout) (m : Nat) (q : Int) : List Char :=
  if m = 0 then l.place ['0'] 1
  else
    let d := shortest l.tie m q
    if l.positional d.point then l.place d.text d.point else l.scientific d.text d.point

def render (l : Layout) (x : Float) : String :=
  let signed (negative : Bool) (cs : List Char) : String :=
    String.ofList (if negative then '-' :: cs else cs)
  match Shape.of x with
  | .nan => l.nan
  | .infinite negative => signed negative l.infinity.toList
  | .finite negative m q => signed negative (l.digits m q)

/-- Numbers that script text shows: an exponent below `1e-5` and from `1e16` on. -/
def shown : Layout where
  tie := .toEven
  positional p := -4 ≤ p && p ≤ 16
  pointZero := true
  plusSign := false
  nan := "nan"
  infinity := "inf"

/-- Literals in listings of code: never an exponent. -/
def literal : Layout where
  tie := .up
  positional _ := true
  pointZero := false
  plusSign := false
  nan := "NaN"
  infinity := "inf"

/-- Numbers of the JSON form: as `shown`, with a sign in every exponent. -/
def json : Layout :=
  { shown with plusSign := true }

end Layout

/-- The text of a number in scripts. Whole numbers below `1e15` have no fraction and zero no sign. -/
def numberText (x : Float) : String :=
  match integerMagnitude? x with
  | some n =>
    if n < Nat.pow 10 15 then (if x < 0.0 then "-" else "") ++ toString n
    else Layout.shown.render x
  | none => Layout.shown.render x

end ScriptMachine
