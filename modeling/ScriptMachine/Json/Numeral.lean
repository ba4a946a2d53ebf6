import ScriptMachine.Number.Layout

namespace ScriptMachine

structure Numeral where
  negative : Bool := false
  whole : List Char
  fraction : Option (List Char) := none
  /-- Mark of the sign, if there is one, and digits. -/
  exponent : Option (Option Char × List Char) := none
  deriving DecidableEq, Inhabited

inductive JsonNumber where
  | nat (n : Nat)
  /-- The integer `-n`. -/
  | minus (n : Nat)
  | float (x : Float)
  deriving Inhabited

namespace Numeral

def isDigit (c : Char) : Bool :=
  '0' ≤ c && c ≤ '9'

def digitValue (c : Char) : Nat :=
  c.toNat - '0'.toNat

/-- A run of digits, which may not be empty. -/
def digits? (cs : List Char) : Option (List Char × List Char) :=
  match cs.takeWhile isDigit with
  | [] => none
  | ds => some (ds, cs.dropWhile isDigit)

def readFraction : List Char → Option (Option (List Char) × List Char)
  | '.' :: rest => (digits? rest).map fun (ds, rest) => (some ds, rest)
  | cs => some (none, cs)

def readExponent : List Char → Option (Option (Option Char × List Char) × List Char)
  | 'e' :: rest | 'E' :: rest =>
    match rest with
    | '+' :: rest => (digits? rest).map fun (ds, rest) => (some (some '+', ds), rest)
    | '-' :: rest => (digits? rest).map fun (ds, rest) => (some (some '-', ds), rest)
    | rest => (digits? rest).map fun (ds, rest) => (some (none, ds), rest)
  | cs => some (none, cs)

/-- A literal without its sign. A leading zero stands alone. -/
def readUnsigned (negative : Bool) (cs : List Char) : Option (Numeral × List Char) := do
  let (whole, cs) ← digits? cs
  match whole with
  | '0' :: _ :: _ => none
  | _ =>
    let (fraction, cs) ← readFraction cs
    let (exponent, cs) ← readExponent cs
    return ({ negative, whole, fraction, exponent }, cs)

def read : List Char → Option (Numeral × List Char)
  | '-' :: cs => readUnsigned true cs
  | cs => readUnsigned false cs

def chars (n : Numeral) : List Char :=
  (if n.negative then ['-'] else []) ++ n.whole ++
    n.fraction.elim [] ('.' :: ·) ++
    n.exponent.elim [] fun (sign, ds) => 'e' :: sign.toList ++ ds

def zero : Numeral where
  whole := ['0']

def ofNat (n : Nat) : Numeral where
  whole := Nat.toDigits 10 n

/-- The literal that a finite number is written as. -/
def ofFloat (x : Float) : Numeral :=
  (read (Layout.json.render x).toList).elim zero Prod.fst

/-- Appends digits while the result is at most `limit`; also returns the digits left over. -/
def gather (limit : Nat) (n : Nat) : List Char → Nat × List Char
  | [] => (n, [])
  | d :: ds =>
    let n' := n * 10 + digitValue d
    if n' ≤ limit then gather limit n' ds else (n, d :: ds)

def powerOfTen (k : Nat) : Float :=
  Float.ofScientific 1 false k

/-- Largest decimal exponent of a number. -/
def maxExponent : Nat := 308

/-- `f / 10 ^ k`, in steps of at most `10 ^ 308`. -/
def scaleDown (f : Float) (k : Nat) : Float :=
  if k ≤ maxExponent then f / powerOfTen k
  else if f == 0.0 then f
  else scaleDown (f / powerOfTen maxExponent) (k - maxExponent)
termination_by k
decreasing_by
  rename_i above _
  have : 0 < maxExponent := by decide
  omega

/-- `significand * 10 ^ e`; none when that is out of range. -/
def scale (significand : Nat) (e : Int) : Option Float :=
  let f := Float.ofNat significand
  match e with
  | .ofNat k =>
    if k ≤ maxExponent then
      let x := f * powerOfTen k
      if x.isInf then none else some x
    else if f == 0.0 then some f
    else none
  | .negSucc k => some (scaleDown f (k + 1))

def signed (n : Numeral) (x : Float) : Float :=
  if n.negative then -x else x

def exponentLimit : Nat := Nat.pow 2 31 - 1

def isIntegral (n : Numeral) : Bool :=
  n.fraction.isNone && n.exponent.isNone

/-- The digits as one word and its power of ten, the exponent apart. -/
def significand (n : Numeral) : Nat × Int :=
  let (w, beyond) := gather maxWord 0 n.whole
  let ds := n.fraction.getD []
  let (w, unread) := gather maxWord w ds
  (w, (beyond.length : Int) - ((ds.length : Int) - unread.length))

/-- A number with a fraction, an exponent or too many digits. -/
def float? (n : Numeral) : Option Float :=
  let (w, places) := n.significand
  match n.exponent with
  | none => (scale w places).map n.signed
  | some (sign, ds) =>
    let (e, unread) := gather exponentLimit 0 ds
    let down := sign == some '-'
    if unread.isEmpty then
      (scale w (if down then places - e else places + e)).map n.signed
    else if w != 0 && !down then none
    else some (n.signed 0.0)

def value? (n : Numeral) : Option JsonNumber :=
  let (w, beyond) := gather maxWord 0 n.whole
  if n.isIntegral && beyond.isEmpty then
    if !n.negative then some (.nat w)
    else if w = 0 ∨ Nat.pow 2 63 < w then some (.float (-(Float.ofNat w)))
    else some (.minus w)
  else n.float?.map .float

end Numeral

namespace JsonNumber

def toFloat : JsonNumber → Float
  | nat n => Float.ofNat n
  | minus n => -(Float.ofNat n)
  | float x => x

end JsonNumber

end ScriptMachine
