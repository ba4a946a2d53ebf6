import ScriptMachine.Number.Binary64

namespace ScriptMachine

/-- Which way an exact half goes. -/
inductive Tie where
  | toEven
  | up
  deriving DecidableEq

structure Decimal where
  digits : Nat
  exponent : Int
  deriving DecidableEq

namespace Decimal

/-- Drops trailing zeros, at most `n` of them. -/
def trim : Nat → Decimal → Decimal
  | 0, d => d
  | n + 1, d => if d.digits % 10 = 0 then trim n ⟨d.digits / 10, d.exponent + 1⟩ else d

def text (d : Decimal) : List Char :=
  Nat.toDigits 10 d.digits

/-- Where the decimal point stands, counted from the first digit. -/
def point (d : Decimal) : Int :=
  d.text.length + d.exponent

end Decimal

/-- Whether `m * 2 ^ q` is below `10 ^ p`. -/
def belowPower (m : Nat) (q p : Int) : Bool :=
  m * Nat.pow 2 q.toNat * Nat.pow 10 (-p).toNat < Nat.pow 10 p.toNat * Nat.pow 2 (-q).toNat

/-- How many places before the decimal point `m * 2 ^ q` has: `10 ^ (p - 1) ≤ m * 2 ^ q < 10 ^ p`. -/
def decimalPlaces (m : Nat) (q : Int) : Int :=
  -- a binary digit is about 1233 / 4096 of a decimal digit
  let e := (m.log2 + q) * 1233 / 4096
  if belowPower m q e then e else if belowPower m q (e + 1) then e + 1 else e + 2

/-- The multiples of `10 ^ s` next to `m * 2 ^ q`, when one of them reads back as that number. -/
def onGrid (tie : Tie) (m : Nat) (q s : Int) : Option Nat :=
  -- the number and the ends of its rounding interval, in units of `2 ^ (q - 2) / a = 10 ^ s / b`
  let a := Nat.pow 2 (q - 2).toNat * Nat.pow 10 (-s).toNat
  let b := Nat.pow 10 s.toNat * Nat.pow 2 (2 - q).toNat
  let below := if m = Nat.pow 2 52 ∧ -1074 < q then 1 else 2
  let value := 4 * m * a
  let low := (4 * m - below) * a
  let high := (4 * m + 2) * a
  let closed := m % 2 == 0
  let inside (d : Nat) : Bool :=
    (low < d * b ∨ (closed ∧ low = d * b)) ∧ (d * b < high ∨ (closed ∧ d * b = high))
  let d := value / b
  match inside d, inside (d + 1) with
  | true, true =>
    let down := value - d * b
    let up := (d + 1) * b - value
    if down < up then some d
    else if up < down then some (d + 1)
    else
      match tie with
      | .toEven => some (if d % 2 = 0 then d else d + 1)
      | .up => some (d + 1)
  | true, false => some d
  | false, true => some (d + 1)
  | false, false => none

/-- Tries grids of one digit more each time; seventeen digits always suffice. -/
def searchGrids (tie : Tie) (m : Nat) (q p : Int) : Nat → Nat → Decimal
  | 0, _ => ⟨m, 0⟩
  | n + 1, k =>
    match onGrid tie m q (p - k) with
    | some d => (Decimal.mk d (p - k)).trim 17
    | none => searchGrids tie m q p n (k + 1)

/-- The shortest decimal that reads back as the positive number `m * 2 ^ q`. -/
def shortest (tie : Tie) (m : Nat) (q : Int) : Decimal :=
  searchGrids tie m q (decimalPlaces m q) 17 1

end ScriptMachine
