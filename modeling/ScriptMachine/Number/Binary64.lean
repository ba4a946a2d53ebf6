namespace ScriptMachine

/-- What the 64 bits of a number say. -/
inductive Shape where
  | nan
  | infinite (negative : Bool)
  /-- The number `± m * 2 ^ q`, with `m < 2 ^ 53` and `-1074 ≤ q`. -/
  | finite (negative : Bool) (m : Nat) (q : Int)
  deriving DecidableEq

namespace Shape

def ofBits (bits : Nat) : Shape :=
  let negative := bits / Nat.pow 2 63 % 2 == 1
  let e : Nat := bits / Nat.pow 2 52 % 2048
  let f : Nat := bits % Nat.pow 2 52
  if e = 2047 then
    if f = 0 then infinite negative else nan
  else if e = 0 then finite negative f (-1074)
  else finite negative (Nat.pow 2 52 + f) ((e : Int) - 1075)

def of (x : Float) : Shape :=
  ofBits x.toBits.toNat

/-- `m * 2 ^ q` when that is a natural number. -/
def integral? (m : Nat) (q : Int) : Option Nat :=
  match q with
  | .ofNat k => some (m * Nat.pow 2 k)
  | .negSucc k => if m % Nat.pow 2 (k + 1) = 0 then some (m / Nat.pow 2 (k + 1)) else none

end Shape

/-- The magnitude of a finite number without a fractional part. -/
def integerMagnitude? (x : Float) : Option Nat :=
  match Shape.of x with
  | .finite _ m q => Shape.integral? m q
  | _ => none

/-- Largest value of a machine word. -/
def maxWord : Nat := UInt64.size - 1

/-- A non-negative whole number as an index; what no word can hold becomes `maxWord`. -/
def index? (x : Float) : Option Nat :=
  match Shape.of x with
  | .finite negative m q =>
    if negative && m != 0 then none else (Shape.integral? m q).map (min maxWord)
  | _ => none

/-- The number `± m * 2 ^ q`, exact for `m < 2 ^ 53` and exponents that a number can have. -/
def ofParts (negative : Bool) (m : Nat) (q : Int) : Float :=
  let shift := min (52 - m.log2) (q + 1074).toNat
  let m' := m * Nat.pow 2 shift
  let e := (q - shift + 1075).toNat
  let body := if m' < Nat.pow 2 52 then m' else e * Nat.pow 2 52 + (m' - Nat.pow 2 52)
  Float.ofBits (UInt64.ofNat ((if negative then Nat.pow 2 63 else 0) + body))

/-- The remainder of the division truncated toward zero; it has the sign of `x` and is exact. -/
def remainder (x y : Float) : Float :=
  match Shape.of x, Shape.of y with
  | .finite negative m q, .finite _ n r =>
    if n = 0 then 0.0 / 0.0
    else
      let e := min q r
      ofParts negative (m * Nat.pow 2 (q - e).toNat % (n * Nat.pow 2 (r - e).toNat)) e
  | .finite .., .infinite _ => x
  | _, _ => 0.0 / 0.0

end ScriptMachine
