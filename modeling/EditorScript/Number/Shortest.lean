import EditorScript.Number.Binary64

/-!
# Shortest decimal form

Every finite number is the only one that reads back from some decimal of at most
seventeen digits.  Among the decimals that read back, the shortest counts, and
among those the nearest.
-/

namespace EditorScript

/-- Decimal digits and the power of ten of the last one. -/
structure Decimal where
  digits : Nat
  exponent : Int
deriving DecidableEq, Repr

namespace Decimal

/-- The power of ten of the first digit. -/
def leading (d : Decimal) : Int :=
  d.exponent + Binary64.digitCount d.digits - 1

/-- The same value without zeros at the end of the digits; `fuel` bounds how
many are dropped. -/
def dropZeros : Nat → Decimal → Decimal
  | 0, d => d
  | fuel + 1, d =>
    if d.digits ≠ 0 ∧ d.digits % 10 = 0 then dropZeros fuel ⟨d.digits / 10, d.exponent + 1⟩
    else d

end Decimal

namespace Binary64

/-- The power of ten of the first digit of a positive fraction. -/
def leadingPower (numerator denominator : Nat) : Int :=
  if numerator ≥ denominator then digitCount (numerator / denominator) - 1
  else
    let places := digitCount (denominator / numerator)
    if numerator * Nat.pow 10 (places - 1) ≥ denominator then -((places : Int) - 1)
    else -(places : Int)

/-- The decimals of `count` digits next to a positive number that read back as
it, the nearer one first. -/
def readableAt (x : Binary64) (count : Nat) : Option Decimal :=
  let (numerator, denominator) := x.magnitude
  let unit := leadingPower numerator denominator - (count - 1 : Nat)
  let scaled := if unit ≥ 0 then numerator else numerator * Nat.pow 10 (-unit).toNat
  let whole := if unit ≥ 0 then denominator * Nat.pow 10 unit.toNat else denominator
  let below : Decimal := ⟨scaled / whole, unit⟩
  let above : Decimal := ⟨scaled / whole + 1, unit⟩
  let nearestFirst :=
    if roundedDiv scaled whole = below.digits then [below, above] else [above, below]
  nearestFirst.find? fun d => ofDecimal false d.digits d.exponent = x.abs

/-- The shortest decimal of a positive finite number that reads back as it. -/
def shortest (x : Binary64) : Decimal :=
  let found := (List.range 17).findSome? fun more => x.readableAt (more + 1)
  (found.getD ⟨0, 0⟩).dropZeros 20

end Binary64

end EditorScript
