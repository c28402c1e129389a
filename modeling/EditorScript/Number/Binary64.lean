/-!
# Double-precision numbers

A number of 64 bits by its sign, its exponent field and its fraction field.  A
finite one stands for an integer times a power of two, so whole-number
arithmetic decides everything about it.

* `ofRatio` rounds a fraction to the nearest number, a tie to the even one.
* `ofDecimal` reads digits with a power of ten, `toInt?` cuts off the part
  behind the point, and `less` is the order of the numbers.
-/

namespace EditorScript

/-- Number of fractions that a field of 52 bits can hold. -/
abbrev fractionCount : Nat := 4503599627370496

/-- A double-precision number. -/
structure Binary64 where
  negative : Bool
  exponent : Fin 2048
  fraction : Fin fractionCount
deriving DecidableEq, Repr

namespace Binary64

/-- The number whose exponent and fraction fields, read as one number, are
`code`; everything from the code of infinity on is infinity. -/
def ofCode (negative : Bool) (code : Nat) : Binary64 :=
  let code := min code (2047 * fractionCount)
  ⟨negative, Fin.ofNat 2048 (code / fractionCount), Fin.ofNat fractionCount code⟩

/-- The exponent and fraction fields as one number.  It grows with the size of
the number. -/
def code (x : Binary64) : Nat :=
  x.exponent * fractionCount + x.fraction

def isFinite (x : Binary64) : Bool :=
  x.exponent.val < 2047

def isInfinite (x : Binary64) : Bool :=
  x.exponent.val == 2047 && x.fraction.val == 0

def isNaN (x : Binary64) : Bool :=
  x.exponent.val == 2047 && x.fraction.val != 0

def infinity (negative : Bool) : Binary64 := ofCode negative (2047 * fractionCount)

def nan : Binary64 := ⟨false, 2047, Fin.ofNat fractionCount (fractionCount / 2)⟩

/-- The whole number that a power of two turns into the size of a finite number. -/
def significand (x : Binary64) : Nat :=
  if x.exponent.val = 0 then x.fraction else fractionCount + x.fraction

/-- The size of a finite number as numerator and denominator. -/
def magnitude (x : Binary64) : Nat × Nat :=
  let shift := max x.exponent.val 1
  if shift ≥ 1075 then (x.significand * Nat.pow 2 (shift - 1075), 1)
  else (x.significand, Nat.pow 2 (1075 - shift))

/-- The quotient rounded to the nearest whole number, a tie to the even one. -/
def roundedDiv (numerator denominator : Nat) : Nat :=
  let quotient := numerator / denominator
  let doubled := 2 * (numerator % denominator)
  if doubled > denominator ∨ (doubled = denominator ∧ quotient % 2 = 1) then quotient + 1
  else quotient

/-- The largest `e` with `2 ^ e ≤ numerator / denominator`, moved up by 1074 and
down by the 52 places of the fraction; zero for the numbers below the normal ones. -/
def scaleOf (numerator denominator : Nat) : Nat :=
  let upper := numerator.log2 + 1074
  let guess := upper - denominator.log2
  let reached : Bool :=
    if upper ≥ denominator.log2 then
      if guess ≥ 1074 then numerator ≥ denominator * Nat.pow 2 (guess - 1074)
      else numerator * Nat.pow 2 (1074 - guess) ≥ denominator
    else false
  (if reached then guess else guess - 1) - 52

/-- The number nearest to `numerator / denominator`, a tie to the one with the
even fraction field. -/
def ofRatio (negative : Bool) (numerator denominator : Nat) : Binary64 :=
  if numerator = 0 ∨ denominator = 0 then ofCode negative 0
  else
    let scale := scaleOf numerator denominator
    let rounded :=
      if scale ≥ 1074 then roundedDiv numerator (denominator * Nat.pow 2 (scale - 1074))
      else roundedDiv (numerator * Nat.pow 2 (1074 - scale)) denominator
    ofCode negative (scale * fractionCount + rounded)

/-- The number nearest to a whole one. -/
def ofInt (value : Int) : Binary64 :=
  ofRatio (value < 0) value.natAbs 1

/-- Number of decimal digits. -/
def digitCount (n : Nat) : Nat :=
  (Nat.toDigits 10 n).length

/-- The number nearest to `digits * 10 ^ exponent`.  Beyond three hundred and
thirty places on either side of the point the size alone decides. -/
def ofDecimal (negative : Bool) (digits : Nat) (exponent : Int) : Binary64 :=
  let places : Int := digitCount digits + exponent
  if digits = 0 ∨ places < -330 then ofCode negative 0
  else if places > 330 then infinity negative
  else if exponent ≥ 0 then ofRatio negative (digits * Nat.pow 10 exponent.toNat) 1
  else ofRatio negative digits (Nat.pow 10 (-exponent).toNat)

/-- The same number with the positive sign. -/
def abs (x : Binary64) : Binary64 := { x with negative := false }

/-- Whether the number is finite and whole. -/
def isWhole (x : Binary64) : Bool :=
  x.isFinite && x.magnitude.1 % x.magnitude.2 == 0

/-- The number without the part behind its point; nothing unless it is finite. -/
def toInt? (x : Binary64) : Option Int :=
  if x.isFinite then
    let size : Int := (x.magnitude.1 / x.magnitude.2 : Nat)
    some (if x.negative then -size else size)
  else none

/-- A whole number with the order of the numbers that are not a NaN. -/
def rank (x : Binary64) : Int :=
  if x.negative then -(x.code : Int) else x.code

/-- The order of the numbers; a NaN is neither below nor above any. -/
def less (x y : Binary64) : Bool :=
  !x.isNaN && !y.isNaN && x.rank < y.rank

theorem ofCode_code (x : Binary64) (h : x.code ≤ 2047 * fractionCount) :
    ofCode x.negative x.code = x := by
  obtain ⟨negative, exponent, fraction⟩ := x
  have hf := fraction.isLt
  have he := exponent.isLt
  simp only [code] at h
  simp only [ofCode, code, Nat.min_eq_left h, mk.injEq, true_and, Fin.ext_iff, Fin.val_ofNat]
  simp only [fractionCount] at *
  omega

end Binary64

end EditorScript
