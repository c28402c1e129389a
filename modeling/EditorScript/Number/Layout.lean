import EditorScript.Number.Shortest
import EditorScript.Text.Basic

/-!
# Number text

How a number is laid out as text: with a point between its digits or with an
exponent.  Generated code and saved projects share the digits and differ in
where exponents start and how they are written.
-/

namespace EditorScript

/-- The conventions of one kind of text. -/
structure NumberLayout where
  /-- The lowest power of ten of a first digit that is written without exponent. -/
  lowest : Int
  /-- The least number of digits in an exponent. -/
  exponentWidth : Nat

/-- Generated code turns to exponents below one ten-thousandth and gives them at
least two digits. -/
def codeLayout : NumberLayout := ⟨-4, 2⟩

/-- Saved projects turn to exponents one place later and do not pad them. -/
def savedLayout : NumberLayout := ⟨-5, 1⟩

/-- The decimal digits of a number. -/
def natText (n : Nat) : Text := Nat.toDigits 10 n

/-- A whole number with a minus sign in front when it is negative. -/
def intText (n : Int) : Text :=
  if n < 0 then '-' :: natText n.natAbs else natText n.natAbs

/-- Digits with zeros in front up to a width. -/
def padded (width : Nat) (digits : Text) : Text :=
  List.replicate (width - digits.length) '0' ++ digits

namespace NumberLayout

/-- A positive decimal as text.  Powers of ten from the sixteenth on are written
with an exponent. -/
def decimal (layout : NumberLayout) (d : Decimal) : Text :=
  let digits := natText d.digits
  let power := d.leading
  if layout.lowest ≤ power ∧ power < 16 then
    if power < 0 then "0." ++ List.replicate (-power - 1).toNat '0' ++ digits
    else
      let whole := power.toNat + 1
      let behind := digits.drop whole
      digits.take whole ++ List.replicate (whole - digits.length) '0' ++
        '.' :: (if behind.isEmpty then ['0'] else behind)
  else
    let behind := digits.drop 1
    digits.take 1 ++ (if behind.isEmpty then [] else '.' :: behind) ++
      (if power < 0 then "e-" else "e+") ++ padded layout.exponentWidth (natText power.natAbs)

/-- A number as text. -/
def text (layout : NumberLayout) (x : Binary64) : Text :=
  if x.isNaN then "nan"
  else
    (if x.negative then ['-'] else []) ++
      if x.isInfinite then ['i', 'n', 'f']
      else if x.significand = 0 then ['0', '.', '0']
      else layout.decimal x.shortest

end NumberLayout

/-- A number as generated code shows it: whole numbers in full without a point. -/
def numberText (x : Binary64) : Text :=
  match x.isWhole, x.toInt? with
  | true, some value => intText value
  | _, _ => codeLayout.text x

end EditorScript
