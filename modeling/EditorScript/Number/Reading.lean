import EditorScript.Number.Shortest
import EditorScript.Text.Basic

/-!
# Reading numbers

Numbers are read from decimal text with an optional sign, point and exponent.
The readers differ in what they allow around and between the digits.
-/

namespace EditorScript

/-- The value of ASCII digits. -/
def digitsValue (digits : Text) : Nat :=
  digits.foldl (fun value c => 10 * value + (c.toNat - '0'.toNat)) 0

/-- The value of a hexadecimal digit. -/
def hexValue? (c : Char) : Option Nat :=
  if c.isDigit then some (c.toNat - '0'.toNat)
  else if 'a' ≤ c ∧ c ≤ 'f' then some (c.toNat - 'a'.toNat + 10)
  else if 'A' ≤ c ∧ c ≤ 'F' then some (c.toNat - 'A'.toNat + 10)
  else none

/-- A sign in front of a text: whether it is a minus, and the rest. -/
def splitSign : Text → Bool × Text
  | '-' :: rest => (true, rest)
  | '+' :: rest => (false, rest)
  | text => (false, text)

/-- A whole number in ASCII digits with an optional sign. -/
def readInt? (text : Text) : Option Int :=
  let (negative, digits) := splitSign text
  if digits.isEmpty || !digits.all Char.isDigit then none
  else some (if negative then -(digitsValue digits : Int) else digitsValue digits)

/-- The most digits that a whole number is read from. -/
def maxDigits : Nat := 4300

/-- A whole number in ASCII digits, perhaps behind a minus, without needless zeros
in front. -/
def readPlainInt? (text : Text) : Option Int :=
  let digits := match text with
    | '-' :: rest => rest
    | _ => text
  if digits.length > maxDigits ∨ (digits.length > 1 ∧ digits.head? = some '0')
      ∨ text.head? = some '+' then none
  else readInt? text

/-- The exponent at the end of a number: nothing, or `e` and a whole number. -/
def readExponent? : Text → Option Int
  | [] => some 0
  | c :: rest => if c = 'e' ∨ c = 'E' then readInt? rest else none

/-- Digits with an optional sign, point and exponent; at least one digit stands
before the exponent. -/
def readDecimal? (text : Text) : Option Binary64 :=
  let (negative, unsigned) := splitSign text
  let whole := unsigned.takeWhile Char.isDigit
  let rest := unsigned.dropWhile Char.isDigit
  let behindPoint := match rest with
    | '.' :: others => others
    | _ => []
  let fraction := behindPoint.takeWhile Char.isDigit
  let tail := match rest with
    | '.' :: _ => behindPoint.dropWhile Char.isDigit
    | _ => rest
  if whole.isEmpty && fraction.isEmpty then none
  else (readExponent? tail).map fun exponent =>
    .ofDecimal negative (digitsValue (whole ++ fraction)) (exponent - fraction.length)

/-- The names of the numbers without digits, in any letter case. -/
def readSpecial? (text : Text) : Option Binary64 :=
  let (negative, unsigned) := splitSign text
  let lower := unsigned.map Char.toLower
  if lower = "inf".toList ∨ lower = "infinity".toList then some (.infinity negative)
  else if lower = "nan".toList then some .nan
  else none

/-- A number with digits or with a name. -/
def readNumber? (text : Text) : Option Binary64 :=
  (readDecimal? text).or (readSpecial? text)

/-- The text without underscores, provided that each one stands between digits;
`afterDigit` tells whether a digit stands in front. -/
def joinDigitGroups? (afterDigit : Bool) : Text → Option Text
  | [] => some []
  | '_' :: c :: rest =>
    if afterDigit ∧ c.isDigit then (joinDigitGroups? true rest).map (c :: ·) else none
  | c :: rest =>
    if c = '_' then none else (joinDigitGroups? c.isDigit rest).map (c :: ·)

/-- White space around numbers: all of it but the separator controls. -/
def isNumberBlank (c : Char) : Bool :=
  isBlank c && !inRanges [(0x1c, 0x1f)] c.toNat

/-- The text without the white space around a number. -/
def unpadded (text : Text) : Text :=
  Text.dropRightWhile isNumberBlank (text.dropWhile isNumberBlank)

/-- The text with decimal digits of any script as ASCII digits. -/
def asciiDigits (text : Text) : Text :=
  text.map fun c => (digitValue? c).elim c Nat.digitChar

/-- The digits of a number without surroundings: white space around it and
underscores between digits drop out, digits of any script become ASCII. -/
def bareNumber? (text : Text) : Option Text :=
  joinDigitGroups? false (asciiDigits (unpadded text))

/-- A number, digits of any script and underscores between digits allowed. -/
def readLooseNumber? (text : Text) : Option Binary64 :=
  (bareNumber? text).bind readNumber?

/-- A whole number, digits of any script and underscores between digits allowed.
Zeros in front count among its digits. -/
def readLooseInt? (text : Text) : Option Int :=
  (bareNumber? text).bind fun text =>
    if (splitSign text).2.length > maxDigits then none else readInt? text

/-- The value of decimal digits of any script. -/
def decimalValue (digits : Text) : Nat :=
  digitsValue (asciiDigits digits)

/-- A whole number has no sign when it is zero. -/
def Binary64.withoutZeroSign (x : Binary64) : Binary64 :=
  if x.code = 0 then { x with negative := false } else x

/-- The value of a numeric literal of C# such as `0.5f` or `100`, letters of the
literal's type cut off. -/
def readLiteralNumber? (text : Text) : Option Binary64 :=
  (readLooseNumber? (Text.dropRightWhile ("fFdDmM".toList.contains ·) text.trim)).map
    Binary64.withoutZeroSign

end EditorScript
