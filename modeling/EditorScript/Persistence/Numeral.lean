import EditorScript.Number.Reading

/-!
# Numbers inside strings

A saved number may stand in a string.  White space around it does not count, and
underscores may part its digits.

* `number?` reads a number: as it stands, or else without underscores; white
  space and underscores do not go together.
* `whole?` reads a whole number: zeros in front of it and a fraction of zeros
  behind it do not count.
-/

namespace EditorScript

namespace Numeral

/-- The text without its underscores.  None may stand at an end or beside
another one. -/
def withoutUnderscores? (text : Text) : Option Text :=
  if text.head? = some '_' || text.getLast? = some '_' || text.includes "__" then none
  else some (text.filter (· != '_'))

/-- A number with digits or with a name. -/
def number? (text : Text) : Option Binary64 :=
  (readNumber? (unpadded text)).or ((withoutUnderscores? text).bind readNumber?)

/-- What is left of a number that starts with zeros, of which `last` is the one
read last.  Underscores between zeros drop out with them; the last zero stays
when a point or nothing follows. -/
def behindZeros? (last : Char) : Text → Option Text
  | [] => some [last]
  | c :: rest =>
    if c = '0' ∨ c = '_' then behindZeros? c rest
    else if c = '.' then some (last :: c :: rest)
    else if c.isDigit ∨ c = '-' then some (c :: rest)
    else none

/-- A number that starts with a digit, without needless zeros in front. -/
def withoutZeros? : Text → Option Text
  | [] => none
  | c :: rest =>
    if c = '0' then behindZeros? c rest
    else if c.isDigit then some (c :: rest)
    else none

/-- What stands in front of a fraction of zeros; the whole text when there is no
such fraction. -/
def wholePart (text : Text) : Text :=
  let fraction := (text.dropWhile (· != '.')).drop 1
  if !fraction.isEmpty && fraction.all (· == '0') then text.takeWhile (· != '.') else text

/-- A whole number.  A sign may stand in front, or a minus behind leading zeros. -/
def whole? (text : Text) : Option Int := do
  let (negative, unsigned) := splitSign (unpadded text)
  let digits ← withoutUnderscores? (wholePart (← withoutZeros? unsigned))
  let value ← readPlainInt? digits
  if negative then
    if digits.head? = some '-' then none else some (-value)
  else some value

/-- Each of the two ways to leave digits out is read. -/
theorem whole?_examples :
    whole? " 1_000.0 " = some 1000 ∧ whole? "-0__5" = some (-5) ∧ whole? "5." = none := by
  decide

end Numeral

end EditorScript
