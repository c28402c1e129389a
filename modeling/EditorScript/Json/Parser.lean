import EditorScript.Json.Value
import EditorScript.Number.Reading

/-!
# Reading JSON

The strict grammar of JSON text, with names for the numbers that are not finite.
Values nest at most as deep as the text is long, so the readers count down from
that length.  Of several entries with one key the last one counts.
-/

namespace EditorScript

namespace Json

/-- The text behind leading white space of JSON. -/
def skipBlanks (text : Text) : Text :=
  text.dropWhile ([' ', '\t', '\n', '\r'].contains ·)

/-- The value of four hexadecimal digits. -/
def hexUnit? (a b c d : Char) : Option Nat := do
  let a ← hexValue? a
  let b ← hexValue? b
  let c ← hexValue? c
  let d ← hexValue? d
  some (((a * 16 + b) * 16 + c) * 16 + d)

/-- The character that a backslash and one letter stand for. -/
def shortEscape? (c : Char) : Option Char :=
  [('"', '"'), ('\\', '\\'), ('/', '/'), ('b', '\x08'), ('f', '\x0c'), ('n', '\n'),
    ('r', '\r'), ('t', '\t')].lookup c

/-- The content of a string up to its closing quote, and the text behind that.
`high` is the first half of a surrogate pair whose second half has to follow. -/
def stringRest? (high : Option Nat) : Text → Option (Text × Text)
  | [] => none
  | '\\' :: 'u' :: a :: b :: c :: d :: rest => do
    let unit ← hexUnit? a b c d
    match high with
    | some first =>
      if 0xdc00 ≤ unit ∧ unit ≤ 0xdfff then do
        let (content, rest) ← stringRest? none rest
        some (Char.ofNat (0x10000 + (first - 0xd800) * 0x400 + (unit - 0xdc00)) :: content, rest)
      else none
    | none =>
      if 0xd800 ≤ unit ∧ unit ≤ 0xdbff then stringRest? (some unit) rest
      else if 0xdc00 ≤ unit ∧ unit ≤ 0xdfff then none
      else do
        let (content, rest) ← stringRest? none rest
        some (Char.ofNat unit :: content, rest)
  | '\\' :: c :: rest =>
    if high.isSome then none
    else do
      let c ← shortEscape? c
      let (content, rest) ← stringRest? none rest
      some (c :: content, rest)
  | c :: rest =>
    if high.isSome ∨ c = '\\' ∨ c.toNat < 0x20 then none
    else if c = '"' then some ([], rest)
    else do
      let (content, rest) ← stringRest? none rest
      some (c :: content, rest)

/-- The characters that numbers are written with. -/
def isNumberChar (c : Char) : Bool :=
  c.isDigit || c == '-' || c == '+' || c == '.' || c == 'e' || c == 'E'

/-- What a text may go up to: the levels of arrays and objects that hold something,
and the digits of a number in front of its point. -/
structure Limits where
  levels : Nat
  digits : Nat
deriving DecidableEq, Repr

/-- A number of at most `maxDigits` digits in front of its point: no plus sign and
no needless zero in front, digits on both sides of a point. -/
def ofNumberText? (maxDigits : Nat) (text : Text) : Option Json :=
  let unsigned := match text with
    | '-' :: rest => rest
    | _ => text
  let whole := unsigned.takeWhile Char.isDigit
  let rest := unsigned.dropWhile Char.isDigit
  if whole.isEmpty ∨ whole.length > maxDigits ∨ (whole.length > 1 ∧ whole.head? = some '0') then
    none
  else match rest with
    | [] => (readInt? text).map int
    | '.' :: c :: _ => if c.isDigit then (readDecimal? text).map number else none
    | '.' :: [] => none
    | _ => (readDecimal? text).map number

/-- The limits inside an array or an object; none when it is one level too many. -/
def inner? (limits : Limits) : Option Limits :=
  match limits.levels with
  | 0 => none
  | levels + 1 => some { limits with levels }

/-- The names of the numbers that are not finite, with the text behind one. -/
def special? : Text → Option (Binary64 × Text)
  | 'N' :: 'a' :: 'N' :: rest => some (.nan, rest)
  | 'I' :: 'n' :: 'f' :: 'i' :: 'n' :: 'i' :: 't' :: 'y' :: rest => some (.infinity false, rest)
  | '-' :: 'I' :: 'n' :: 'f' :: 'i' :: 'n' :: 'i' :: 't' :: 'y' :: rest =>
    some (.infinity true, rest)
  | _ => none

mutual

/-- A value at the start of a text, and the text behind it. -/
def value? (limits : Limits) : Nat → Text → Option (Json × Text)
  | 0, _ => none
  | fuel + 1, text =>
    match skipBlanks text with
    | [] => none
    | '"' :: rest => (stringRest? none rest).map fun (content, rest) => (string content, rest)
    | '[' :: rest =>
      match skipBlanks rest with
      | ']' :: rest => some (array [], rest)
      | rest => (inner? limits).bind fun limits =>
        (items? limits fuel rest).map fun (items, rest) => (array items, rest)
    | '{' :: rest =>
      match skipBlanks rest with
      | '}' :: rest => some (object [], rest)
      | rest => (inner? limits).bind fun limits =>
        (entries? limits fuel rest).map fun (entries, rest) => (object entries, rest)
    | 'n' :: 'u' :: 'l' :: 'l' :: rest => some (null, rest)
    | 't' :: 'r' :: 'u' :: 'e' :: rest => some (bool true, rest)
    | 'f' :: 'a' :: 'l' :: 's' :: 'e' :: rest => some (bool false, rest)
    | text =>
      match special? text with
      | some (value, rest) => some (number value, rest)
      | none =>
        (ofNumberText? limits.digits (text.takeWhile isNumberChar)).map fun value =>
          (value, text.dropWhile isNumberChar)

/-- The items of an array that is not empty, up to its closing bracket. -/
def items? (limits : Limits) : Nat → Text → Option (List Json × Text)
  | 0, _ => none
  | fuel + 1, text =>
    match value? limits fuel text with
    | none => none
    | some (item, rest) =>
      match skipBlanks rest with
      | ']' :: rest => some ([item], rest)
      | ',' :: rest => (items? limits fuel rest).map fun (items, rest) => (item :: items, rest)
      | _ => none

/-- The entries of an object that is not empty, up to its closing brace. -/
def entries? (limits : Limits) : Nat → Text → Option (List (Text × Json) × Text)
  | 0, _ => none
  | fuel + 1, text =>
    match skipBlanks text with
    | '"' :: rest =>
      match stringRest? none rest with
      | none => none
      | some (key, rest) =>
        match skipBlanks rest with
        | ':' :: rest =>
          match value? limits fuel rest with
          | none => none
          | some (value, rest) =>
            match skipBlanks rest with
            | '}' :: rest => some ([(key, value)], rest)
            | ',' :: rest => (entries? limits fuel rest).map fun (entries, rest) =>
              (if (entries.lookup key).isSome then entries else (key, value) :: entries, rest)
            | _ => none
        | _ => none
    | _ => none

end

/-- The value that a whole text within the limits stands for. -/
def parse? (limits : Limits) (text : Text) : Option Json :=
  match value? limits (text.length + 1) text with
  | none => none
  | some (value, rest) => if (skipBlanks rest).isEmpty then some value else none

/-- The value that a whole text stands for. -/
def ofText? (text : Text) : Option Json :=
  parse? ⟨text.length, text.length⟩ text

end Json

end EditorScript
