import EditorScript.Json.Value
import EditorScript.Number.Layout

/-!
# Writing JSON

Saved values are spread over lines, one entry each, with a fixed number of
blanks per level.  Only quotes, backslashes and control characters are escaped.
-/

namespace EditorScript

namespace Json

/-- A lower-case hexadecimal digit. -/
def hexDigit (n : Nat) : Char := Nat.digitChar n

/-- One character inside a string. -/
def escaped (c : Char) : Text :=
  if c = '"' then ['\\', '"']
  else if c = '\\' then ['\\', '\\']
  else if c = '\x08' then ['\\', 'b']
  else if c = '\x0c' then ['\\', 'f']
  else if c = '\n' then ['\\', 'n']
  else if c = '\r' then ['\\', 'r']
  else if c = '\t' then ['\\', 't']
  else if c.toNat < 0x20 then
    ['\\', 'u', '0', '0', hexDigit (c.toNat / 16), hexDigit (c.toNat % 16)]
  else [c]

/-- A string with its quotes. -/
def stringText (content : Text) : Text :=
  '"' :: content.flatMap escaped ++ ['"']

/-- The start of a new line at a depth. -/
def newline (indent depth : Nat) : Text :=
  '\n' :: List.replicate (indent * depth) ' '

mutual

/-- A value whose first line stands at the given depth. -/
def textAt (indent depth : Nat) : Json → Text
  | null => "null"
  | bool true => "true"
  | bool false => "false"
  | int value => intText value
  | number value => if value.isFinite then savedLayout.text value else "null"
  | string content => stringText content
  | array [] => "[]"
  | array (item :: items) =>
    "[" ++ itemsText indent (depth + 1) (item :: items) ++ newline indent depth ++ "]"
  | object [] => "\x7b\x7d"
  | object (entry :: entries) =>
    "\x7b" ++ entriesText indent (depth + 1) (entry :: entries) ++ newline indent depth ++ "\x7d"

/-- The items of an array, each one on its own line. -/
def itemsText (indent depth : Nat) : List Json → Text
  | [] => []
  | item :: items =>
    newline indent depth ++ textAt indent depth item ++
      (if items.isEmpty then [] else [',']) ++ itemsText indent depth items

/-- The entries of an object, each one on its own line. -/
def entriesText (indent depth : Nat) : List (Text × Json) → Text
  | [] => []
  | (key, value) :: entries =>
    newline indent depth ++ stringText key ++ ": " ++ textAt indent depth value ++
      (if entries.isEmpty then [] else [',']) ++ entriesText indent depth entries

end

/-- The text of a value with `indent` blanks per level. -/
def pretty (indent : Nat) (value : Json) : Text :=
  textAt indent 0 value

end Json

end EditorScript
