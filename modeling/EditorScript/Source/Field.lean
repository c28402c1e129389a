import EditorScript.Pattern.Combinators

/-!
# Field declarations

The type and the name that a field declaration introduces.
-/

namespace EditorScript

open Pattern

/-- A declared variable: its type without white space and its name. -/
structure FieldHead where
  type : Text
  name : Text
deriving DecidableEq, Repr

/-- Attributes in brackets in front of a declaration. -/
def leadingAttributes : Pattern :=
  start ++ many ("[" ++ many (noneOf "]") ++ "]" ++ blanks)

/-- Words that may stand in front of a field's type. -/
def fieldModifiers : Pattern :=
  start ++ many (firstOf ["public", "private", "protected", "internal", "static",
    "readonly", "const", "volatile", "new"] ++ blanks1)

/-- Type, name and then the start of an initializer or the end. -/
def fieldHead : Pattern :=
  start ++ capture "type" (few1 any) ++ blanks1 ++ capture "name" word ++ blanks ++
    either ("=" ++ check fun _ after => !(after.head?.any fun c => c == '=' || c == '>')) ";"

/-- The text behind a match at its start. -/
def Pattern.dropMatch (pattern : Pattern) (text : Text) : Text :=
  (pattern.match? text).elim text (·.after)

/-- Whether a trimmed line is a comment or a preprocessor directive. -/
def isRemark (line : Text) : Bool :=
  line.startsWith "//" || line.startsWith "/*" || line.startsWith "*" || line.startsWith "#"

/-- Type and name of a field declaration; nothing when the text has another
shape.  Attributes, comments and preprocessor lines do not count. -/
def fieldHead? (declaration : Text) : Option FieldHead :=
  let pieces := (declaration.lines.map Text.trim).filter fun line =>
    !line.isEmpty && !isRemark line
  let code := fieldModifiers.dropMatch (leadingAttributes.dropMatch (Text.join " " pieces))
  (fieldHead.match? code).bind fun found =>
    let type := (found.captured "type").filter (!isBlank ·)
    if type.any ("{}()=;".toList.contains ·) then none
    else some ⟨type, found.captured "name"⟩

end EditorScript
