import EditorScript.Pattern.Combinators
import EditorScript.Source.Quoted

/-!
# Literals inside code

The texts that string literals in a piece of code stand for.
-/

namespace EditorScript

open Pattern

/-- The text of a string literal that makes up the whole of a text. -/
def literalText? (text : Text) : Option Text :=
  ((literal "content").matchAll? text).map fun found => unescape (found.captured "content")

/-- The string literals inside a text. -/
def literalTexts (text : Text) : List Text :=
  ((literal "content").findAll text).map fun found => unescape (found.captured "content")

end EditorScript
