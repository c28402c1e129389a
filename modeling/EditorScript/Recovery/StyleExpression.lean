import EditorScript.Model.Element
import EditorScript.Number.Reading
import EditorScript.Pattern.Combinators
import EditorScript.Source.Literal

/-!
# Style expressions

The last argument of many calls is a style: a name, a string literal, or a new
style made from one of these with a list of changes in braces.
-/

namespace EditorScript

open Pattern

/-- What a style expression starts with. -/
def styleStarts : List Text := ["new GUIStyle", "EditorStyles.", "GUI.skin.", "\""]

/-- Whether the text is a style expression. -/
def isStyleExpression (text : Text) : Bool :=
  styleStarts.any text.trim.startsWith

/-- A new style with its base and its changes. -/
def newStyle : Pattern :=
  start ++ "new" ++ blanks1 ++ "GUIStyle" ++ blanks ++ "(" ++ blanks ++
    capture "base" (few1 inLine) ++ blanks ++ ")" ++ blanks ++
    "\x7b" ++ capture "changes" (many inLine) ++ "\x7d" ++ finish

/-- An assignment inside the braces of a new style. -/
def assignment (name : String) : Pattern :=
  name ++ blanks ++ "=" ++ blanks

def fontSizeChange : Pattern :=
  assignment "fontSize" ++ capture "size" digits

def fontStyleChange : Pattern :=
  assignment "fontStyle" ++ "FontStyle." ++ capture "style" word

def alignmentChange : Pattern :=
  assignment "alignment" ++ "TextAnchor." ++ few (one isWord) ++
    capture "side" (firstOf ["Left", "Center", "Right"]) ++ boundary

/-- The fields with what a style expression says about them, where `usual` is the
base that says nothing.  Nothing when the text is no style expression; an empty
text changes nothing. -/
def ElementFields.withStyle? (fields : ElementFields) (expression usual : Text) :
    Option ElementFields :=
  let expression := expression.trim
  if !isStyleExpression expression then none
  else
    let (base, changes) := match newStyle.match? expression with
      | some found => (found.captured "base", found.captured "changes")
      | none => (expression, [])
    let base := base.trim
    let size := (fontSizeChange.search? changes).map fun found =>
      (decimalValue (found.captured "size") : Int)
    let style := (fontStyleChange.search? changes).bind fun found =>
      Named.ofName? (found.captured "style")
    let side := (alignmentChange.search? changes).bind fun found =>
      Named.ofName? (found.captured "side")
    some { fields with
      boxStyle := (if base = usual then none else literalText? base).or fields.boxStyle
      fontSize := size.or fields.fontSize
      fontStyle := style.or fields.fontStyle
      alignment := side.or fields.alignment }

/-- The fields with an optional style expression applied. -/
def ElementFields.applyStyle? (fields : ElementFields) (expression : Option Text) (usual : Text) :
    Option ElementFields :=
  match expression with
  | none | some [] => some fields
  | some text => fields.withStyle? text usual

end EditorScript
