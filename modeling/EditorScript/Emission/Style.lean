import EditorScript.Model.Element
import EditorScript.Number.Layout
import EditorScript.Source.Quoted

/-!
# Writing styles

The style argument of a call: nothing for an element with the usual look, the
name of a style, or a new style with the changes in braces.
-/

namespace EditorScript

/-- Widgets whose elements can have a style of their own. -/
def Widget.isStyleable : Widget → Bool
  | .box | .label | .header | .button | .textField | .textArea => true
  | _ => false

/-- The anchor of aligned text. -/
def Alignment.anchor : Alignment → Text
  | .left => "MiddleLeft"
  | .center => "MiddleCenter"
  | .right => "MiddleRight"

/-- A text that is set and not empty. -/
def present? (text : Option Text) : Option Text :=
  text.filter (!·.isEmpty)

namespace ElementFields

/-- The changes that a new style of the element makes. -/
def styleChanges (fields : ElementFields) : List Text :=
  (match fields.fontSize with
    | some size => if size = 0 then [] else [("fontSize = " : Text) ++ intText size]
    | none => []) ++
  (match fields.fontStyle with
    | some .normal | none => []
    | some style => [("fontStyle = FontStyle." : Text) ++ Named.name style]) ++
  (match fields.alignment with
    | some side => [("alignment = TextAnchor." : Text) ++ side.anchor]
    | none => [])

/-- The style argument of the element's call, `usual` being the style that calls
of its widget have; nothing when the element looks as usual. -/
def style? (fields : ElementFields) (usual : Text) : Option Text :=
  if fields.widget.isStyleable then
    let named := (present? fields.boxStyle).map quote
    match fields.styleChanges with
    | [] => named
    | changes =>
      some ("new GUIStyle(" ++ named.getD usual ++ ") \x7b " ++ Text.join ", " changes ++ " \x7d")
  else none

end ElementFields

end EditorScript
