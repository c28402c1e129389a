import EditorScript.Recovery.Call
import EditorScript.Model.Catalogue
import EditorScript.Source.Scan

/-!
# Containers between calls

A layout container begins with one call and ends with another.  Calls of the
same pair nest.
-/

namespace EditorScript

open Pattern

/-- A pair of calls around a container.  `opens` and `closes` are looked for in
the lines behind the first call to find the one that ends the container. -/
structure ContainerShape where
  begin : Pattern
  opens : Pattern
  closes : Pattern
  fields? : Position → Option ElementFields

namespace ContainerShape

/-- The two classes that lay out elements. -/
def layoutGui : Pattern := opt "Editor" ++ "GUILayout"

/-- The name of one call of a pair as a whole word. -/
def named (owner : Pattern) (call : String) : Pattern :=
  owner ++ "." ++ call ++ boundary

def beginning (owner : Pattern) (call : String) : Pattern :=
  start ++ owner ++ "." ++ call ++ blanks ++ "("

/-- A pair whose calls are named `Begin…` and `End…`. -/
def ofPair (owner : Pattern) (pair : String) (begin : Pattern)
    (fields? : Position → Option ElementFields) : ContainerShape :=
  ⟨begin, named owner ("Begin" ++ pair), named owner ("End" ++ pair), fields?⟩

/-- A box: a vertical group with a style. -/
def boxFields? (found : Position) : Option ElementFields :=
  let style := found.captured "style"
  if isStyleExpression style then
    ElementFields.withStyle? (CallShape.labelled .box "Box") style "\"box\""
  else none

/-- The pairs in the order in which they are tried. -/
def all : List ContainerShape :=
  [ofPair layoutGui "Horizontal" (beginning layoutGui "BeginHorizontal")
      fun _ => some (CallShape.labelled .horizontalGroup "Horizontal"),
    ofPair layoutGui "Vertical"
      (beginning layoutGui "BeginVertical" ++ blanks ++ capture "style" (few1 inLine) ++ closing)
      boxFields?,
    ofPair layoutGui "Vertical" (beginning layoutGui "BeginVertical")
      fun _ => some (CallShape.labelled .verticalGroup "Vertical"),
    ofPair layoutGui "ScrollView"
      (start ++ opt (word ++ blanks ++ "=" ++ blanks) ++ layoutGui ++ ".BeginScrollView" ++
        blanks ++ "(")
      fun _ => some (CallShape.labelled .scrollView "Scroll View"),
    ofPair "EditorGUI" "DisabledGroup"
      (start ++ "EditorGUI.BeginDisabledGroup" ++ blanks ++ "(" ++
        capture "condition" (many inLine) ++ ")" ++ blanks ++ ";" ++ finish)
      fun found => some { CallShape.labelled .disabledGroup "Disabled Group" with
        disableCondition := some (Text.trim (found.captured "condition")) }]

/-- Number of lines before the one with the call that ends the container, with
`depth` further containers of the same pair still open. -/
def linesToEnd? (shape : ContainerShape) (depth : Nat) : List Text → Option Nat
  | [] => none
  | line :: rest =>
    let code := codeOf line
    let depth := if shape.opens.occurs code then depth + 1 else depth
    if shape.closes.occurs code then
      match depth with
      | 0 => some 0
      | outer + 1 => (linesToEnd? shape outer rest).map (· + 1)
    else (linesToEnd? shape depth rest).map (· + 1)

/-- The first pair that a line begins, with the fields of the container. -/
def beginning? (code : Text) : Option (ContainerShape × ElementFields) :=
  all.findSome? fun shape =>
    ((shape.begin.match? code).bind shape.fields?).map fun fields => (shape, fields)

end ContainerShape

end EditorScript
