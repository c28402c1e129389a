import EditorScript.Recovery.StyleExpression

/-!
# Calls that make an element

Each statement of one line that draws an element has a shape.  The shapes are
tried in a fixed order; the first one that fits and whose parts make sense gives
the element.
-/

namespace EditorScript

open Pattern

/-- A shape of a statement and the element it stands for. -/
structure CallShape where
  name : String
  pattern : Pattern
  fields? : Position → Option ElementFields

namespace CallShape

/-- The class whose functions draw the elements, laid out or not. -/
def editorGui : Pattern := "EditorGUI" ++ opt "Layout"

/-- A label in front of the other arguments. -/
def labelArgument : Pattern := opt (literal "label" ++ comma)

/-- A numeric literal. -/
def numberArgument (name : String) : Pattern :=
  capture name (opt "-" ++ many1 (one fun c => isDecimal c || c == '.') ++ opt (oneOf "fFdD"))

/-- A type in an argument or in a cast. -/
def typeName (name : String) : Pattern := capture name dotted

/-- A variable and what is assigned to it. -/
def assigned : Pattern := start ++ capture "variable" word ++ blanks ++ "=" ++ blanks

/-- A call that takes a label and a variable and gives the variable its new value. -/
def valueCall (call : String) (tail : Pattern) : Pattern :=
  assigned ++ editorGui ++ "." ++ opening call ++ labelArgument ++ same "variable" ++ tail

/-- An optional style and the end of the call. -/
def styleTail : Pattern :=
  blanks ++ opt ("," ++ blanks ++ capture "style" (few1 inLine)) ++ closing

/-- Two limits and the end of the call. -/
def limitsTail : Pattern :=
  comma ++ numberArgument "low" ++ comma ++ numberArgument "high" ++ closing

/-- A list of strings in braces. -/
def stringList (name : String) : Pattern :=
  "new" ++ blanks ++ opt ("string" ++ blanks) ++ opt ("[" ++ blanks ++ "]") ++ blanks ++
    "\x7b" ++ capture name (many inLine) ++ "\x7d"

/-- The text of a captured literal. -/
def textOf (found : Position) (name : String) : Text := unescape (found.captured name)

/-- An element bound to the variable of a call; its label is the variable's name
when the call has none. -/
def bound (widget : Widget) (found : Position) : ElementFields :=
  let variableName := found.captured "variable"
  { widget, variableName, label := ((found.captured? "label").map unescape).getD variableName }

/-- An element that only has a label. -/
def labelled (widget : Widget) (label : Text) : ElementFields :=
  { widget, label }

/-- A field whose call takes a label and a variable. -/
def simple (name call : String) (widget : Widget) : CallShape :=
  ⟨name, valueCall call closing, fun found => some (bound widget found)⟩

/-- A slider with its limits. -/
def limited (name call : String) (widget : Widget) : CallShape :=
  ⟨name, valueCall call limitsTail, fun found =>
    some { bound widget found with
      minValue := readLiteralNumber? (found.captured "low")
      maxValue := readLiteralNumber? (found.captured "high") }⟩

def enumPopup : CallShape :=
  ⟨"enum-popup",
    assigned ++ "(" ++ blanks ++ typeName "type" ++ blanks ++ ")" ++ blanks ++ editorGui ++ "." ++
      opening "EnumPopup" ++ labelArgument ++ same "variable" ++ closing,
    fun found => some { bound .enumPopup found with objectType := some (found.captured "type") }⟩

def popup : CallShape :=
  ⟨"popup", valueCall "Popup" (comma ++ stringList "options" ++ closing),
    fun found => some { bound .popup found with
      popupOptions := some (literalTexts (found.captured "options")) }⟩

def textField : CallShape :=
  ⟨"text-field", valueCall "TextField" styleTail, fun found =>
    (bound .textField found).applyStyle? (found.captured? "style") "EditorStyles.textField"⟩

def textArea : CallShape :=
  ⟨"text-area",
    assigned ++ editorGui ++ "." ++ opening "TextArea" ++ same "variable" ++ blanks ++
      opt ("," ++ blanks ++ "GUILayout." ++ word ++ blanks ++ "(" ++ many (noneOf ")") ++ ")") ++
      styleTail,
    fun found =>
      (bound .textArea found).applyStyle? (found.captured? "style") "EditorStyles.textArea"⟩

def toggle : CallShape :=
  ⟨"toggle",
    assigned ++ firstOf ["EditorGUILayout", "EditorGUI", "GUILayout"] ++ "." ++
      opening "Toggle" ++ labelArgument ++ same "variable" ++ closing,
    fun found => some (bound .toggle found)⟩

def objectField : CallShape :=
  ⟨"object-field",
    assigned ++ opt ("(" ++ blanks ++ typeName "cast" ++ blanks ++ ")" ++ blanks) ++
      editorGui ++ "." ++ opening "ObjectField" ++ labelArgument ++ same "variable" ++ comma ++
      opening "typeof" ++ typeName "type" ++ blanks ++ ")" ++ blanks ++
      opt ("," ++ blanks ++ capture "scene" (either "true" "false") ++ blanks) ++
      ")" ++ blanks ++ ";" ++ finish,
    fun found => some { bound .objectField found with
      objectType := some (found.captured "type")
      allowSceneObjects := some (found.captured "scene" != "false".toList) }⟩

def helpBox : CallShape :=
  ⟨"help-box",
    start ++ opening "EditorGUILayout.HelpBox" ++ literal "message" ++ comma ++ "MessageType." ++
      capture "severity" word ++ closing,
    fun found => (Named.ofName? (found.captured "severity")).map fun severity =>
      { labelled .helpBox (textOf found "message") with
        defaultValue := some (textOf found "message")
        severity := some severity }⟩

def space : CallShape :=
  ⟨"space",
    start ++ opening (either "EditorGUILayout" "GUILayout" ++ ".Space") ++
      opt (capture "height" digits) ++ closing,
    fun found => some { labelled .space "Space" with
      spaceHeight := some (((found.captured? "height").map fun digits =>
        (decimalValue digits : Int)).getD 10) }⟩

def separator : CallShape :=
  ⟨"separator",
    start ++ opening "EditorGUILayout.LabelField" ++ "\"\"" ++ comma ++
      "GUI.skin.horizontalSlider" ++ closing,
    fun _ => some (labelled .separator "Separator")⟩

def progressBar : CallShape :=
  ⟨"progress-bar",
    start ++ "EditorGUI.ProgressBar" ++ blanks ++ "(" ++ many1 inLine ++ "," ++ blanks ++
      capture "variable" word ++ comma ++ literal "label" ++ closing,
    fun found => some (bound .progressBar found)⟩

def header : CallShape :=
  ⟨"header",
    start ++ opening "EditorGUILayout.LabelField" ++ literal "text" ++ comma ++
      capture "style" (many inLine ++ "EditorStyles.boldLabel" ++ few inLine) ++ closing,
    fun found =>
      let fields := { labelled .header (textOf found "text") with
        headerText := some (textOf found "text") }
      let style := found.captured "style"
      if style.trim = "EditorStyles.boldLabel".toList then some fields
      else fields.withStyle? style "EditorStyles.boldLabel"⟩

def label : CallShape :=
  ⟨"label",
    start ++ opening (either "GUILayout.Label" "EditorGUILayout.LabelField") ++ literal "text" ++
      styleTail,
    fun found => (labelled .label (textOf found "text")).applyStyle? (found.captured? "style")
      "EditorStyles.label"⟩

/-- The shapes in the order in which they are tried. -/
def all : List CallShape :=
  [enumPopup, popup, textField, textArea,
    simple "int-field" "IntField" .intField,
    simple "float-field" "FloatField" .floatField,
    limited "slider" "Slider" .slider,
    limited "int-slider" "IntSlider" .intSlider,
    toggle,
    simple "color-field" "ColorField" .colorField,
    simple "vector2-field" "Vector2Field" .vector2Field,
    simple "vector3-field" "Vector3Field" .vector3Field,
    objectField,
    simple "layer-field" "LayerField" .layerField,
    simple "tag-field" "TagField" .tagField,
    simple "curve-field" "CurveField" .curveField,
    simple "gradient-field" "GradientField" .gradientField,
    helpBox, space, separator, progressBar, header, label]

/-- The element that a line has the shape of, when its parts make sense. -/
def recognise? (shape : CallShape) (line : Text) : Option ElementFields :=
  (shape.pattern.match? line).bind shape.fields?

end CallShape

/-- The element that a line makes, with the name of the shape that fits. -/
def matchCall? (line : Text) : Option (String × ElementFields) :=
  CallShape.all.findSome? fun shape =>
    (shape.recognise? line).map fun fields => (shape.name, fields)

end EditorScript
