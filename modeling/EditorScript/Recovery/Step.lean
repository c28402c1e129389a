import EditorScript.Recovery.Boilerplate
import EditorScript.Recovery.Container

/-!
# One step of recovery

The lines of a body are taken from the front, a few at a time.  What the first
line begins is looked for in a fixed order: blank lines and comments,
boilerplate, containers, buttons, labels with their text area, calls of one
line, other statements, and last any line as it is.
-/

namespace EditorScript

open Pattern

/-- What the front of some lines is: nothing of interest, an element, or a
container whose children are still to be recovered from `inner`.  `rest` are the
lines behind it. -/
inductive Step where
  | skip (rest : List Text)
  | take (element : Element) (warnings : List Text) (rest : List Text)
  | enter (fields : ElementFields) (inner : List Text) (rest : List Text)

/-- The label of elements that stand for code. -/
def opaqueLabel : Text := "Custom Code"

/-- An element that stands for code as it is. -/
def Element.ofCode (code : Text) : Element :=
  .leaf
    { CallShape.labelled .button opaqueLabel with
      action := some .customCode
      actionParam := some code
      isOpaque := true }

namespace Step

/-- The lines behind a block comment, whose opening is followed by `line`.  Code
behind its end stays as the first line. -/
def behindComment (line : Text) : List Text → List Text
  | [] =>
    match Text.cutAt? "*/" line with
    | some (_, after) => if Text.blank after then [] else [after]
    | none => []
  | next :: rest =>
    match Text.cutAt? "*/" line with
    | some (_, after) => if Text.blank after then next :: rest else after :: next :: rest
    | none => behindComment next rest

/-- A layout container: the lines up to the call that ends it are its inside.
Without that call it stays empty and a warning tells so. -/
def container? (line : Text) (rest : List Text) : Option Step :=
  let code := codeOf line
  (ContainerShape.beginning? code).map fun (shape, fields) =>
    match shape.linesToEnd? 0 rest with
    | some count => enter fields (rest.take count) (rest.drop (count + 1))
    | none =>
      take (.ofFields fields) ["Missing close call for layout block: " ++ code] rest

/-- A toggle of a foldout. -/
def foldoutCall : Pattern :=
  CallShape.assigned ++ CallShape.editorGui ++ "." ++ opening "Foldout" ++ same "variable" ++
    comma ++ literal "label" ++ blanks ++
    opt ("," ++ blanks ++ either "true" "false" ++ blanks) ++ ")" ++ blanks ++ ";" ++ finish

/-- A toolbar whose selected button is kept in a variable. -/
def toolbarCall : Pattern :=
  CallShape.assigned ++ opening "GUILayout.Toolbar" ++ same "variable" ++ comma ++
    CallShape.stringList "tabs" ++ closing

/-- A statement of the given keyword whose condition starts with a variable alone. -/
def guard (keyword : String) (variableName : Text) : Pattern :=
  start ++ opening keyword ++ text variableName ++ blanks ++ ")"

/-- The block behind a guard on a variable, when such a guard is the next code:
the lines of its body and the lines behind it. -/
def guarded? (keyword : String) (variableName : Text) (rest : List Text) :
    Option (List Text × List Text) :=
  match firstCode? rest with
  | none => none
  | some (place, code) =>
    if (guard keyword variableName).accepts code then
      (findBlock? (rest.drop place) 0).map fun block =>
        (block.bodyLines (rest.drop place), (rest.drop place).drop (block.endLine + 1))
    else none

/-- A foldout; the block guarded by its variable is its inside. -/
def foldout? (line : Text) (rest : List Text) : Option Step :=
  (foldoutCall.match? (codeOf line)).map fun found =>
    let variableName := found.captured "variable"
    let fields := CallShape.bound .foldout found
    match guarded? "if" variableName rest with
    | some (inner, behind) => enter fields inner behind
    | none => take (.ofFields fields) [] rest

/-- A line of a switch that does nothing. -/
def emptyCase : Pattern :=
  start ++ firstOf ["case" ++ blanks1 ++ digits ++ blanks ++ ":", "default" ++ blanks ++ ":",
    "break" ++ blanks ++ ";"]

/-- Whether the cases of a switch do nothing. -/
def isEmptySwitch (body : List Text) : Bool :=
  body.all fun line => (codeOf line).isEmpty || emptyCase.accepts (codeOf line)

/-- A group of tabs; a switch over its variable that does nothing belongs to it. -/
def tabGroup? (line : Text) (rest : List Text) : Option Step :=
  (toolbarCall.match? (codeOf line)).map fun found =>
    let variableName := found.captured "variable"
    let fields : ElementFields :=
      { CallShape.labelled .tabGroup variableName with
        variableName
        tabs := some (literalTexts (found.captured "tabs")) }
    match guarded? "switch" variableName rest with
    | some (body, behind) =>
      take (.ofFields fields) [] (if isEmptySwitch body then behind else rest)
    | none => take (.ofFields fields) [] rest

/-- A click on a button as the condition of a statement. -/
def buttonCall : Pattern :=
  start ++ "if" ++ blanks ++ "(" ++ blanks ++ opening (ContainerShape.layoutGui ++ ".Button") ++
    literal "label" ++ blanks ++ opt ("," ++ blanks ++ capture "style" (few1 inLine)) ++
    blanks ++ ")" ++ blanks ++ ")" ++ capture "rest" (many inLine) ++ finish

/-- A button; the block or the statement behind its condition is its action. -/
def button? (line : Text) (rest : List Text) : Option Step :=
  (buttonCall.match? (codeOf line)).bind fun found =>
    ((CallShape.labelled .button (CallShape.textOf found "label")).applyStyle?
      (found.captured? "style") "\"button\"").bind fun fields =>
      let acting (code : Text) (behind : List Text) : Step :=
        take (.leaf { fields with action := some .customCode, actionParam := some code }) [] behind
      let behindCondition := Text.trim (found.captured "rest")
      let next := firstCode? rest
      if behindCondition.startsWith "\x7b" ||
          (behindCondition.isEmpty && next.any fun (_, code) => code.startsWith "\x7b") then
        (findBlock? (line :: rest) 0).map fun block =>
          acting (Text.dedent (block.body (line :: rest))) (rest.drop block.endLine)
      else if !behindCondition.isEmpty then some (acting behindCondition rest)
      else
        match next with
        | none => some (acting [] rest)
        | some (place, _) =>
          let statement := rest.drop place
          some (acting (statementText statement) (statement.drop (extent statement + 1)))

/-- A label of its own. -/
def plainLabel : Pattern :=
  start ++ opening "EditorGUILayout.LabelField" ++ literal "text" ++ closing

/-- A text area with the label above it. -/
def labelledTextArea? (line : Text) (rest : List Text) : Option Step :=
  match plainLabel.match? (codeOf line), firstCode? rest with
  | some found, some (place, code) =>
    match matchCall? code with
    | some (_, fields) =>
      if fields.widget = .textArea then
        some (take (.leaf { fields with label := CallShape.textOf found "text" }) []
          (rest.drop (place + 1)))
      else none
    | none => none
  | _, _ => none

/-- A call of one line. -/
def call? (line : Text) (rest : List Text) : Option Step :=
  (matchCall? (codeOf line)).map fun (_, fields) => take (.leaf fields) [] rest

/-- Code that stands for no known element. -/
def code (line : Text) (rest : List Text) : Step :=
  if startsStatement (codeOf line) then
    take (.ofCode (statementText (line :: rest))) [] (rest.drop (extent (line :: rest)))
  else take (.ofCode (Text.trim line)) [] rest

/-- The step at the front of some lines. -/
def next (line : Text) (rest : List Text) : Step :=
  let code := codeOf line
  if code.isEmpty then skip rest
  else if code.startsWith "/*" then
    match Text.cutAt? "/*" line with
    | some (_, opened) => skip (behindComment opened rest)
    | none => skip rest
  else if isBoilerplate code then skip (rest.drop (boilerplateExtent (line :: rest)))
  else
    ((((((container? line rest).or (foldout? line rest)).or (tabGroup? line rest)).or
      (button? line rest)).or (labelledTextArea? line rest)).or (call? line rest)).getD
      (Step.code line rest)

end Step

end EditorScript
