import EditorScript.Emission.Variable

/-!
# Statements of elements

Each element is drawn by one or more statements.  A container's statements stand
around those of its children, which are moved in by one level.
-/

namespace EditorScript

/-- Why an element cannot be written. -/
inductive EmissionError where
  /-- The limit of a slider over whole numbers is infinite. -/
  | infiniteLimit
  /-- The limit of a slider over whole numbers is no number. -/
  | undefinedLimit
deriving DecidableEq, Repr

/-- The object that a button marks as changed. -/
def ScriptKind.dirtyTarget : ScriptKind → Text
  | .customEditor => "target"
  | .propertyDrawer => "property.serializedObject.targetObject"
  | _ => "this"

/-- A list that is set and not empty, or else the default. -/
def listOr (missing : List Text) : Option (List Text) → List Text
  | none | some [] => missing
  | some items => items

/-- String literals in braces. -/
def stringArray (items : List Text) : Text :=
  "new string[] \x7b " ++ Text.join ", " (items.map quote) ++ " \x7d"

/-- A limit of a slider over whole numbers. -/
def wholeLimit (limit : Binary64) : Except EmissionError Text :=
  match limit.toInt? with
  | some value => .ok (intText value)
  | none => .error (if limit.isNaN then .undefinedLimit else .infiniteLimit)

namespace ElementFields

/-- The statements that a click on a button runs; empty when there is nothing to
run. -/
def actionCode (fields : ElementFields) (width level : Nat) (kind : ScriptKind) : Text :=
  let margin := indentation width level
  let param := fields.actionParam.getD []
  match fields.action with
  | none | some .none => []
  | some .debugLog =>
    margin ++ "Debug.Log(" ++ quote (if param.isEmpty then fields.label else param) ++ ");"
  | some .displayDialog =>
    margin ++ "EditorUtility.DisplayDialog(" ++ quote fields.label ++ ", " ++ quote param ++
      ", \"OK\");"
  | some .repaint => margin ++ "Repaint();"
  | some .setDirty => margin ++ "EditorUtility.SetDirty(" ++ kind.dirtyTarget ++ ");"
  | some .undoRecord =>
    margin ++ "Undo.RecordObject(" ++ kind.dirtyTarget ++ ", " ++
      quote (if param.isEmpty then "Change" else param) ++ ");"
  | some .customCode => if Text.blank param then [] else Text.reindent (width * level) param

/-- The arguments of a call with a style at their end, if there is one. -/
def styledArguments (fields : ElementFields) (arguments : List Text) (usual : Text) : Text :=
  Text.join ", " (arguments ++ (fields.style? usual).toList)

/-- The call of a field that takes a label and a variable. -/
def valueCall (fields : ElementFields) (call : Text) (arguments : List Text) : Text :=
  fields.variableName ++ " = EditorGUILayout." ++ call ++ "(" ++
    Text.join ", " ([quote fields.label, fields.variableName] ++ arguments) ++ ");"

/-- Whether the statements of the children stand inside those of the element. -/
def showsChildren (fields : ElementFields) : Bool :=
  !fields.isOpaque &&
    match fields.widget with
    | .horizontalGroup | .verticalGroup | .scrollView | .disabledGroup | .box | .foldout => true
    | _ => false

/-- The lines around the children of a layout container. -/
def groupCalls (fields : ElementFields) : Text × Text :=
  match fields.widget with
  | .horizontalGroup =>
    ("EditorGUILayout.BeginHorizontal();", "EditorGUILayout.EndHorizontal();")
  | .scrollView =>
    ("scrollPosition = EditorGUILayout.BeginScrollView(scrollPosition);",
      "EditorGUILayout.EndScrollView();")
  | .disabledGroup =>
    ("EditorGUI.BeginDisabledGroup(" ++ (present? fields.disableCondition).getD "false" ++ ");",
      "EditorGUI.EndDisabledGroup();")
  | .box =>
    ("EditorGUILayout.BeginVertical(" ++ (fields.style? "\"box\"").getD "\"box\"" ++ ");",
      "EditorGUILayout.EndVertical();")
  | _ => ("EditorGUILayout.BeginVertical();", "EditorGUILayout.EndVertical();")

/-- The empty cases of a switch over tabs. -/
def tabCases (width level : Nat) : Nat → List Text → List Text
  | _, [] => []
  | number, tab :: tabs =>
    (indentation width level ++ "case " ++ natText number ++ ": // " ++ tab) ::
      (indentation width (level + 1) ++ "break;") :: tabCases width level (number + 1) tabs

/-- The lines of an element at a level, the texts of its children being given.
An entry may itself run over several lines. -/
def lines (fields : ElementFields) (width level : Nat) (kind : ScriptKind) (inner : List Text) :
    Except EmissionError (List Text) :=
  let margin := indentation width level
  let deeper := indentation width (level + 1)
  let variableName := fields.variableName
  let label := quote fields.label
  let one (statement : Text) : Except EmissionError (List Text) := .ok [margin ++ statement]
  match fields.widget with
  | .button =>
    let code := fields.actionCode width (level + 1) kind
    .ok
      [margin ++ "if (GUILayout.Button(" ++ fields.styledArguments [label] "\"button\"" ++ "))",
        margin ++ "\x7b",
        if code.isEmpty then deeper ++ "// Button action" else code,
        margin ++ "\x7d"]
  | .textField =>
    one (variableName ++ " = EditorGUILayout.TextField(" ++
      fields.styledArguments [label, variableName] "EditorStyles.textField" ++ ");")
  | .textArea =>
    .ok
      [margin ++ "EditorGUILayout.LabelField(" ++ label ++ ");",
        margin ++ variableName ++ " = EditorGUILayout.TextArea(" ++
          fields.styledArguments [variableName, "GUILayout.Height(60)"] "EditorStyles.textArea" ++
          ");"]
  | .intField => one (fields.valueCall "IntField" [])
  | .floatField => one (fields.valueCall "FloatField" [])
  | .toggle => one (fields.valueCall "Toggle" [])
  | .colorField => one (fields.valueCall "ColorField" [])
  | .vector2Field => one (fields.valueCall "Vector2Field" [])
  | .vector3Field => one (fields.valueCall "Vector3Field" [])
  | .layerField => one (fields.valueCall "LayerField" [])
  | .tagField => one (fields.valueCall "TagField" [])
  | .curveField => one (fields.valueCall "CurveField" [])
  | .gradientField => one (fields.valueCall "GradientField" [])
  | .slider =>
    one (fields.valueCall "Slider"
      [numberText (fields.minValue.getD (.ofInt 0)) ++ ['f'],
        numberText (fields.maxValue.getD (.ofInt 1)) ++ ['f']])
  | .intSlider => do
    let low ← wholeLimit (fields.minValue.getD (.ofInt 0))
    let high ← wholeLimit (fields.maxValue.getD (.ofInt 100))
    one (fields.valueCall "IntSlider" [low, high])
  | .objectField =>
    one (variableName ++ " = (" ++ fields.variableType ++ ")EditorGUILayout.ObjectField(" ++
      Text.join ", " [label, variableName, "typeof(" ++ fields.variableType ++ ")",
        boolText (fields.allowSceneObjects.getD true)] ++ ");")
  | .enumPopup =>
    one (variableName ++ " = (" ++ fields.variableType ++ ")EditorGUILayout.EnumPopup(" ++ label ++
      ", " ++ variableName ++ ");")
  | .popup =>
    one (fields.valueCall "Popup"
      [stringArray (listOr ["Option 1", "Option 2"] fields.popupOptions)])
  | .label =>
    one ("EditorGUILayout.LabelField(" ++ fields.styledArguments [label] "EditorStyles.label" ++
      ");")
  | .helpBox =>
    one ("EditorGUILayout.HelpBox(" ++ quote ((present? fields.defaultValue).getD fields.label) ++
      ", MessageType." ++ Named.name (fields.severity.getD .info) ++ ");")
  | .space =>
    let height := fields.spaceHeight.getD 10
    one ("EditorGUILayout.Space(" ++ intText (if height = 0 then 10 else height) ++ ");")
  | .separator => one "EditorGUILayout.LabelField(\"\", GUI.skin.horizontalSlider);"
  | .header =>
    one ("EditorGUILayout.LabelField(" ++ quote ((present? fields.headerText).getD fields.label) ++
      ", " ++ (fields.style? "EditorStyles.boldLabel").getD "EditorStyles.boldLabel" ++ ");")
  | .progressBar =>
    one ("EditorGUI.ProgressBar(EditorGUILayout.GetControlRect(false, 20), " ++ variableName ++
      ", " ++ label ++ ");")
  | .horizontalGroup | .verticalGroup | .scrollView | .disabledGroup | .box =>
    (.ok ((margin ++ fields.groupCalls.1) :: inner ++ [margin ++ fields.groupCalls.2]))
  | .foldout =>
    .ok
      ([margin ++ variableName ++ " = EditorGUILayout.Foldout(" ++ variableName ++ ", " ++ label ++
          ", true);",
        margin ++ "if (" ++ variableName ++ ")",
        margin ++ "\x7b",
        deeper ++ "EditorGUI.indentLevel++;"] ++ inner ++
        [deeper ++ "EditorGUI.indentLevel--;", margin ++ "\x7d"])
  | .tabGroup =>
    let tabs := listOr ["Tab 1", "Tab 2"] fields.tabs
    .ok
      ([margin ++ variableName ++ " = GUILayout.Toolbar(" ++ variableName ++ ", " ++
          stringArray tabs ++ ");",
        margin ++ "switch (" ++ variableName ++ ")",
        margin ++ "\x7b"] ++ tabCases width (level + 1) 0 tabs ++ [margin ++ "\x7d"])

/-- The text of an element at a level, the texts of its children being given.
An element that stands for code is that code. -/
def render (fields : ElementFields) (width level : Nat) (kind : ScriptKind) (inner : List Text) :
    Except EmissionError Text :=
  if fields.isOpaque then .ok (Text.reindent (width * level) (fields.actionParam.getD []))
  else (fields.lines width level kind inner).map Text.unlines

end ElementFields

mutual

/-- The text of an element at a level. -/
def Element.render (width level : Nat) (kind : ScriptKind) : Element → Except EmissionError Text
  | .leaf fields => fields.render width level kind []
  | .group fields children => do
    let inner ←
      if fields.showsChildren then renderAll width (level + 1) kind children else .ok []
    fields.render width level kind inner

/-- The texts of elements at a level, empty ones left out. -/
def renderAll (width level : Nat) (kind : ScriptKind) :
    List Element → Except EmissionError (List Text)
  | [] => .ok []
  | element :: rest => do
    let text ← element.render width level kind
    let texts ← renderAll width level kind rest
    pure (if text.isEmpty then texts else text :: texts)

end

/-- The text of a forest: its roots with blank lines between them. -/
def Forest.render (width level : Nat) (kind : ScriptKind) (forest : Forest) :
    Except EmissionError Text :=
  (renderAll width level kind forest).map (Text.join "\n\n")

end EditorScript
