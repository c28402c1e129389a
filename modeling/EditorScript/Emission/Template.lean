import EditorScript.Emission.Preserved
import EditorScript.Emission.Statement
import EditorScript.Pattern.Combinators

/-!
# Class templates

Each kind of script has a template: the class it derives from, the attributes
and members it brings along, and the method that draws the elements.
-/

namespace EditorScript

namespace ScriptKind

/-- The imports that scripts of this kind need. -/
def usualUsings : ScriptKind → List Text
  | monoBehaviour | scriptableObject => ["using UnityEngine;"]
  | _ => ["using UnityEditor;", "using UnityEngine;"]

/-- The signature of the method that draws the elements. -/
def guiSignature? : ScriptKind → Option Text
  | editorWindow => some "private void OnGUI()"
  | customEditor => some "public override void OnInspectorGUI()"
  | settingsProvider => some "public override void OnGUI(string searchContext)"
  | propertyDrawer =>
    some "public override void OnGUI(Rect position, SerializedProperty property, GUIContent label)"
  | _ => none

/-- Whether variables of elements are saved with the object. -/
def serializesFields : ScriptKind → Bool
  | monoBehaviour | scriptableObject => true
  | _ => false

/-- Whether variables of elements can be read from outside. -/
def hasAccessors : ScriptKind → Bool
  | scriptableObject => true
  | _ => false

/-- The statements in front of the elements. -/
def guiPrologue : ScriptKind → List Text
  | customEditor => ["serializedObject.Update();"]
  | propertyDrawer => ["EditorGUI.BeginProperty(position, label, property);"]
  | _ => []

/-- The statements behind the elements. -/
def guiEpilogue : ScriptKind → List Text
  | customEditor => ["serializedObject.ApplyModifiedProperties();"]
  | propertyDrawer => ["EditorGUI.EndProperty();"]
  | _ => []

/-- What is told about a name that no kind has. -/
def unsupportedMessage (name : Text) : Text :=
  "Unsupported class kind: " ++ name ++ ". Supported: [" ++
    Text.join ", " ((Named.all : List ScriptKind).map fun kind => "'" ++ Named.name kind ++ "'") ++
    "]"

end ScriptKind

/-- The comment that stands for missing elements. -/
def emptyGuiComment : Text := "// Add UI elements from the palette"

/-- A signature with its block. -/
def blockText (width level : Nat) (signature : Text) (body : List Text) : Text :=
  let margin := indentation width level
  Text.unlines ([margin ++ signature, margin ++ "\x7b"] ++ body ++ [margin ++ "\x7d"])

/-- The name of the attribute class that a property drawer is for. -/
def Settings.attributeType (settings : Settings) : Text :=
  (present? (some settings.targetAttribute)).getD "MyAttribute" ++ "Attribute"

/-- The attributes that a template puts above the class. -/
def Settings.kindAttributes (settings : Settings) : ScriptKind → List Text
  | .customEditor =>
    ["[CustomEditor(typeof(" ++ (present? (some settings.targetType)).getD "MonoBehaviour" ++ "))]"]
  | .monoBehaviour =>
    settings.requireComponents.map (fun (component : Text) =>
      "[RequireComponent(typeof(" ++ component ++ "))]") ++
    (if settings.addHelpUrl && !settings.helpUrl.isEmpty then
      [("[HelpURL(" : Text) ++ quote settings.helpUrl ++ ")]"]
    else [])
  | .scriptableObject =>
    let menu := (present? (some settings.createMenuPath)).getD ("ScriptCraft/" ++ settings.className)
    ["[CreateAssetMenu(fileName = \"New" ++ settings.className ++ "\", menuName = " ++
      quote menu ++ ")]"]
  | .propertyDrawer => ["[CustomPropertyDrawer(typeof(" ++ settings.attributeType ++ "))]"]
  | _ => []

/-- The line that opens the class, without its margin. -/
def Settings.classHeader (settings : Settings) (kind : ScriptKind) : Text :=
  "public class " ++ settings.className ++ " : " ++
    Text.join ", " (kind.baseClass :: settings.interfaces)

namespace Project

/-- Whether the body of the drawing method is kept as text. -/
def isRaw (project : Project) : Bool :=
  project.elements.isEmpty && !Text.blank project.rawBody

/-- A class written by hand with the name of the drawer's attribute. -/
def definesAttribute (project : Project) : Bool :=
  let definition := Pattern.boundary ++ "class" ++ Pattern.blanks1 ++
    Pattern.text project.settings.attributeType ++ Pattern.boundary
  project.outerCode.any definition.occurs

/-- The types in front of the class. -/
def leadingTypes (project : Project) (width level : Nat) : List Text :=
  match project.kind with
  | .propertyDrawer =>
    if project.definesAttribute then []
    else [blockText width level
      ("public class " ++ project.settings.attributeType ++ " : PropertyAttribute") []]
  | _ => []

/-- The first members of the class. -/
def leadingMembers (project : Project) (width level : Nat) : List Text :=
  match project.kind with
  | .editorWindow =>
    [indentation width level ++ "[MenuItem(" ++ quote project.settings.menuPath ++ ")]\n" ++
      blockText width level "public static void ShowWindow()"
        [indentation width (level + 1) ++ "GetWindow<" ++ project.settings.className ++ ">(" ++
          quote project.settings.windowTitle ++ ");"]]
  | _ => []

/-- The declarations of the variables behind the elements. -/
def fieldMembers (project : Project) (width level : Nat) : List Text :=
  match variableDeclarations width level project.kind.serializesFields
      (declaredNames project.fieldDeclarations) project.elements with
  | [] => []
  | declarations => [Text.unlines declarations]

/-- Without elements there are no variables behind them. -/
theorem fieldMembers_nil {project : Project} (h : project.elements = []) (width level : Nat) :
    project.fieldMembers width level = [] := by
  simp [fieldMembers, h, variableDeclarations, firstBindings]

/-- The members in front of the drawing method. -/
def membersBeforeGui (project : Project) (width level : Nat) : List Text :=
  match project.kind with
  | .settingsProvider =>
    [indentation width level ++ "public " ++ project.settings.className ++
      "(string path, SettingsScope scope = SettingsScope." ++
      Named.name project.settings.settingsScope ++ ")\n" ++
      indentation width (level + 1) ++ ": base(path, scope) \x7b \x7d"]
  | _ => []

/-- The members behind everything else. -/
def membersAfterGui (project : Project) (width level : Nat) : List Text :=
  match project.kind with
  | .monoBehaviour =>
    if project.lifecycleMethods.isEmpty then
      [blockText width level "private void Start()"
          [indentation width (level + 1) ++ "// Initialization"],
        blockText width level "private void Update()"
          [indentation width (level + 1) ++ "// Per-frame logic"]]
    else []
  | .scriptableObject =>
    match accessorDeclarations width level (declaredNames project.fieldDeclarations)
        project.elements with
    | [] => []
    | accessors => [Text.unlines accessors]
  | .settingsProvider =>
    let path := (present? (some project.settings.settingsPath)).getD
      ("Preferences/" ++ project.settings.className)
    [indentation width level ++ "[SettingsProvider]\n" ++
      blockText width level
        ("public static SettingsProvider Create" ++ project.settings.className ++ "()")
        [indentation width (level + 1) ++ "return new " ++ project.settings.className ++ "(" ++
          quote path ++ ");"]]
  | _ => []

/-- What the drawing method draws: the elements, or the body as it was, or a
comment in place of both. -/
def guiContent (project : Project) (width level : Nat) : Except EmissionError Text :=
  if !project.elements.isEmpty then project.elements.render width level project.kind
  else if project.isRaw then .ok (Text.reindent (width * level) project.rawBody)
  else .ok (indentation width level ++ emptyGuiComment)

/-- The drawing method.  A body kept as text brings its own first and last
statements along. -/
def guiMethod (project : Project) (width level : Nat) : Except EmissionError (List Text) :=
  match project.kind.guiSignature? with
  | none => .ok []
  | some signature => do
    let inner := indentation width (level + 1)
    let prologue := if project.isRaw then [] else project.kind.guiPrologue
    let epilogue := if project.isRaw then [] else project.kind.guiEpilogue
    let content ← project.guiContent width (level + 1)
    let body :=
      (if prologue.isEmpty then [] else prologue.map (inner ++ ·) ++ [[]]) ++ [content] ++
        (if epilogue.isEmpty then [] else [] :: epilogue.map (inner ++ ·))
    pure [blockText width level signature body]

/-- The level of the class: one further in when there is a namespace around it. -/
def level (project : Project) : Nat :=
  if project.settings.namespaceName.isEmpty then 0 else 1

/-- What stands above the header of the class. -/
def aboveClass (project : Project) (width : Nat) : List Text :=
  let settings := project.settings
  let types := project.leadingTypes width project.level
  mergeUsings project project.kind.usualUsings ++ [[]] ++
    (if settings.namespaceName.isEmpty then []
      else [("namespace " : Text) ++ settings.namespaceName, ['\x7b']]) ++
    (if types.isEmpty then [] else types ++ [[]]) ++
    (settings.kindAttributes project.kind ++ settings.classAttributes).map
      (indentation width project.level ++ ·)

/-- The members of the class, the drawing method being given. -/
def members (project : Project) (width : Nat) (gui : List Text) : List Text :=
  let level := project.level + 1
  project.leadingMembers width level ++ project.fieldMembers width level ++
    project.declarationSections width level ++ project.membersBeforeGui width level ++ gui ++
    project.methodSections width level ++ project.membersAfterGui width level

/-- What stands between the braces of the class. -/
def insideClass (project : Project) (width : Nat) (gui : List Text) : List Text :=
  let members := project.members width gui
  if members.isEmpty then [] else [Text.join "\n\n" members]

/-- What stands below the closing brace of the class. -/
def belowClass (project : Project) : List Text :=
  (if project.settings.namespaceName.isEmpty then [] else [['\x7d']]) ++
    (if project.outerText.isEmpty then [] else [[], project.outerText])

/-- The complete source of a project, each level being `width` blanks wide. -/
def source (project : Project) (width : Nat) : Except EmissionError Text := do
  let margin := indentation width project.level
  let gui ← project.guiMethod width (project.level + 1)
  let lines :=
    project.aboveClass width ++
      [margin ++ project.settings.classHeader project.kind, margin ++ "\x7b"] ++
      project.insideClass width gui ++ [margin ++ ['\x7d']] ++ project.belowClass
  pure (Text.unlines lines ++ "\n")

/-- The name of the file that a project's source goes to. -/
def fileName (project : Project) : Text :=
  (present? (some project.settings.className)).getD "MyTool" ++ ".cs"

end Project

end EditorScript
