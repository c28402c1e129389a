import EditorScript.Text.Basic

/-!
# Vocabulary

The closed sets of names that a project is made of: kinds of scripts, widgets,
button actions and styles.  Every member has a written name, and no two members
of one set share theirs.
-/

namespace EditorScript

/-- A finite set whose members have written names. -/
class Named (α : Type) where
  /-- All members in their customary order. -/
  all : List α
  /-- The written name of a member. -/
  name : α → Text

/-- The member with the given written name. -/
def Named.ofName? {α : Type} [Named α] (name : Text) : Option α :=
  (Named.all : List α).find? fun member => Named.name member == name

/-- The shapes of classes that scripts can have. -/
inductive ScriptKind where
  | editorWindow | customEditor | monoBehaviour | scriptableObject | settingsProvider
  | propertyDrawer
deriving DecidableEq, Repr

instance : Named ScriptKind where
  all := [.editorWindow, .customEditor, .monoBehaviour, .scriptableObject, .settingsProvider,
    .propertyDrawer]
  name
    | .editorWindow => "EditorWindow"
    | .customEditor => "CustomEditor"
    | .monoBehaviour => "MonoBehaviour"
    | .scriptableObject => "ScriptableObject"
    | .settingsProvider => "SettingsProvider"
    | .propertyDrawer => "PropertyDrawer"

/-- The class that scripts of a kind derive from. -/
def ScriptKind.baseClass : ScriptKind → Text
  | .customEditor => "Editor"
  | kind => Named.name kind

/-- What an element of the user interface is. -/
inductive Widget where
  | button | textField | textArea | intField | floatField | slider | intSlider | toggle
  | colorField | vector2Field | vector3Field | objectField | enumPopup | popup | layerField
  | tagField | curveField | gradientField
  | label | helpBox | space | separator | header | progressBar
  | horizontalGroup | verticalGroup | foldout | scrollView | disabledGroup | box | tabGroup
deriving DecidableEq, Repr

instance : Named Widget where
  all := [.button, .textField, .textArea, .intField, .floatField, .slider, .intSlider, .toggle,
    .colorField, .vector2Field, .vector3Field, .objectField, .enumPopup, .popup, .layerField,
    .tagField, .curveField, .gradientField,
    .label, .helpBox, .space, .separator, .header, .progressBar,
    .horizontalGroup, .verticalGroup, .foldout, .scrollView, .disabledGroup, .box, .tabGroup]
  name
    | .button => "Button"
    | .textField => "TextField"
    | .textArea => "TextArea"
    | .intField => "IntField"
    | .floatField => "FloatField"
    | .slider => "Slider"
    | .intSlider => "IntSlider"
    | .toggle => "Toggle"
    | .colorField => "ColorField"
    | .vector2Field => "Vector2Field"
    | .vector3Field => "Vector3Field"
    | .objectField => "ObjectField"
    | .enumPopup => "EnumPopup"
    | .popup => "Popup"
    | .layerField => "LayerField"
    | .tagField => "TagField"
    | .curveField => "CurveField"
    | .gradientField => "GradientField"
    | .label => "Label"
    | .helpBox => "HelpBox"
    | .space => "Space"
    | .separator => "Separator"
    | .header => "Header"
    | .progressBar => "ProgressBar"
    | .horizontalGroup => "HorizontalGroup"
    | .verticalGroup => "VerticalGroup"
    | .foldout => "Foldout"
    | .scrollView => "ScrollView"
    | .disabledGroup => "DisabledGroup"
    | .box => "Box"
    | .tabGroup => "TabGroup"

/-- The groups of widgets in the palette. -/
inductive Category where
  | input | display | layout
deriving DecidableEq, Repr

instance : Named Category where
  all := [.input, .display, .layout]
  name
    | .input => "input"
    | .display => "display"
    | .layout => "layout"

/-- What a button does when clicked. -/
inductive ButtonAction where
  | none | debugLog | displayDialog | repaint | setDirty | undoRecord | customCode
deriving DecidableEq, Repr

instance : Named ButtonAction where
  all := [.none, .debugLog, .displayDialog, .repaint, .setDirty, .undoRecord, .customCode]
  name
    | .none => "none"
    | .debugLog => "debugLog"
    | .displayDialog => "displayDialog"
    | .repaint => "repaint"
    | .setDirty => "setDirty"
    | .undoRecord => "undoRecord"
    | .customCode => "customCode"

/-- How serious the message of a help box is. -/
inductive Severity where
  | none | info | warning | error
deriving DecidableEq, Repr

instance : Named Severity where
  all := [.none, .info, .warning, .error]
  name
    | .none => "None"
    | .info => "Info"
    | .warning => "Warning"
    | .error => "Error"

inductive FontStyle where
  | normal | bold | italic | boldItalic
deriving DecidableEq, Repr

instance : Named FontStyle where
  all := [.normal, .bold, .italic, .boldItalic]
  name
    | .normal => "Normal"
    | .bold => "Bold"
    | .italic => "Italic"
    | .boldItalic => "BoldItalic"

inductive Alignment where
  | left | center | right
deriving DecidableEq, Repr

instance : Named Alignment where
  all := [.left, .center, .right]
  name
    | .left => "Left"
    | .center => "Center"
    | .right => "Right"

/-- Where a settings page is listed. -/
inductive SettingsScope where
  | user | project
deriving DecidableEq, Repr

instance : Named SettingsScope where
  all := [.user, .project]
  name
    | .user => "User"
    | .project => "Project"

end EditorScript
