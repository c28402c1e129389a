import EditorScript.Persistence.Checked
import EditorScript.Json.Parser
import EditorScript.Model.Catalogue
import EditorScript.Number.Layout

/-!
# Reading saved projects

A saved project is a JSON object.  Entries that are missing take their defaults
and unknown ones are ignored.  Faults are counted over the whole value; a value
without faults is refused only when an element that is no container lists
children.
-/

namespace EditorScript

/-- Why a saved project cannot be read. -/
inductive LoadError where
  /-- Faults in a JSON value. -/
  | invalidData (faults : Nat)
  /-- Faults in a JSON text; a text that is no JSON counts as one fault. -/
  | invalidFile (faults : Nat)
  /-- An element that is no container lists children. -/
  | childrenNotAllowed (id : Text) (widget : Widget)
deriving DecidableEq, Repr

/-- The message for the user. -/
def LoadError.message : LoadError → Text
  | invalidData faults => "Invalid project data: " ++ natText faults ++ " validation error(s)"
  | invalidFile faults => "Invalid project file: " ++ natText faults ++ " validation error(s)"
  | childrenNotAllowed id widget =>
    "Element " ++ id ++ " of type " ++ Named.name widget ++ " cannot have children"

namespace Json

/-- The fields of an element; one without an id gets `freshId`. -/
def toElementFields (form : SavedForm) (freshId : Text) (value : Json) : Checked ElementFields :=
  ElementFields.mk
    <$> value.required "type" toNamed
    <*> value.required "label" toText
    <*> value.entryOr "variable_name" [] toText
    <*> value.entryOr "id" freshId toText
    <*> value.optional "default_value" toText
    <*> value.optional "min_value" (toNumber form)
    <*> value.optional "max_value" (toNumber form)
    <*> value.optional "action" toNamed
    <*> value.optional "action_param" toText
    <*> value.optional "help_box_type" toNamed
    <*> value.optional "object_type" toText
    <*> value.optional "allow_scene_objects" toBool
    <*> value.optional "space_height" toInt
    <*> value.optional "foldout_default" toBool
    <*> value.optional "popup_options" (toList toText)
    <*> value.optional "progress_value" (toNumber form)
    <*> value.optional "tabs" (toList toText)
    <*> value.optional "disable_condition" toText
    <*> value.optional "header_text" toText
    <*> value.optional "font_size" toInt
    <*> value.optional "font_style" toNamed
    <*> value.optional "text_alignment" toNamed
    <*> value.optional "box_style" toText
    <*> value.entryOr "opaque" false toBool

/-- How deep elements may stand below each other. -/
def maxElementDepth : Nat := 255

mutual

/-- An element with its children; `levels` is the number of levels that it and
what stands below it may take up. -/
def toElement (form : SavedForm) (freshId : Text) (levels : Nat) : Json → Checked Element
  | object entries =>
    match levels with
    | 0 => .fault
    | below + 1 =>
      Element.ofParts <$> toElementFields form freshId (object entries) <*>
        toChildren form freshId below entries
  | _ => .fault

/-- The children among the entries of an element; none when they are missing or
null. -/
def toChildren (form : SavedForm) (freshId : Text) (levels : Nat) :
    List (Text × Json) → Checked (Option (List Element))
  | [] => .valid none
  | (key, value) :: entries =>
    if key = "children" then
      match value with
      | null => .valid none
      | array items => some <$> toElements form freshId levels items
      | _ => .fault
    else toChildren form freshId levels entries

/-- Elements one after the other. -/
def toElements (form : SavedForm) (freshId : Text) (levels : Nat) :
    List Json → Checked (List Element)
  | [] => .valid []
  | item :: items =>
    List.cons <$> toElement form freshId levels item <*> toElements form freshId levels items

end

/-- A forest of elements. -/
def toForest (form : SavedForm) (freshId : Text) : Json → Checked Forest
  | array items => toElements form freshId maxElementDepth items
  | _ => .fault

/-- Settings; all of them may be missing. -/
def toSettings : Json → Checked Settings
  | object entries =>
    let value := object entries
    let missing : Settings := {}
    Settings.mk
      <$> value.entryOr "class_name" missing.className toText
      <*> value.entryOr "menu_path" missing.menuPath toText
      <*> value.entryOr "window_title" missing.windowTitle toText
      <*> value.entryOr "target_type_name" missing.targetType toText
      <*> value.entryOr "settings_path" missing.settingsPath toText
      <*> value.entryOr "settings_scope" missing.settingsScope toNamed
      <*> value.entryOr "target_attribute_name" missing.targetAttribute toText
      <*> value.entryOr "create_menu_path" missing.createMenuPath toText
      <*> value.entryOr "require_components" [] (toList toText)
      <*> value.entryOr "namespace_name" [] toText
      <*> value.entryOr "add_help_url" false toBool
      <*> value.entryOr "help_url" [] toText
      <*> value.entryOr "interfaces" [] (toList toText)
      <*> value.entryOr "class_attributes" [] (toList toText)
  | _ => .fault

/-- A project whose elements may still disagree with their widgets. -/
def toProject (form : SavedForm) (freshId : Text) : Json → Checked Project
  | object entries =>
    let value := object entries
    Project.mk
      <$> value.required "name" toText
      <*> value.entryOr "id" freshId toText
      <*> value.entryOr "class_kind" .editorWindow toNamed
      <*> value.entryOr "settings" {} toSettings
      <*> value.entryOr "elements" [] (toForest form freshId)
      <*> value.entryOr "created_at" [] toText
      <*> value.entryOr "updated_at" [] toText
      <*> value.entryOr "using_statements" [] (toList toText)
      <*> value.entryOr "field_declarations" [] (toList toText)
      <*> value.entryOr "custom_methods" [] (toList toText)
      <*> value.entryOr "inner_types" [] (toList toText)
      <*> value.entryOr "lifecycle_methods" [] (toList toText)
      <*> value.entryOr "outer_code" [] (toList toText)
      <*> value.entryOr "raw_gui_method_body" [] toText
  | _ => .fault

end Json

/-- The forest with an empty list of children for every container that has none.
Refused when an element that is no container lists children; of several such
elements the first one counts, an element before what follows it and after what
stands above it. -/
def Forest.settle : Forest → Except LoadError Forest
  | [] => .ok []
  | .leaf fields :: rest => do
    let rest ← settle rest
    pure ((if fields.widget.isLayout then .group fields [] else .leaf fields) :: rest)
  | .group fields children :: rest =>
    if fields.widget.isLayout then do
      let children ← settle children
      let rest ← settle rest
      pure (.group fields children :: rest)
    else .error (.childrenNotAllowed fields.id fields.widget)

/-- The project with its forest settled. -/
def Project.settle (project : Project) : Except LoadError Project := do
  let elements ← project.elements.settle
  pure { project with elements }

/-- The project that a JSON value stands for. -/
def Project.ofJson (freshId : Text) (value : Json) : Except LoadError Project :=
  match value.toProject .value freshId with
  | .valid project => project.settle
  | .faulty faults => .error (.invalidData faults)

/-- What a saved text may go up to. -/
def savedLimits : Json.Limits := ⟨200, maxDigits⟩

/-- The project that a saved text stands for. -/
def Project.load (freshId : Text) (text : Text) : Except LoadError Project :=
  match Json.parse? savedLimits text with
  | none => .error (.invalidFile 1)
  | some value =>
    match value.toProject .text freshId with
    | .valid project => project.settle
    | .faulty faults => .error (.invalidFile faults)

end EditorScript
