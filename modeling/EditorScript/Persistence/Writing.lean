import EditorScript.Json.Printer
import EditorScript.Model.Project

/-!
# Writing saved projects

A saved project names all of its fields, in a fixed order, and an unset field is
null.
-/

namespace EditorScript

/-- A number, or null. -/
def Json.optNumber : Option Binary64 → Json
  | none => null
  | some value => number value

/-- A whole number, or null. -/
def Json.optInt : Option Int → Json
  | none => null
  | some value => int value

/-- A truth value, or null. -/
def Json.optBool : Option Bool → Json
  | none => null
  | some value => bool value

/-- A list of texts, or null. -/
def Json.optStrings : Option (List Text) → Json
  | none => null
  | some texts => strings texts

/-- A written name, or null. -/
def Json.optNamed {α : Type} [Named α] : Option α → Json
  | none => null
  | some member => string (Named.name member)

/-- The entries of an element, its children given as a value. -/
def ElementFields.entries (fields : ElementFields) (children : Json) : List (Text × Json) :=
  [("type", .string (Named.name fields.widget)),
    ("label", .string fields.label),
    ("variable_name", .string fields.variableName),
    ("id", .string fields.id),
    ("default_value", .optString fields.defaultValue),
    ("min_value", .optNumber fields.minValue),
    ("max_value", .optNumber fields.maxValue),
    ("action", .optNamed fields.action),
    ("action_param", .optString fields.actionParam),
    ("help_box_type", .optNamed fields.severity),
    ("object_type", .optString fields.objectType),
    ("allow_scene_objects", .optBool fields.allowSceneObjects),
    ("space_height", .optInt fields.spaceHeight),
    ("foldout_default", .optBool fields.foldoutDefault),
    ("children", children),
    ("popup_options", .optStrings fields.popupOptions),
    ("progress_value", .optNumber fields.progressValue),
    ("tabs", .optStrings fields.tabs),
    ("disable_condition", .optString fields.disableCondition),
    ("header_text", .optString fields.headerText),
    ("font_size", .optInt fields.fontSize),
    ("font_style", .optNamed fields.fontStyle),
    ("text_alignment", .optNamed fields.alignment),
    ("box_style", .optString fields.boxStyle),
    ("opaque", .bool fields.isOpaque)]

mutual

/-- The saved form of an element. -/
def Element.toJson : Element → Json
  | .leaf fields => .object (fields.entries .null)
  | .group fields children => .object (fields.entries (.array (forestItems children)))

/-- The saved forms of elements. -/
def forestItems : List Element → List Json
  | [] => []
  | element :: rest => element.toJson :: forestItems rest

end

/-- The saved form of settings. -/
def Settings.toJson (settings : Settings) : Json :=
  .object
    [("class_name", .string settings.className),
      ("menu_path", .string settings.menuPath),
      ("window_title", .string settings.windowTitle),
      ("target_type_name", .string settings.targetType),
      ("settings_path", .string settings.settingsPath),
      ("settings_scope", .string (Named.name settings.settingsScope)),
      ("target_attribute_name", .string settings.targetAttribute),
      ("create_menu_path", .string settings.createMenuPath),
      ("require_components", .strings settings.requireComponents),
      ("namespace_name", .string settings.namespaceName),
      ("add_help_url", .bool settings.addHelpUrl),
      ("help_url", .string settings.helpUrl),
      ("interfaces", .strings settings.interfaces),
      ("class_attributes", .strings settings.classAttributes)]

/-- The saved form of a project. -/
def Project.toJson (project : Project) : Json :=
  .object
    [("name", .string project.name),
      ("id", .string project.id),
      ("class_kind", .string (Named.name project.kind)),
      ("settings", project.settings.toJson),
      ("elements", .array (forestItems project.elements)),
      ("created_at", .string project.createdAt),
      ("updated_at", .string project.updatedAt),
      ("using_statements", .strings project.usings),
      ("field_declarations", .strings project.fieldDeclarations),
      ("custom_methods", .strings project.customMethods),
      ("inner_types", .strings project.innerTypes),
      ("lifecycle_methods", .strings project.lifecycleMethods),
      ("outer_code", .strings project.outerCode),
      ("raw_gui_method_body", .string project.rawBody)]

/-- The text in which a project is saved. -/
def Project.dump (indent : Nat) (project : Project) : Text :=
  project.toJson.pretty indent

end EditorScript
