import EditorScript.Persistence.Reading
import EditorScript.Session.Change

/-!
# Reading changes

The changes of an update are written as an object: each key names a field, each
value is the field's new one.
-/

namespace EditorScript

/-- A change of structure, which is left out again unless its value fits. -/
def structural {α : Type} (change : α → ElementChange) : Checked α → Checked ElementChange
  | .valid value => .valid (change value)
  | .faulty _ => .valid .misfit

/-- The change of an element that one entry of an update asks for. -/
def ElementChange.ofEntry (freshId key : Text) (value : Json) : Checked ElementChange :=
  match String.ofList key with
  | "type" => structural .widget value.toNamed
  | "label" => .label <$> value.toText
  | "variable_name" => .variableName <$> value.toText
  | "id" => structural .id value.toText
  | "default_value" => .defaultValue <$> value.toOption Json.toText
  | "min_value" => .minValue <$> value.toOption (Json.toNumber .value)
  | "max_value" => .maxValue <$> value.toOption (Json.toNumber .value)
  | "action" => .action <$> value.toOption Json.toNamed
  | "action_param" => .actionParam <$> value.toOption Json.toText
  | "help_box_type" => .severity <$> value.toOption Json.toNamed
  | "object_type" => .objectType <$> value.toOption Json.toText
  | "allow_scene_objects" => .allowSceneObjects <$> value.toOption Json.toBool
  | "space_height" => .spaceHeight <$> value.toOption Json.toInt
  | "foldout_default" => .foldoutDefault <$> value.toOption Json.toBool
  | "children" => structural .children (value.toOption (Json.toForest .value freshId))
  | "popup_options" => .popupOptions <$> value.toOption (Json.toList Json.toText)
  | "progress_value" => .progressValue <$> value.toOption (Json.toNumber .value)
  | "tabs" => .tabs <$> value.toOption (Json.toList Json.toText)
  | "disable_condition" => .disableCondition <$> value.toOption Json.toText
  | "header_text" => .headerText <$> value.toOption Json.toText
  | "font_size" => .fontSize <$> value.toOption Json.toInt
  | "font_style" => .fontStyle <$> value.toOption Json.toNamed
  | "text_alignment" => .alignment <$> value.toOption Json.toNamed
  | "box_style" => .boxStyle <$> value.toOption Json.toText
  | "opaque" => .isOpaque <$> value.toBool
  | _ => .valid .unknown

/-- The change of the settings that one entry of an update asks for. -/
def SettingsChange.ofEntry (key : Text) (value : Json) : Checked SettingsChange :=
  match String.ofList key with
  | "class_name" => .className <$> value.toText
  | "menu_path" => .menuPath <$> value.toText
  | "window_title" => .windowTitle <$> value.toText
  | "target_type_name" => .targetType <$> value.toText
  | "settings_path" => .settingsPath <$> value.toText
  | "settings_scope" => .settingsScope <$> value.toNamed
  | "target_attribute_name" => .targetAttribute <$> value.toText
  | "create_menu_path" => .createMenuPath <$> value.toText
  | "require_components" => .requireComponents <$> value.toList Json.toText
  | "namespace_name" => .namespaceName <$> value.toText
  | "add_help_url" => .addHelpUrl <$> value.toBool
  | "help_url" => .helpUrl <$> value.toText
  | "interfaces" => .interfaces <$> value.toList Json.toText
  | "class_attributes" => .classAttributes <$> value.toList Json.toText
  | _ => .valid .unknown

/-- The entries of an update, each one read on its own. -/
def changesOf {α : Type} (read : Text → Json → Checked α) : List (Text × Json) →
    Checked (List α)
  | [] => .valid []
  | (key, value) :: entries => List.cons <$> read key value <*> changesOf read entries

end EditorScript
