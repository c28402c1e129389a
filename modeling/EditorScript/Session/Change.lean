import EditorScript.Model.Project

/-!
# Changes of single fields

An update of an element or of the settings is a list of changes, each of which
gives one field a new value.
-/

namespace EditorScript

/-- A new value for one field of an element. -/
inductive ElementChange where
  | widget (value : Widget)
  | label (value : Text)
  | variableName (value : Text)
  | id (value : Text)
  | defaultValue (value : Option Text)
  | minValue (value : Option Binary64)
  | maxValue (value : Option Binary64)
  | action (value : Option ButtonAction)
  | actionParam (value : Option Text)
  | severity (value : Option Severity)
  | objectType (value : Option Text)
  | allowSceneObjects (value : Option Bool)
  | spaceHeight (value : Option Int)
  | foldoutDefault (value : Option Bool)
  | children (value : Option (List Element))
  | popupOptions (value : Option (List Text))
  | progressValue (value : Option Binary64)
  | tabs (value : Option (List Text))
  | disableCondition (value : Option Text)
  | headerText (value : Option Text)
  | fontSize (value : Option Int)
  | fontStyle (value : Option FontStyle)
  | alignment (value : Option Alignment)
  | boxStyle (value : Option Text)
  | isOpaque (value : Bool)
  /-- A value that is no widget, no id or no forest where one belongs. -/
  | misfit
  /-- A field that elements do not have. -/
  | unknown

namespace ElementChange

/-- Whether the change concerns what an element is and where it stands. -/
def isStructural : ElementChange → Bool
  | widget _ | id _ | children _ | misfit => true
  | _ => false

/-- Whether the change names a field that elements do not have. -/
def isUnknown : ElementChange → Bool
  | unknown => true
  | _ => false

/-- The fields with a change made. -/
def onFields (fields : ElementFields) : ElementChange → ElementFields
  | widget value => { fields with widget := value }
  | label value => { fields with label := value }
  | variableName value => { fields with variableName := value }
  | id value => { fields with id := value }
  | defaultValue value => { fields with defaultValue := value }
  | minValue value => { fields with minValue := value }
  | maxValue value => { fields with maxValue := value }
  | action value => { fields with action := value }
  | actionParam value => { fields with actionParam := value }
  | severity value => { fields with severity := value }
  | objectType value => { fields with objectType := value }
  | allowSceneObjects value => { fields with allowSceneObjects := value }
  | spaceHeight value => { fields with spaceHeight := value }
  | foldoutDefault value => { fields with foldoutDefault := value }
  | children _ => fields
  | popupOptions value => { fields with popupOptions := value }
  | progressValue value => { fields with progressValue := value }
  | tabs value => { fields with tabs := value }
  | disableCondition value => { fields with disableCondition := value }
  | headerText value => { fields with headerText := value }
  | fontSize value => { fields with fontSize := value }
  | fontStyle value => { fields with fontStyle := value }
  | alignment value => { fields with alignment := value }
  | boxStyle value => { fields with boxStyle := value }
  | isOpaque value => { fields with isOpaque := value }
  | misfit => fields
  | unknown => fields

/-- The element with a change made. -/
def apply (element : Element) : ElementChange → Element
  | children value => element.withChildren value
  | change => element.mapFields fun fields => onFields fields change

/-- The element with several changes made. -/
def applyAll (changes : List ElementChange) (element : Element) : Element :=
  changes.foldl apply element

end ElementChange

/-- A new value for one of the settings. -/
inductive SettingsChange where
  | className (value : Text)
  | menuPath (value : Text)
  | windowTitle (value : Text)
  | targetType (value : Text)
  | settingsPath (value : Text)
  | settingsScope (value : SettingsScope)
  | targetAttribute (value : Text)
  | createMenuPath (value : Text)
  | requireComponents (value : List Text)
  | namespaceName (value : Text)
  | addHelpUrl (value : Bool)
  | helpUrl (value : Text)
  | interfaces (value : List Text)
  | classAttributes (value : List Text)
  /-- A setting that does not exist. -/
  | unknown
deriving DecidableEq, Repr

namespace SettingsChange

/-- Whether the change names a setting that does not exist. -/
def isUnknown : SettingsChange → Bool
  | unknown => true
  | _ => false

/-- The settings with a change made. -/
def apply (settings : Settings) : SettingsChange → Settings
  | className value => { settings with className := value }
  | menuPath value => { settings with menuPath := value }
  | windowTitle value => { settings with windowTitle := value }
  | targetType value => { settings with targetType := value }
  | settingsPath value => { settings with settingsPath := value }
  | settingsScope value => { settings with settingsScope := value }
  | targetAttribute value => { settings with targetAttribute := value }
  | createMenuPath value => { settings with createMenuPath := value }
  | requireComponents value => { settings with requireComponents := value }
  | namespaceName value => { settings with namespaceName := value }
  | addHelpUrl value => { settings with addHelpUrl := value }
  | helpUrl value => { settings with helpUrl := value }
  | interfaces value => { settings with interfaces := value }
  | classAttributes value => { settings with classAttributes := value }
  | unknown => settings

/-- The settings with several changes made. -/
def applyAll (changes : List SettingsChange) (settings : Settings) : Settings :=
  changes.foldl apply settings

end SettingsChange

end EditorScript
