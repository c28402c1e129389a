import EditorScript.Model.Element

/-!
# Projects

A project is what is edited and saved: the kind of script with its settings, the
forest of elements, and the fragments of source code that are kept as they are.
-/

namespace EditorScript

/-- The settings of all kinds of scripts; each kind uses the ones it needs. -/
structure Settings where
  className : Text := "MyTool"
  menuPath : Text := "Tools/My Tool"
  windowTitle : Text := "My Tool"
  targetType : Text := []
  settingsPath : Text := "Preferences/My Settings"
  settingsScope : SettingsScope := .user
  targetAttribute : Text := "MyAttribute"
  createMenuPath : Text := "ScriptCraft/My Data"
  requireComponents : List Text := []
  namespaceName : Text := []
  addHelpUrl : Bool := false
  helpUrl : Text := []
  interfaces : List Text := []
  classAttributes : List Text := []
deriving DecidableEq, Repr

/-- A script with everything that is needed to write its source.  The raw body
counts only while there are no elements. -/
structure Project where
  name : Text
  id : Text := []
  kind : ScriptKind := .editorWindow
  settings : Settings := {}
  elements : Forest := []
  createdAt : Text := []
  updatedAt : Text := []
  usings : List Text := []
  fieldDeclarations : List Text := []
  customMethods : List Text := []
  innerTypes : List Text := []
  lifecycleMethods : List Text := []
  outerCode : List Text := []
  rawBody : Text := []
deriving DecidableEq, Repr

/-- What is new at one moment: the id that a thing made then gets, and the time. -/
structure Stamp where
  id : Text
  time : Text
deriving DecidableEq, Repr

namespace Project

/-- The name of a project that nobody has named. -/
def defaultName : Text := "New Project"

/-- An empty project for an editor window. -/
def create (stamp : Stamp) (name : Option Text) : Project :=
  { name := name.getD defaultName
    id := stamp.id
    createdAt := stamp.time
    updatedAt := stamp.time }

/-- The project without what distinguishes one making of it from another: ids
and times. -/
def withoutIds (project : Project) : Project :=
  { project with
    id := []
    createdAt := []
    updatedAt := []
    elements := Forest.mapFields (fun fields => { fields with id := [] }) project.elements }

/-- Whether two projects hold the same but for ids and times.  A number that is
none differs from itself. -/
def sameContent (project other : Project) : Bool :=
  project.withoutIds = other.withoutIds &&
    !(Forest.flatten project.elements).any fun element => element.fields.hasNaN

end Project

end EditorScript
