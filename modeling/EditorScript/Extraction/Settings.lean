import EditorScript.Extraction.Header
import EditorScript.Model.Project

/-!
# Settings in a source text

The settings of a script are read off attributes and well-known calls.  What is
not found keeps its default.
-/

namespace EditorScript

open Pattern

/-- A string without escapes that is not empty. -/
def plainString (name : String) : Pattern :=
  "\"" ++ capture name (many1 (noneOf "\"")) ++ "\""

/-- A string without escapes. -/
def anyPlainString (name : String) : Pattern :=
  "\"" ++ capture name (many (noneOf "\"")) ++ "\""

/-- An attribute of the engine with the start of its arguments. -/
def attributeCall (name : String) : Pattern :=
  opening (attributeOf engineNamespace name)

/-- An attribute of the engine whose argument is a type. -/
def attributeOfType (name : String) : Pattern :=
  attributeCall name ++ opening "typeof" ++ capture "type" dotted ++ blanks ++ ")"

/-- A path and a scope as arguments. -/
def scopeArguments : Pattern :=
  plainString "path" ++ comma ++ engineNamespace ++ "SettingsScope." ++ capture "scope" word

/-- The text that the first match of a pattern captures under a name. -/
def capturedIn? (pattern : Pattern) (name : String) (content : Text) : Option Text :=
  (pattern.search? content).map (·.captured name)

/-- Classes of the engine that scripts derive from. -/
def engineBases : List Text :=
  ["EditorWindow", "Editor", "MonoBehaviour", "ScriptableObject", "SettingsProvider",
    "PropertyDrawer", "AssetPostprocessor"]

/-- The name of an attribute without the word at the end of its class's name. -/
def attributeName (type : Text) : Text :=
  let name := shortTypeName type
  let suffix : Text := "Attribute"
  if name.endsWith suffix ∧ name ≠ suffix then name.take (name.length - suffix.length) else name

/-- Path and scope of a settings page: from the call of a constructor, or else
from the shape in which settings pages are generated. -/
def settingsPage (content : Text) (kind : ScriptKind) (className : Text) :
    Option Text × Option SettingsScope :=
  let call := (opening ("new" ++ blanks1 ++ engineNamespace ++ "SettingsProvider") ++
    scopeArguments).search? content
  let base := (opening (":" ++ blanks ++ "base") ++ scopeArguments).search? content
  match call.or base with
  | some found => (found.captured "path", Named.ofName? (found.captured "scope"))
  | none =>
    if kind = .settingsProvider then
      (capturedIn? (opening ("return" ++ blanks1 ++ "new" ++ blanks1 ++ text className) ++
          plainString "path") "path" content,
        (capturedIn? ("SettingsScope" ++ blanks1 ++ word ++ blanks ++ "=" ++ blanks ++
          engineNamespace ++ "SettingsScope." ++ capture "scope" word) "scope" content).bind
          Named.ofName?)
    else (none, none)

/-- The settings in a source text, given its kind and the header of its class. -/
def extractSettings (content : Text) (kind : ScriptKind) (className : Text) (bases : List Text) :
    Settings :=
  let missing : Settings := {}
  let menu := capturedIn? (attributeCall "MenuItem" ++ plainString "path") "path" content
  let component :=
    capturedIn? (attributeCall "AddComponentMenu" ++ plainString "path") "path" content
  let title :=
    (capturedIn? (opening ("GetWindow" ++ opt ("<" ++ dotted ++ ">")) ++ anyPlainString "title")
      "title" content).or
    (capturedIn? (opening ("titleContent" ++ blanks ++ "=" ++ blanks ++ "new" ++ blanks1 ++
      "GUIContent") ++ anyPlainString "title") "title" content)
  let (path, scope) := settingsPage content kind className
  let help := capturedIn? (attributeCall "HelpURL" ++ plainString "url") "url" content
  { className
    menuPath := (component.or menu).getD missing.menuPath
    windowTitle := title.getD missing.windowTitle
    targetType := (capturedIn? (attributeOfType "CustomEditor") "type" content).getD
      missing.targetType
    settingsPath := path.getD missing.settingsPath
    settingsScope := scope.getD missing.settingsScope
    targetAttribute := ((capturedIn? (attributeOfType "CustomPropertyDrawer") "type" content).map
      attributeName).getD missing.targetAttribute
    createMenuPath := (capturedIn? (attributeOf engineNamespace "CreateAssetMenu" ++ blanks ++
      "(" ++ many (noneOf ")") ++ "menuName" ++ blanks ++ "=" ++ blanks ++ plainString "path")
      "path" content).getD missing.createMenuPath
    requireComponents := ((attributeOfType "RequireComponent").findAll content).map
      (·.captured "type")
    namespaceName := (capturedIn? (lineStart ++ blanks ++ "namespace" ++ blanks1 ++
      capture "name" dotted) "name" content).getD missing.namespaceName
    addHelpUrl := help.isSome
    helpUrl := help.getD missing.helpUrl
    interfaces := bases.filter fun base => !engineBases.contains (shortTypeName base)
    classAttributes := [] }

end EditorScript
