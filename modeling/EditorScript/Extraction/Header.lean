import EditorScript.Model.Vocabulary
import EditorScript.Pattern.Combinators
import EditorScript.Source.Scan

/-!
# Imports and headers of types

What can be told from single lines of code: imports, the headers of types, the
classes that a class derives from, attributes, and the names of methods.
-/

namespace EditorScript

open Pattern

/-- Any number of modifiers in front of a type. -/
def typeModifiers : Pattern :=
  many (firstOf ["public", "private", "protected", "internal", "static", "sealed", "abstract",
    "partial", "readonly", "unsafe", "new"] ++ blanks1)

/-- The header of any type. -/
def typeHeader : Pattern :=
  start ++ typeModifiers ++ firstOf ["class", "struct", "enum", "interface", "record"] ++ blanks1 ++
    word

/-- The header of a class with its name and its bases. -/
def classHeader : Pattern :=
  start ++ typeModifiers ++ "class" ++ blanks1 ++ capture "name" word ++
    opt (blanks ++ "<" ++ many (noneOf ">") ++ ">") ++ blanks ++
    opt (":" ++ blanks ++ capture "bases" (many1 (noneOf "\x7b")))

/-- A line that holds attributes only. -/
def attributeLine : Pattern :=
  start ++ "[" ++ many inLine ++ "]" ++ finish

/-- An import. -/
def importLine : Pattern :=
  start ++ "using" ++ blanks1 ++ many1 (noneOf "(") ++ ";" ++ finish

/-- The signature of a method up to its parameters. -/
def methodSignature : Pattern :=
  start ++
    many (firstOf ["public", "private", "protected", "internal", "static", "override", "virtual",
      "abstract", "sealed", "new", "async", "extern", "unsafe", "partial"] ++ blanks1) ++
    few (many1 (one fun c => isWord c || "<>[],.?".toList.contains c) ++ blanks1) ++
    capture "name" word ++ blanks ++ opt ("<" ++ many (noneOf ">") ++ ">") ++ blanks ++ "("

/-- Words in front of a parenthesis that name no method. -/
def notMethodNames : List Text :=
  ["if", "for", "foreach", "while", "switch", "using", "return", "new", "lock", "catch", "base",
    "this"]

/-- The namespace that a type or an attribute of the engine may be qualified with. -/
def engineNamespace : Pattern :=
  opt ("Unity" ++ either "Editor" "Engine" ++ ".")

/-- The imports of a source text, each one once. -/
def importsOf (content : Text) : List Text :=
  (content.lines.map codeOf).foldl (fun imports code =>
    if importLine.accepts code && !imports.contains code then imports ++ [code] else imports) []

/-- The pieces between the commas outside angle brackets; `depth` brackets are
open and `current` is the piece read so far. -/
def splitCommas (depth : Int) (current : Text) : Text → List Text
  | [] => [current]
  | c :: rest =>
    let depth := if c = '<' then depth + 1 else if c = '>' then depth - 1 else depth
    if c = ',' ∧ depth = 0 then current :: splitCommas depth [] rest
    else splitCommas depth (current ++ [c]) rest

/-- The bases in a class header, constraints on type parameters left out. -/
def splitBases (bases : Text) : List Text :=
  let listed := match (boundary ++ "where" ++ boundary).searchFrom none bases with
    | some (before, _) => before
    | none => bases
  ((splitCommas 0 [] listed).map Text.trim).filter (!·.isEmpty)

/-- A type without the namespace in front of it; its arguments stay as written. -/
def shortTypeName (name : Text) : Text :=
  let head := name.takeWhile (· != '<')
  let last := (head.reverse.takeWhile (· != '.')).reverse
  Text.trim last ++ name.dropWhile (· != '<')

/-- The bases in a class header without their namespaces. -/
def shortBases (bases : Text) : List Text :=
  (splitBases bases).map shortTypeName

/-- The name of the method whose signature starts a line of code. -/
def methodName? (code : Text) : Option Text :=
  (methodSignature.match? code).bind fun found =>
    let name := found.captured "name"
    if notMethodNames.contains name || (code.takeWhile (· != '(')).contains '=' then none
    else some name

/-- Number of lines at the front that are attributes or line comments.  With
`acrossBlank`, blank lines between them count too. -/
def leadingRun (acrossBlank : Bool) : List Text → Nat
  | [] => 0
  | line :: rest =>
    let line := Text.trim line
    if attributeLine.accepts line || line.startsWith "//" then 1 + leadingRun acrossBlank rest
    else if acrossBlank && line.isEmpty then
      match leadingRun acrossBlank rest with
      | 0 => 0
      | count + 1 => count + 2
    else 0

/-- A class header among the lines of a source: its line, the name of the class,
and its bases. -/
structure ClassHeader where
  line : Nat
  name : Text
  bases : Text
deriving DecidableEq, Repr

/-- The class header on a line of code. -/
def ClassHeader.ofCode? (line : Nat) (code : Text) : Option ClassHeader :=
  (classHeader.match? code).map fun found =>
    ⟨line, found.captured "name", found.captured "bases"⟩

/-- The class headers among lines numbered from `number` on. -/
def classHeadersFrom (number : Nat) : List Text → List ClassHeader
  | [] => []
  | line :: rest =>
    (ClassHeader.ofCode? number (codeOf line)).toList ++ classHeadersFrom (number + 1) rest

/-- Whether a type of the engine is named as a base somewhere in a text. -/
def derivesFrom (qualifier : Pattern) (type : String) : Pattern :=
  ":" ++ blanks ++ qualifier ++ type ++ boundary

/-- An attribute of the engine up to its name. -/
def attributeOf (qualifier : Pattern) (name : Pattern) : Pattern :=
  "[" ++ blanks ++ qualifier ++ name

/-- The attribute of a method that makes a settings page. -/
def settingsProviderAttribute : Pattern :=
  attributeOf engineNamespace "SettingsProvider" ++ blanks ++ "]"

/-- The signs of each kind of script, the kind that counts first in front. -/
def kindSigns : List (ScriptKind × List Pattern) :=
  [(.editorWindow, [derivesFrom engineNamespace "EditorWindow"]),
    (.customEditor,
      [attributeOf engineNamespace "CustomEditor" ++ blanks ++ "(",
        derivesFrom engineNamespace "Editor"]),
    (.monoBehaviour, [derivesFrom engineNamespace "MonoBehaviour"]),
    (.scriptableObject, [derivesFrom engineNamespace "ScriptableObject"]),
    (.settingsProvider,
      [settingsProviderAttribute, derivesFrom engineNamespace "SettingsProvider"]),
    (.propertyDrawer, [derivesFrom engineNamespace "PropertyDrawer"])]

/-- The kind of script that a source text holds. -/
def detectKind (content : Text) : ScriptKind :=
  match kindSigns.find? fun (_, signs) => signs.any (·.occurs content) with
  | some (kind, _) => kind
  | none => .editorWindow

/-- What speaks for a file to be the main one of several, and how much. -/
def scoreSigns : List (Pattern × Nat) :=
  let editor := opt "UnityEditor."
  let engine := opt "UnityEngine."
  [(derivesFrom editor "EditorWindow", 10),
    (derivesFrom editor "Editor", 8),
    (attributeOf editor "CustomEditor", 8),
    (either "OnGUI" "OnInspectorGUI", 5),
    (attributeOf editor "MenuItem", 3),
    (derivesFrom engine "MonoBehaviour", 2),
    (derivesFrom engine "ScriptableObject", 2)]

/-- How much speaks for a file to be the main one of several. -/
def score (content : Text) : Nat :=
  scoreSigns.foldl (fun total (sign, points) =>
    if sign.occurs content then total + points else total) 0

end EditorScript
