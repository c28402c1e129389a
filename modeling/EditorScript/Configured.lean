import EditorScript.Config.Basic
import EditorScript.Emission.Template
import EditorScript.File.Utf8
import EditorScript.Imported.Folder

/-!
# Reading and writing under a configuration

The configuration sets the width of a level and the quality gate.  It is asked
only where an indentation is written or a body is read, so unusable values do no
harm before that.
-/

namespace EditorScript

/-- Why something cannot be done. -/
inductive Problem where
  | config (error : ConfigError)
  | emission (error : EmissionError)
  /-- Source code with a whole number of too many digits. -/
  | longNumber
  /-- A saved project that is not a text. -/
  | encoding (error : Utf8Error)
deriving DecidableEq, Repr

namespace Config

/-- The configured width of a level. -/
def width (config : Config) : Except Problem Nat :=
  config.indentWidth.mapError .config

/-- The source of a project. -/
def source (config : Config) (project : Project) : Except Problem Text := do
  let width ← config.width
  (project.source width).mapError .emission

/-- The texts of the elements at a level, each one on its own and all together. -/
def rendered (config : Config) (level : Nat) (kind : ScriptKind) (forest : Forest) :
    Except Problem (List Text × Text) :=
  if forest.isEmpty then .ok ([], [])
  else do
    let width ← config.width
    let each ← (forest.mapM (Element.render width level kind)).mapError .emission
    pure (each, Text.join "\n\n" (each.filter (!·.isEmpty)))

/-- The statements that a click on a button runs, none without an action. -/
def actionCode (config : Config) (level : Nat) (kind : ScriptKind) (fields : ElementFields) :
    Except ConfigError Text :=
  match fields.action with
  | none | some .none => .ok []
  | _ => config.indentWidth.map fun width => fields.actionCode width level kind

/-- The quality gate that is given, or else the configured one. -/
def gateOr (config : Config) : Option Gate → Except ConfigError Gate
  | some gate => .ok gate
  | none => config.gate

/-- The project in a file, the gate given or configured. -/
def importFile (config : Config) (stamp : Stamp) (gate : Option Gate) (file : SourceFile) :
    Except Problem Imported :=
  let (outline, warnings) := Outline.ofSource file.content
  let imported := Imported.ofOutline stamp file.name outline warnings
  match outline.body.guiBody? with
  | none => .ok imported
  | some lines => do
    let gate ← (config.gateOr gate).mapError .config
    let body := Text.unlines lines
    let recovered := recover body
    if recovered.elements.hasLongNumber then .error .longNumber
    else .ok (imported.withRecovered stamp gate body recovered)

/-- The project in several files, the gate given or configured. -/
def importFolder (config : Config) (stamp : Stamp) (gate : Option Gate)
    (files : List SourceFile) : Except Problem Imported :=
  match mainFile? (files.filter (·.isSource)) with
  | some (main, others) =>
    (config.importFile stamp gate main).map (·.addFiles main others)
  | none => .ok (.ofNothing stamp)

/-- With a given gate the configuration does not matter: unless a number is too
long, the project is the one that the gate alone decides about. -/
theorem importFile_some (config : Config) (stamp : Stamp) (gate : Gate) (file : SourceFile) :
    config.importFile stamp (some gate) file = .error .longNumber ∨
      config.importFile stamp (some gate) file = .ok (EditorScript.importFile stamp gate file) := by
  unfold importFile EditorScript.importFile Imported.withBody
  dsimp only
  cases (Outline.ofSource file.content).1.body.guiBody? with
  | none => exact Or.inr rfl
  | some lines =>
    by_cases h : (recover (Text.unlines lines)).elements.hasLongNumber
    · exact Or.inl (if_pos h)
    · exact Or.inr (if_neg h)

end Config

end EditorScript
