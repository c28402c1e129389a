import EditorScript.Extraction.Outline
import EditorScript.File.Path
import EditorScript.Imported.Absorption
import EditorScript.Number.Layout
import EditorScript.Recovery.Body
import EditorScript.Recovery.Gate

/-!
# Scripts read from a file

The outline of a source text becomes a project.  The body of the method that
draws the elements is turned into elements, or kept as it is when too much of it
is not recognised.
-/

namespace EditorScript

/-- A file with its text. -/
structure SourceFile where
  name : Text
  content : Text
deriving DecidableEq, Repr

/-- A project that was read from source, and what is to be said about it. -/
structure Imported where
  project : Project
  warnings : List Text := []
deriving DecidableEq, Repr

/-- Whether a body holds more than what is written around no elements at all. -/
def ScriptKind.hasContent (kind : ScriptKind) (body : Text) : Bool :=
  body.lines.any fun line =>
    let line := Text.trim line
    !line.isEmpty && line != emptyGuiComment &&
      !(kind.guiPrologue ++ kind.guiEpilogue).contains line

/-- What is said when a body is kept as it is. -/
def rawBodyWarning (elements : Forest) : Text :=
  "Complex GUI code (" ++ natText (Gate.opaqueCount elements) ++ " of " ++
    natText elements.length ++ " statements not recognised): loaded in raw-body mode"

namespace Imported

/-- Gives a project the elements that were recovered from a body. -/
def withRecovered (stamp : Stamp) (gate : Gate) (imported : Imported) (body : Text)
    (recovered : Recovered) : Imported :=
  let project := imported.project
  let raw := body.dedent
  let warnings := imported.warnings ++ recovered.warnings
  if recovered.elements.isEmpty then
    ⟨{ project with
      elements := []
      rawBody := if project.kind.hasContent raw then raw else [] }, warnings⟩
  else if gate.fallsBack recovered.elements then
    ⟨{ project with elements := [], rawBody := raw },
      warnings ++ [rawBodyWarning recovered.elements]⟩
  else
    ⟨Project.absorb { project with
      elements := Forest.mapFields (fun fields => { fields with id := stamp.id })
        recovered.elements
      rawBody := [] }, warnings⟩

/-- Turns a body into the elements of a project. -/
def withBody (stamp : Stamp) (gate : Gate) (imported : Imported) (body : Text) : Imported :=
  imported.withRecovered stamp gate body (recover body)

/-- The project with an outline, its elements left out. -/
def ofOutline (stamp : Stamp) (path : Text) (outline : Outline) (warnings : List Text) :
    Imported :=
  let project := { Project.create stamp (displayName path) with
    kind := outline.kind
    settings := outline.settings
    usings := outline.usings }
  if outline.foundClass then
    ⟨{ project with
      name := (present? (some outline.settings.className)).getD project.name
      fieldDeclarations := outline.body.texts .field
      innerTypes := outline.body.texts .innerType
      lifecycleMethods := outline.body.texts .lifecycle
      customMethods := outline.body.texts .custom
      outerCode := outline.outerCode }, warnings⟩
  else ⟨project, warnings⟩

end Imported

/-- The project in a file. -/
def importFile (stamp : Stamp) (gate : Gate) (file : SourceFile) : Imported :=
  let (outline, warnings) := Outline.ofSource file.content
  let imported := Imported.ofOutline stamp file.name outline warnings
  match outline.body.guiBody? with
  | some body => imported.withBody stamp gate (Text.unlines body)
  | none => imported

end EditorScript
