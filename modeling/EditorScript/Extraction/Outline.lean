import EditorScript.Extraction.OuterCode

/-!
# Outline of a source text

Everything about a script that can be told from its source without looking into
the method that draws its elements.
-/

namespace EditorScript

open Pattern

/-- The parts of a source text. -/
structure Outline where
  usings : List Text
  kind : ScriptKind
  settings : Settings := {}
  /-- Whether the class was found with its body. -/
  foundClass : Bool := false
  body : ClassBody := ⟨[], none⟩
  outerCode : List Text := []
deriving DecidableEq, Repr

/-- Attributes that are generated for a kind of script. -/
def ScriptKind.ownAttributes : ScriptKind → List Text
  | .customEditor => ["CustomEditor"]
  | .monoBehaviour => ["RequireComponent", "HelpURL"]
  | .scriptableObject => ["CreateAssetMenu"]
  | .propertyDrawer => ["CustomPropertyDrawer"]
  | _ => []

/-- The attributes of a class that are kept, given the lines above its header. -/
def classAttributes (kind : ScriptKind) (lines : List Text) : List Text :=
  (lines.map codeOf).filter fun code =>
    attributeLine.accepts code &&
      !kind.ownAttributes.any fun name =>
        (start ++ attributeOf engineNamespace (text name) ++ boundary).accepts code

/-- The main class of a script: the first one with the base of its kind, or else
the first one. -/
def mainHeader? (kind : ScriptKind) (headers : List ClassHeader) : Option ClassHeader :=
  (headers.find? fun header => (shortBases header.bases).contains kind.baseClass).or headers.head?

/-- The outline of a source text, with warnings where no class is found. -/
def Outline.ofSource (content : Text) : Outline × List Text :=
  let lines := (Text.withoutReturns content).lines
  let kind := detectKind content
  let outline : Outline := { usings := importsOf content, kind }
  match mainHeader? kind (classHeadersFrom 0 lines) with
  | none => (outline, ["No class definition found"])
  | some header =>
    let settings := extractSettings content kind header.name (splitBases header.bases)
    match findBlock? lines header.line with
    | none =>
      ({ outline with settings }, [("Class body not found for " : Text) ++ header.name])
    | some block =>
      let above := lines.take header.line
      let attributesStart := header.line - leadingRun true above.reverse
      let settings :=
        { settings with classAttributes := classAttributes kind (above.drop attributesStart) }
      let inside := slice lines (block.openLine + 1) block.endLine
      ({ outline with
          settings
          foundClass := true
          body := .ofLines kind header.name inside
          outerCode :=
            typesBefore kind settings [] (lines.take attributesStart) ++
              splitOuterCode (lines.drop (block.endLine + 1)) }, [])

end EditorScript
