import EditorScript.Extraction.Member

/-!
# Code around the class

Types in front of the main class and whatever follows it are kept as fragments
of source.
-/

namespace EditorScript

open Pattern

/-- Nested braces behind a line that starts at a depth; closing braces without an
opening one do not count. -/
def depthBehind (depth : Nat) (line : Text) : Nat :=
  (depth + braceDelta line).toNat

/-- The lines without generated markers and without the closing braces that
belong to what surrounds them. -/
def ownLines (depth : Nat) : List Text → List Text
  | [] => []
  | line :: rest =>
    if generatedMarkers.contains (Text.trim line) then ownLines depth rest
    else if depth = 0 ∧ codeOf line = ['}'] then ownLines depth rest
    else line :: ownLines (depthBehind depth line) rest

/-- The lines cut in front of each type outside braces, together with the
attributes and comments directly above it.  `current` is the piece read so far. -/
def typeChunks (depth : Nat) (current : List Text) : List Text → List (List Text)
  | [] => [current]
  | line :: rest =>
    if depth = 0 ∧ typeHeader.accepts (codeOf line) ∧ current ≠ [] then
      let kept := current.length - leadingRun false current.reverse
      current.take kept ::
        typeChunks (depthBehind depth line) (current.drop kept ++ [line]) rest
    else typeChunks (depthBehind depth line) (current ++ [line]) rest

/-- The fragments in the lines behind the main class. -/
def splitOuterCode (lines : List Text) : List Text :=
  ((typeChunks 0 [] (ownLines 0 lines)).map fun chunk =>
    Text.trim (Text.dedent (Text.unlines chunk))).filter (!·.isEmpty)

/-- Whether a type is the empty attribute class that is generated for a property
drawer, given its lines from the header on. -/
def isMarkerAttribute (settings : Settings) (lines : List Text) (block : Block) : Bool :=
  match ClassHeader.ofCode? 0 (codeOf (lines.headD [])) with
  | none => false
  | some header =>
    header.name == settings.targetAttribute ++ "Attribute" &&
      (shortBases header.bases).contains "PropertyAttribute".toList &&
      (codeOf (Text.join " " (block.bodyLines lines))).isEmpty

/-- The types among the lines in front of the main class.  `above` are the lines
already read, the nearest one first. -/
def typesBefore (kind : ScriptKind) (settings : Settings) (above : List Text)
    (lines : List Text) : List Text :=
  match lines with
  | [] => []
  | line :: rest =>
    if typeHeader.accepts (codeOf line) then
      match findBlock? (line :: rest) 0 with
      | none => []
      | some block =>
        let own := (line :: rest).take (block.endLine + 1)
        let others := typesBefore kind settings (own.reverse ++ above) (rest.drop block.endLine)
        if kind = .propertyDrawer ∧ isMarkerAttribute settings (line :: rest) block then others
        else
          let leading := (above.take (leadingRun false above)).reverse
          Text.dedent (Text.unlines (leading ++ own)) :: others
    else typesBefore kind settings (line :: above) rest
termination_by lines.length
decreasing_by
  · simp only [List.length_drop, List.length_cons]
    omega
  · simp

end EditorScript
