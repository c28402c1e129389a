import EditorScript.Source.Scan

/-!
# Balanced blocks

The first opening brace among the code characters and the closing brace that
returns to the depth before it delimit a block of lines.
-/

namespace EditorScript

/-- A block found from line `startLine` on: its opening brace, its closing brace
and the lines and columns of both. -/
structure Block where
  startLine : Nat
  openLine : Nat
  openColumn : Nat
  endLine : Nat
  closeColumn : Nat
deriving DecidableEq, Repr

/-- The closing brace that leaves `depth` enclosing blocks and then one more. -/
def closingBrace? : Nat → List CodeChar → Option CodeChar
  | _, [] => none
  | depth, c :: rest =>
    if c.char = '{' then closingBrace? (depth + 1) rest
    else if c.char = '}' then
      match depth with
      | 0 => some c
      | outer + 1 => closingBrace? outer rest
    else closingBrace? depth rest

/-- The first block at or after line `start`; none without an opening brace and
none when its block never closes. -/
def findBlock? (lines : List Text) (start : Nat) : Option Block :=
  match (codeChars lines start).dropWhile (·.char != '{') with
  | [] => none
  | opening :: rest =>
    (closingBrace? 0 rest).map fun closing =>
      ⟨start, opening.line, opening.column, closing.line, closing.column⟩

/-- The lines numbered from `start` up to `stop`, which is left out. -/
def slice (lines : List Text) (start stop : Nat) : List Text :=
  (lines.take stop).drop start

namespace Block

/-- The text from the first line of the search to the line of the closing brace. -/
def text (block : Block) (lines : List Text) : Text :=
  Text.unlines (slice lines block.startLine (block.endLine + 1))

/-- A piece of the brace's own line, when there is something on it. -/
def piece (part : Text) (shown : Text) : List Text :=
  if part.blank then [] else [shown]

/-- The lines strictly between the braces.  What shares a line with the opening
brace is trimmed, all other lines keep their indentation. -/
def bodyLines (block : Block) (lines : List Text) : List Text :=
  let openRest := ((lines.getD block.openLine []).drop (block.openColumn + 1))
  if block.openLine = block.endLine then
    [Text.trim (openRest.take (block.closeColumn - (block.openColumn + 1)))]
  else
    let closeStart := (lines.getD block.endLine []).take block.closeColumn
    piece openRest (Text.trim openRest) ++
      slice lines (block.openLine + 1) block.endLine ++
      piece closeStart closeStart

/-- The text strictly between the braces. -/
def body (block : Block) (lines : List Text) : Text :=
  Text.unlines (block.bodyLines lines)

end Block

end EditorScript
