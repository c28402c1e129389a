import EditorScript.Text.Basic

/-!
# Indentation of code fragments

A fragment is kept without the margin its lines share (`dedent`) and written
with a margin of the level it is placed at (`reindent`).  Tabs count as blanks
up to the next multiple of four columns.
-/

namespace EditorScript

namespace Text

/-- Number of columns between two tab stops. -/
def tabWidth : Nat := 4

/-- The text with every tab replaced by blanks up to the next tab stop, the
first character standing in the given column.  Columns start anew after a
newline or a carriage return. -/
def expandTabsFrom : Nat → Text → Text
  | _, [] => []
  | column, c :: rest =>
    if c = '\t' then
      let width := tabWidth - column % tabWidth
      List.replicate width ' ' ++ expandTabsFrom (column + width) rest
    else if c = '\n' ∨ c = '\r' then c :: expandTabsFrom 0 rest
    else c :: expandTabsFrom (column + 1) rest

/-- The text with its tabs replaced by blanks. -/
def expandTabs (text : Text) : Text :=
  expandTabsFrom 0 text

/-- Number of blanks a line begins with. -/
def margin (line : Text) : Nat :=
  (line.takeWhile (· == ' ')).length

/-- Whether the line holds blanks only. -/
def onlySpaces (line : Text) : Bool :=
  line.all (· == ' ')

/-- The margin that all lines with other characters than blanks share; zero
when there is no such line. -/
def commonMargin (pieces : List Text) : Nat :=
  ((pieces.filter fun line => !onlySpaces line).map margin).min?.getD 0

/-- The line without its first `width` blanks; a line of blanks becomes empty. -/
def removeMargin (width : Nat) (line : Text) : Text :=
  if onlySpaces line then [] else line.drop width

/-- The text without newlines at its two ends. -/
def trimNewlines (text : Text) : Text :=
  dropRightWhile (· == '\n') (text.dropWhile (· == '\n'))

/-- A fragment without its common margin and without empty lines at its two
ends, tabs expanded. -/
def dedent (text : Text) : Text :=
  let pieces := text.expandTabs.lines
  trimNewlines (unlines (pieces.map (removeMargin (commonMargin pieces))))

/-- `count` blanks. -/
def spaces (count : Nat) : Text :=
  List.replicate count ' '

/-- The line behind a margin of `count` blanks; a blank line becomes empty. -/
def indentLine (count : Nat) (line : Text) : Text :=
  if line.blank then [] else spaces count ++ line

/-- A fragment moved to a margin of `count` blanks, keeping the indentation of
its lines relative to each other. -/
def reindent (count : Nat) (text : Text) : Text :=
  unlines (text.dedent.lines.map (indentLine count))

/-- Text without tabs stays as it is. -/
theorem expandTabsFrom_eq_self {text : Text} (h : '\t' ∉ text) (column : Nat) :
    expandTabsFrom column text = text := by
  induction text generalizing column with
  | nil => rfl
  | cons c rest ih =>
    simp only [List.mem_cons, not_or] at h
    rw [expandTabsFrom, if_neg (Ne.symm h.1)]
    split <;> rw [ih h.2]

/-- No tab is left. -/
theorem tab_notMem_expandTabsFrom (column : Nat) (text : Text) :
    '\t' ∉ expandTabsFrom column text := by
  induction text generalizing column with
  | nil => simp [expandTabsFrom]
  | cons c rest ih =>
    rw [expandTabsFrom]
    split
    · simp [ih]
    · split <;> simp_all [Ne.symm]

end Text

end EditorScript
