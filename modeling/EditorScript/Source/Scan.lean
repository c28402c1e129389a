import EditorScript.Text.Basic

/-!
# Code characters

C# source is read line by line with a small automaton that knows string
literals, character literals and comments.  The characters met in its `code`
mode are the *code characters*: a brace, a semicolon or a slash inside a literal
or a comment is none of them.

* `Mode.next` is one step of the automaton.
* `codeColumns` are the code characters of one line, `lineEnd` the mode that the
  line hands on to the next one.
* `codeChars` are the code characters of many lines with their places.
* `stripLineComment` cuts off a comment that runs to the end of its line.
-/

namespace EditorScript

/-- Where in the source a character stands.  The modes for the second character
of an escape, of a doubled quote or of a comment's ends last for that character
only. -/
inductive Mode where
  | code
  /-- Inside a literal between double quotes. -/
  | string
  /-- Behind a backslash in a string literal. -/
  | stringEscape
  /-- Inside a literal that starts with `@` and a quote. -/
  | verbatim
  /-- At the second one of two quotes in a verbatim literal. -/
  | verbatimQuote
  /-- Inside a character literal. -/
  | character
  /-- Behind a backslash in a character literal. -/
  | characterEscape
  /-- At the star that opens a block comment. -/
  | commentOpening
  /-- Inside a block comment. -/
  | comment
  /-- At the slash that closes a block comment. -/
  | commentClosing
  /-- Inside a comment that runs to the end of the line. -/
  | lineComment
deriving DecidableEq, Repr

namespace Mode

/-- The mode behind the character `c`, given the characters before it on its
line, the nearest one first, and the one that follows.  A quote opens a verbatim
literal when one of the two characters before it is an `@`. -/
def next (mode : Mode) (passed : Text) (c : Char) (following : Option Char) : Mode :=
  match mode with
  | code =>
    if c = '/' then
      if following = some '/' then lineComment
      else if following = some '*' then commentOpening
      else code
    else if c = '"' then if (passed.take 2).contains '@' then verbatim else string
    else if c = '\'' then character
    else code
  | string => if c = '\\' then stringEscape else if c = '"' then code else string
  | stringEscape => string
  | verbatim =>
    if c = '"' then if following = some '"' then verbatimQuote else code else verbatim
  | verbatimQuote => verbatim
  | character =>
    if c = '\\' then characterEscape else if c = '\'' then code else character
  | characterEscape => character
  | commentOpening => comment
  | comment => if c = '*' ∧ following = some '/' then commentClosing else comment
  | commentClosing => code
  | lineComment => lineComment

/-- The mode at the start of the next line: verbatim literals and block comments
go on, everything else ends with its line. -/
def atLineBreak : Mode → Mode
  | verbatim => verbatim
  | comment => comment
  | _ => code

end Mode

/-- The mode behind a piece of a line. -/
def modeAfter (mode : Mode) (passed : Text) : Text → Mode
  | [] => mode
  | c :: rest => modeAfter (mode.next passed c rest.head?) (c :: passed) rest

/-- The mode in which the next line starts. -/
def lineEnd (mode : Mode) (line : Text) : Mode :=
  (modeAfter mode [] line).atLineBreak

/-- The code characters of a piece of a line with their columns, the first
character of the piece standing in the given column.  A character is code when
the automaton is in code mode before and behind it. -/
def codeColumnsFrom (mode : Mode) (passed : Text) (column : Nat) : Text → List (Nat × Char)
  | [] => []
  | c :: rest =>
    let later := mode.next passed c rest.head?
    let others := codeColumnsFrom later (c :: passed) (column + 1) rest
    if mode = .code ∧ later = .code then (column, c) :: others else others

/-- The code characters of a line with their columns. -/
def codeColumns (mode : Mode) (line : Text) : List (Nat × Char) :=
  codeColumnsFrom mode [] 0 line

/-- A code character and its place. -/
structure CodeChar where
  line : Nat
  column : Nat
  char : Char
deriving DecidableEq, Repr

/-- The code characters of lines numbered from `number` on, the first of which
starts in the given mode. -/
def codeCharsFrom (mode : Mode) (number : Nat) : List Text → List CodeChar
  | [] => []
  | line :: rest =>
    ((codeColumns mode line).map fun (column, c) => ⟨number, column, c⟩) ++
      codeCharsFrom (lineEnd mode line) (number + 1) rest

/-- The code characters of the lines from number `start` on. -/
def codeChars (lines : List Text) (start : Nat) : List CodeChar :=
  codeCharsFrom .code start (lines.drop start)

/-- The first code character among `targets` at or after line `start`. -/
def firstCodeChar? (lines : List Text) (start : Nat) (targets : Text) : Option CodeChar :=
  (codeChars lines start).find? (targets.contains ·.char)

/-- Whether a line holds an opening brace in code. -/
def opensBrace (line : Text) : Bool :=
  (firstCodeChar? [line] 0 ['{']).isSome

/-- By how much one line changes the depth of nested braces. -/
def braceDelta (line : Text) : Int :=
  let chars := (codeColumns .code line).map (·.2)
  (chars.count '{' : Int) - chars.count '}'

/-- The column behind the last code character of a line. -/
def codeEnd (line : Text) : Nat :=
  ((codeColumns .code line).getLast?.map (·.1 + 1)).getD 0

/-- The line up to the first `//` behind its last code character, without the
blanks in front of that; the whole line when there is no such place. -/
def stripLineComment (line : Text) : Text :=
  match Text.cutAt? "//" (line.drop (codeEnd line)) with
  | some (skipped, _) => Text.trimRight (line.take (codeEnd line) ++ skipped)
  | none => line

/-- The trimmed text of a line without a comment at its end. -/
def codeOf (line : Text) : Text :=
  Text.trim (stripLineComment line)

end EditorScript
