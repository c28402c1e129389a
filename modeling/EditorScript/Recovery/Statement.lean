import EditorScript.Source.Order
import EditorScript.Pattern.Combinators
import EditorScript.Text.Indentation

/-!
# Extent of statements

How many lines a statement takes.  A statement with a block ends with the block,
any other one with the first line that ends in a semicolon; what continues it
(`else`, `catch`, `finally`, the `while` of a `do`) belongs to it.
-/

namespace EditorScript

open Pattern

/-- What starts a call. -/
def callStart : Pattern :=
  start ++ dotted ++ blanks ++ opt ("<" ++ many (noneOf ">") ++ ">") ++ blanks ++ "("

/-- The words that start a statement which is no call. -/
def controlWord : Pattern :=
  start ++ firstOf ["if", "else", "for", "foreach", "while", "do", "switch", "using", "try",
    "lock", "var", "return", "break", "continue"] ++ boundary

/-- The words that continue the statement before them. -/
def continuingWord : Pattern :=
  start ++ firstOf ["else", "catch", "finally"] ++ boundary

/-- Whether a line starts a statement. -/
def startsStatement (code : Text) : Bool :=
  callStart.accepts code || controlWord.accepts code

/-- The first line that holds code: its place and its code. -/
def firstCode? : List Text → Option (Nat × Text)
  | [] => none
  | line :: rest =>
    if (codeOf line).isEmpty then (firstCode? rest).map fun (place, code) => (place + 1, code)
    else some (0, codeOf line)

/-- Number of lines behind the first one up to a line that ends in a semicolon,
blocks taken whole.  A block that closes on the line on which it is met ends the
statement there. -/
def linesToSemicolon : List Text → Nat
  | [] => 0
  | [_] => 0
  | line :: next :: rest =>
    let code := codeOf line
    if code.endsWith ";" then 0
    else if opensBrace code then
      match findBlock? (line :: next :: rest) 0 with
      | none => 0
      | some block =>
        if block.endLine = 0 then 0
        else block.endLine + linesToSemicolon ((line :: next :: rest).drop block.endLine)
    else 1 + linesToSemicolon (next :: rest)
termination_by lines => lines.length
decreasing_by
  · simp only [List.length_drop, List.length_cons]
    omega
  · simp

/-- Whether the code that follows a statement belongs to it, given the code of
the statement's first line. -/
def continues (code following : Text) : Bool :=
  continuingWord.accepts following ||
    (code.startsWith "do" && following.startsWith "while")

/-- Number of lines behind the first one that the statement starting there takes
without what continues it; nothing when its block never closes. -/
def ownExtent? (line : Text) (rest : List Text) : Option Nat :=
  let code := codeOf line
  if opensBrace code || ((firstCode? rest).any fun (_, next) => next.startsWith "\x7b") then
    (findBlock? (line :: rest) 0).map (·.endLine)
  else some (linesToSemicolon (line :: rest))

/-- Number of lines that the statement starting at the first line takes behind
that line.  A block that never closes leaves the statement with its first line. -/
def extent : List Text → Nat
  | [] => 0
  | line :: rest =>
    match ownExtent? line rest with
    | none => 0
    | some own =>
      match firstCode? (rest.drop own) with
      | none => own
      | some (place, following) =>
        if continues (codeOf line) following then
          own + place + 1 + extent ((rest.drop own).drop place)
        else own
termination_by lines => lines.length
decreasing_by
  simp only [List.length_drop, List.length_cons]
  omega

/-- The statement at the start of some lines as it stands there, with the number
of its lines. -/
def statementText (lines : List Text) : Text :=
  Text.dedent (Text.unlines (lines.take (extent lines + 1)))

end EditorScript
