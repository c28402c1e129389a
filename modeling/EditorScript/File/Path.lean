import EditorScript.Text.Basic

/-!
# Paths

A path is cut at its slashes; empty parts and single points do not count.
-/

namespace EditorScript

/-- The parts of a path. -/
def pathParts (path : Text) : List Text :=
  (path.piecesAt '/').filter fun part => part ≠ [] ∧ part ≠ ['.']

/-- What an absolute path begins with.  Two slashes are kept, more of them count
as one. -/
def pathRoot (path : Text) : Text :=
  match path.takeWhile (· == '/') with
  | [] => []
  | ['/', '/'] => ['/', '/']
  | _ => ['/']

/-- The shortest way to write a path without following it; a path without parts
is a single point. -/
def normalPath (path : Text) : Text :=
  match pathRoot path ++ Text.join ['/'] (pathParts path) with
  | [] => ['.']
  | normal => normal

/-- The path of a file inside a directory. -/
def pathInside (directory name : Text) : Text :=
  if name.startsWith "/" then normalPath name else normalPath (directory ++ '/' :: name)

/-- The last part of a path; empty when it has none. -/
def fileName (path : Text) : Text :=
  (pathParts path).getLast?.getD []

/-- A file name without its extension.  A point at either end makes no
extension. -/
def stem (name : Text) : Text :=
  let extension := name.reverse.takeWhile (· != '.')
  let before := name.take (name.length - (extension.length + 1))
  if extension ≠ [] ∧ before ≠ [] ∧ extension.length < name.length then before else name

/-- The name of a file for display: without directories and extension if
anything is left then.  Backslashes part directories too. -/
def displayName (path : Text) : Text :=
  let name := stem (fileName (path.map fun c => if c = '\\' then '/' else c))
  if name.isEmpty then path else name

/-- The code points of characters without a shape of their own: control and format
characters, separators other than the blank, and those for private use. -/
def shapelessRanges : List (Nat × Nat) :=
  [(0x0, 0x1f), (0x7f, 0xa0), (0xad, 0xad), (0x600, 0x605), (0x61c, 0x61c), (0x6dd, 0x6dd),
    (0x70f, 0x70f), (0x890, 0x891), (0x8e2, 0x8e2), (0x1680, 0x1680), (0x180e, 0x180e),
    (0x2000, 0x200f), (0x2028, 0x202f), (0x205f, 0x206f), (0x3000, 0x3000), (0xe000, 0xf8ff),
    (0xfeff, 0xfeff), (0xfff0, 0xfffb), (0xfffe, 0xffff), (0x110bd, 0x110bd), (0x110cd, 0x110cd),
    (0x13430, 0x1343f), (0x1bca0, 0x1bca3), (0x1d173, 0x1d17a), (0xe0000, 0xe00ff),
    (0xe01f0, 0x10ffff)]

/-- How a character of a path is shown in messages between the given quotes.
Characters without a shape are shown by their numbers. -/
def shownChar (mark : Char) (c : Char) : Text :=
  let padded (width : Nat) : Text := (Nat.toDigits 16 c.toNat).leftpad width '0'
  if c = mark ∨ c = '\\' then ['\\', c]
  else if c = '\n' then ['\\', 'n']
  else if c = '\r' then ['\\', 'r']
  else if c = '\t' then ['\\', 't']
  else if !inRanges shapelessRanges c.toNat then [c]
  else if c.toNat < 0x100 then '\\' :: 'x' :: padded 2
  else if c.toNat < 0x10000 then '\\' :: 'u' :: padded 4
  else '\\' :: 'U' :: padded 8

/-- A path as it is shown in messages: in single quotes, or in double ones when
that saves a backslash. -/
def shownPath (path : Text) : Text :=
  let mark := if path.contains '\'' && !path.contains '"' then '"' else '\''
  mark :: path.flatMap (shownChar mark) ++ [mark]

/-- Directories and the extension do not show; a name that is all extension does. -/
theorem displayName_of_examples :
    displayName "Assets/Editor/My.Tool.cs" = "My.Tool".toList ∧
      displayName ".hidden" = ".hidden".toList ∧ displayName "/" = "/".toList := by
  decide

end EditorScript
