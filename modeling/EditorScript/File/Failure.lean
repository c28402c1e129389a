import EditorScript.File.Path
import EditorScript.File.Utf8

/-!
# Files that cannot be read
-/

namespace EditorScript

/-- Why the system does not hand out a file. -/
inductive FileFault where
  | missing | notADirectory | isADirectory
deriving DecidableEq, Repr

/-- What the system says about a file, with the number of its error. -/
def FileFault.message : FileFault → Text
  | .missing => "[Errno 2] No such file or directory"
  | .notADirectory => "[Errno 20] Not a directory"
  | .isADirectory => "[Errno 21] Is a directory"

/-- Why there is no text to be had from a file. -/
inductive ReadError where
  | file (fault : FileFault) (path : Text)
  | encoding (error : Utf8Error)
deriving DecidableEq, Repr

/-- The report of a file without text. -/
def ReadError.message : ReadError → Text
  | .file fault path => fault.message ++ ": " ++ shownPath path
  | .encoding error => error.message

end EditorScript
