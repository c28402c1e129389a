import EditorScript.Model.Element
import EditorScript.Number.Binary64

/-!
# Quality gate

A recovered forest in which too much stands for unrecognised code is worth less
than the body as it was.
-/

namespace EditorScript

/-- The limits of a forest that is kept: the share of code among its roots, and
the size up to which a single one is too much. -/
structure Gate where
  maxOpaqueRatio : Binary64 := .ofRatio false 1 2
  smallBodyMaxElements : Int := 3
deriving DecidableEq, Repr

namespace Gate

/-- Number of roots that stand for code. -/
def opaqueCount (elements : Forest) : Nat :=
  elements.countP fun element => element.fields.isOpaque

/-- Whether the body as it was is to be kept instead of the forest. -/
def fallsBack (gate : Gate) (elements : Forest) : Bool :=
  let total := elements.length
  let opaques := opaqueCount elements
  total != 0 &&
    (gate.maxOpaqueRatio.less (.ofRatio false opaques total) ||
      (total ≤ gate.smallBodyMaxElements && opaques > 0))

/-- An empty forest is never given up. -/
@[simp]
theorem fallsBack_nil (gate : Gate) : gate.fallsBack [] = false := rfl

end Gate

end EditorScript
