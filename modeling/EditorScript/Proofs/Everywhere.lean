import EditorScript.Model.Element
import Mathlib.Tactic.Common

/-!
# Properties of all elements

A property of fields holds everywhere in a forest when all elements have it, at
every depth.
-/

namespace EditorScript

/-- The name of a variable: a word of any script. -/
def IsVariableName (name : Text) : Prop :=
  name ≠ [] ∧ ∀ c ∈ name, isWord c

instance (name : Text) : Decidable (IsVariableName name) :=
  inferInstanceAs (Decidable (name ≠ [] ∧ ∀ c ∈ name, isWord c))

namespace Forest

/-- All elements of a forest, at every depth, have a property. -/
def Everywhere (property : ElementFields → Prop) (forest : Forest) : Prop :=
  ∀ element ∈ forest.flatten, property element.fields

variable {property other : ElementFields → Prop}

@[simp]
theorem everywhere_nil : Everywhere property [] := by
  simp [Everywhere, flatten]

@[simp]
theorem everywhere_leaf_cons {fields : ElementFields} {rest : Forest} :
    Everywhere property (.leaf fields :: rest) ↔ property fields ∧ Everywhere property rest := by
  simp [Everywhere, flatten, Element.fields]

@[simp]
theorem everywhere_group_cons {fields : ElementFields} {children : List Element} {rest : Forest} :
    Everywhere property (.group fields children :: rest) ↔
      property fields ∧ Everywhere property children ∧ Everywhere property rest := by
  simp only [Everywhere, flatten, List.forall_mem_cons, List.forall_mem_append, Element.fields]

/-- What follows for one element follows for all. -/
theorem Everywhere.imp {forest : Forest} (h : forest.Everywhere property)
    (himp : ∀ fields, property fields → other fields) : forest.Everywhere other :=
  fun element helement => himp _ (h element helement)

end Forest

end EditorScript
