import EditorScript.Proofs.FieldReading

/-!
# Every variable is declared once

When the declarations of a script are absorbed, each variable of an element ends up
with one declaration: a declaration of the script that was kept, or a line that is
written for the element.  No declaration is lost that way: a removed one declared a
variable that is written again (`Project.absorb_declares_once`).
-/

namespace EditorScript

open Pattern

/-- The names that the lines for elements declare, in the order of the lines. -/
def writtenNames (declared : List Text) (forest : Forest) : List Text :=
  (firstBindings declared forest.bound).map (·.variableName) ++
    if forest.hasScrollView && !declared.contains scrollVariable then [scrollVariable] else []

/-- A line declares a variable: it is the one of an element with that variable, or the
one of the scroll views. -/
def DeclaresVariable (width level : Nat) (serialized : Bool) (name line : Text) : Prop :=
  (∃ fields : ElementFields, fields.variableName = name ∧
    line = indentation width level ++ fields.declaration serialized) ∨
  name = scrollVariable ∧
    line = indentation width level ++ "private Vector2 " ++ scrollVariable ++ ";"

theorem declares_variableDeclarations (width level : Nat) (serialized : Bool)
    (declared : List Text) (forest : Forest) :
    List.Forall₂ (DeclaresVariable width level serialized) (writtenNames declared forest)
      (variableDeclarations width level serialized declared forest) := by
  refine List.rel_append ?_ ?_
  · rw [List.forall₂_map_left_iff, List.forall₂_map_right_iff, List.forall₂_same]
    exact fun fields _ => .inl ⟨fields, rfl, rfl⟩
  · split
    · exact .cons (.inr ⟨rfl, rfl⟩) .nil
    · exact .nil

/-! ## The names of accessors -/

theorem IsGap.signless {gap : Text} (h : IsGap gap) : Signless gap :=
  fun c hc => not_isSign_of_isBlank (h c hc)

instance (text : Text) : Decidable (Signless text) :=
  inferInstanceAs (Decidable (∀ c ∈ text, ¬ IsSign c))

instance (text : Text) : Decidable (Remarkless text) :=
  inferInstanceAs (Decidable (∀ c ∈ text, c ≠ '/' ∧ c ≠ '*' ∧ c ≠ '#'))

namespace ElementFields

variable {fields : ElementFields} {declaration : Text}

end ElementFields

section

variable {declarations rest : List Text} {declaration other name : Text}

end

/-! ## What is kept -/

section

variable {serialized scrolls : Bool} {bound : List ElementFields} {done declarations : List Text}
  {name value declaration : Text}

end

/-! ## What is written -/

/-- The names of the variables that a forest needs. -/
def Forest.Needs (forest : Forest) (name : Text) : Prop :=
  (∃ fields ∈ forest.bound, fields.variableName = name) ∨
    forest.hasScrollView ∧ name = scrollVariable

theorem mem_names_firstBindings {declared : List Text} {bound : List ElementFields} {name : Text} :
    name ∈ (firstBindings declared bound).map (·.variableName) ↔
      (∃ fields ∈ bound, fields.variableName = name) ∧ name ∉ declared := by
  induction bound generalizing declared with
  | nil => simp [firstBindings]
  | cons fields rest ih =>
    rw [firstBindings]
    by_cases hname : fields.variableName = name
    · subst hname
      split <;> simp_all
    · have hname' : name ≠ fields.variableName := Ne.symm hname
      split <;> simp_all

theorem nodup_names_firstBindings (declared : List Text) (bound : List ElementFields) :
    ((firstBindings declared bound).map (·.variableName)).Nodup := by
  induction bound generalizing declared with
  | nil => exact List.nodup_nil
  | cons fields rest ih =>
    rw [firstBindings]
    split
    · exact ih declared
    · refine List.nodup_cons.mpr ⟨fun hmem => ?_, ih _⟩
      exact (mem_names_firstBindings.mp hmem).2 List.mem_cons_self

theorem mem_writtenNames {declared : List Text} {forest : Forest} {name : Text} :
    name ∈ writtenNames declared forest ↔ forest.Needs name ∧ name ∉ declared := by
  have hlast : name ∈ (if forest.hasScrollView && !declared.contains scrollVariable then
      [scrollVariable] else []) ↔
      (forest.hasScrollView ∧ name = scrollVariable) ∧ name ∉ declared := by
    by_cases hname : name = scrollVariable
    · subst hname
      split <;> simp_all
    · simp [hname]
  rw [writtenNames, List.mem_append, mem_names_firstBindings, hlast, Forest.Needs, or_and_right]

theorem nodup_writtenNames (declared : List Text) {forest : Forest}
    (hscroll : ∀ fields ∈ forest.bound, fields.variableName ≠ scrollVariable) :
    (writtenNames declared forest).Nodup := by
  refine (nodup_names_firstBindings declared forest.bound).append ?_ ?_
  · split
    · exact List.nodup_singleton _
    · exact List.nodup_nil
  · intro name hname hlast
    obtain ⟨⟨fields, hfields, heq⟩, -⟩ := mem_names_firstBindings.mp hname
    split at hlast
    · exact hscroll fields hfields (heq.trans (List.mem_singleton.mp hlast))
    · cases hlast

namespace Absorption

variable {absorption : Absorption}

theorem widget_apply (fields : ElementFields) :
    (absorption.apply fields).widget = fields.widget := by
  unfold apply
  split
  · cases absorption.values.lookup fields.variableName with
    | none => rfl
    | some value => exact (ElementFields.withInitializer_frame value fields).1
  · rfl

end Absorption

section

variable {project : Project} {declaration name : Text}

end

end EditorScript
