import EditorScript.Emission.Template
import EditorScript.Proofs.Everywhere

/-!
# What can be written

Writing fails on one thing only: a limit of a slider over whole numbers that is
no finite number, on an element that shows up in the text.  Without one, every forest
and every project has a text.
-/

namespace EditorScript

/-- Whether the element's limits, if it shows them as whole numbers, are finite. -/
def ElementFields.isWritable (fields : ElementFields) : Bool :=
  fields.widget != .intSlider ||
    ((fields.minValue.getD (.ofInt 0)).toInt?.isSome &&
      (fields.maxValue.getD (.ofInt 100)).toInt?.isSome)

/-- Whether all elements of a forest can be written. -/
abbrev Forest.Writable (forest : Forest) : Prop :=
  forest.Everywhere fun fields => fields.isWritable

/-- Whether the elements that show up in the text of a forest can be written.  An element
that stands for code always can, and what stands below tabs does not show up. -/
def Forest.isPrintable : Forest → Bool
  | [] => true
  | .leaf fields :: rest => (fields.isOpaque || fields.isWritable) && isPrintable rest
  | .group fields children :: rest =>
    (fields.isOpaque || fields.isWritable) && (!fields.showsChildren || isPrintable children) &&
      isPrintable rest

/-- Whether the elements that show up in the source of a project can be written; kinds
without a drawing method show none. -/
def Project.isPrintable (project : Project) : Bool :=
  project.kind.guiSignature?.isNone || project.elements.isPrintable

/-! ## Steps that succeed -/

theorem isOk_map {α β ε : Type} (f : α → β) (result : Except ε α) :
    (result.map f).isOk = result.isOk := by
  cases result <;> rfl

theorem isOk_bind_pure {α β ε : Type} (f : α → β) (result : Except ε α) :
    (result >>= fun value => pure (f value)).isOk = result.isOk := by
  cases result <;> rfl

theorem isOk_bind₂ {α β γ ε : Type} (f : α → β → γ) (first : Except ε α) (second : Except ε β) :
    (first >>= fun a => second >>= fun b => pure (f a b)).isOk = (first.isOk && second.isOk) := by
  cases first
  · rfl
  · cases second <;> rfl

theorem exists_of_isOk {α ε : Type} {result : Except ε α} (h : result.isOk) :
    ∃ value, result = .ok value := by
  cases result with
  | ok value => exact ⟨value, rfl⟩
  | error error => cases h

/-! ## Elements -/

theorem Binary64.isSome_toInt? (x : Binary64) : x.toInt?.isSome = x.isFinite := by
  unfold toInt?
  cases x.isFinite <;> rfl

theorem ElementFields.isWritable_iff {fields : ElementFields} :
    fields.isWritable ↔ (fields.widget = .intSlider →
      (fields.minValue.getD (.ofInt 0)).isFinite ∧ (fields.maxValue.getD (.ofInt 100)).isFinite) := by
  rw [isWritable, Binary64.isSome_toInt?, Binary64.isSome_toInt?, Bool.or_eq_true, bne_iff_ne,
    Bool.and_eq_true, ← imp_iff_not_or]

theorem isOk_wholeLimit (limit : Binary64) : (wholeLimit limit).isOk = limit.toInt?.isSome := by
  unfold wholeLimit
  cases limit.toInt? <;> rfl

theorem ElementFields.isOk_lines (fields : ElementFields) (width level : Nat) (kind : ScriptKind)
    (inner : List Text) : (fields.lines width level kind inner).isOk = fields.isWritable := by
  unfold lines isWritable
  cases hwidget : fields.widget
  case intSlider =>
    simp only [bne_self_eq_false, Bool.false_or, ← isOk_wholeLimit]
    exact isOk_bind₂ _ _ _
  all_goals rfl

theorem ElementFields.isOk_render (fields : ElementFields) (width level : Nat) (kind : ScriptKind)
    (inner : List Text) :
    (fields.render width level kind inner).isOk = (fields.isOpaque || fields.isWritable) := by
  unfold render
  cases fields.isOpaque
  · rw [if_neg (by decide), isOk_map, isOk_lines, Bool.false_or]
  · rfl

/-- A group is written from the texts of the children that it shows. -/
theorem Element.isOk_render_group (fields : ElementFields) (children : List Element)
    (width level : Nat) (kind : ScriptKind) :
    ((Element.group fields children).render width level kind).isOk =
      ((fields.isOpaque || fields.isWritable) &&
        (!fields.showsChildren || (renderAll width (level + 1) kind children).isOk)) := by
  rw [Element.render]
  cases fields.showsChildren
  · rw [if_neg (by decide), Bool.not_false, Bool.true_or, Bool.and_true]
    exact fields.isOk_render width level kind []
  · rw [if_pos rfl, Bool.not_true, Bool.false_or]
    cases renderAll width (level + 1) kind children with
    | error error => exact (Bool.and_false _).symm
    | ok inner => exact (fields.isOk_render width level kind inner).trans (Bool.and_true _).symm

/-- Each element of a printable forest has a text. -/
theorem Forest.isOk_renderAll (forest : Forest) (width level : Nat) (kind : ScriptKind) :
    (renderAll width level kind forest).isOk = forest.isPrintable := by
  induction forest using shapeInduction generalizing level with
  | nil =>
    rw [renderAll, isPrintable]
    rfl
  | leaf fields rest ih =>
    rw [renderAll, isPrintable, ← ih level, ← fields.isOk_render width level kind [], Element.render]
    exact isOk_bind₂ _ _ _
  | group fields children rest ihChildren ih =>
    rw [renderAll, isPrintable, ← ih level, ← ihChildren (level + 1),
      ← Element.isOk_render_group]
    exact isOk_bind₂ _ _ _

theorem Forest.Writable.isPrintable {forest : Forest} (h : forest.Writable) :
    forest.isPrintable := by
  induction forest using shapeInduction with
  | nil => rw [Forest.isPrintable]
  | leaf fields rest ih =>
    rw [Writable, everywhere_leaf_cons] at h
    rw [Forest.isPrintable, h.1, ih h.2, Bool.or_true, Bool.and_true]
  | group fields children rest ihChildren ih =>
    rw [Writable, everywhere_group_cons] at h
    rw [Forest.isPrintable, h.1, ihChildren h.2.1, ih h.2.2, Bool.or_true, Bool.or_true,
      Bool.and_true, Bool.and_true]

/-! ## Projects -/

theorem Project.isOk_guiContent (project : Project) (width level : Nat) :
    (project.guiContent width level).isOk = project.elements.isPrintable := by
  unfold guiContent
  cases hempty : project.elements.isEmpty with
  | true =>
    rw [List.isEmpty_iff.mp hempty, Forest.isPrintable, Bool.not_true, if_neg (by decide)]
    split <;> rfl
  | false => rw [Bool.not_false, if_pos rfl, Forest.render, isOk_map, Forest.isOk_renderAll]

/-- A project has a source exactly when the elements that show up in it can be written. -/
theorem Project.isOk_source (project : Project) (width : Nat) :
    (project.source width).isOk = project.isPrintable := by
  have hgui : ∀ level, (project.guiMethod width level).isOk = project.isPrintable := by
    intro level
    unfold guiMethod Project.isPrintable
    cases project.kind.guiSignature? with
    | none => rfl
    | some signature =>
      rw [Option.isNone_some, Bool.false_or, ← project.isOk_guiContent width (level + 1)]
      exact isOk_bind_pure _ _
  rw [← hgui (project.level + 1)]
  exact isOk_bind_pure _ _

/-- A project with a writable forest has a source. -/
theorem Project.source_ok {project : Project} (h : project.elements.Writable) (width : Nat) :
    ∃ text, project.source width = .ok text :=
  exists_of_isOk (by rw [isOk_source, isPrintable, h.isPrintable, Bool.or_true])

end EditorScript
