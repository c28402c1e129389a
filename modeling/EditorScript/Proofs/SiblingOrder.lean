import EditorScript.Proofs.SessionEffect

/-!
# The order of siblings

Moving an element exchanges it with one of its neighbours, and reordering puts it where one
of its siblings was.  Nothing but the order of these siblings changes
(`Forest.move_reorder_exact`).
-/

namespace EditorScript

namespace Forest

variable {element first second : Element} {place : Place} {direction : Direction}
variable {before after left right left' right' forest : Forest} {active onto : Text}

/-- Two ids belong to elements side by side. -/
def AreSiblings (forest : Forest) (first second : Text) : Prop :=
  ∃ (place : Place) (siblings : Forest),
    forest = place.fill siblings ∧ first ∈ siblings.ids ∧ second ∈ siblings.ids

/-! ## Moving -/

/-- An element moves to the only place among its siblings that its direction leaves. -/
theorem move_fill_eq (hdistinct : (place.fill (left ++ element :: right)).allIds.Nodup)
    (hothers : left' ++ right' = left ++ right)
    (hposition : left'.length = match direction with
      | .up => left.length - 1
      | .down => min (left.length + 1) (left ++ right).length) :
    move element.id direction (place.fill (left ++ element :: right)) =
      place.fill (left' ++ element :: right') := by
  have hleft := id_notMem_ids (notMem_of_nodup (Place.nodup_siblings hdistinct)).1
  obtain ⟨front, back, hmoved, hsame, hlength⟩ := moveSibling_append right direction hleft
  obtain ⟨rfl, rfl⟩ := List.append_inj (hsame.trans hothers.symm) (hlength.trans hposition.symm)
  rw [move_fill direction hdistinct mem_ids_middle, hmoved]

theorem move_up_fill (hdistinct : (place.fill (before ++ first :: second :: after)).allIds.Nodup) :
    move second.id .up (place.fill (before ++ first :: second :: after)) =
      place.fill (before ++ second :: first :: after) := by
  have hsplit : before ++ first :: second :: after = (before ++ [first]) ++ second :: after := by
    simp
  rw [hsplit] at hdistinct ⊢
  exact move_fill_eq hdistinct (by simp) (by simp)

theorem move_down_fill
    (hdistinct : (place.fill (before ++ first :: second :: after)).allIds.Nodup) :
    move first.id .down (place.fill (before ++ first :: second :: after)) =
      place.fill (before ++ second :: first :: after) := by
  have hmoved : move first.id .down (place.fill (before ++ first :: second :: after)) =
      place.fill ((before ++ [second]) ++ first :: after) :=
    move_fill_eq hdistinct (by simp) (by simp)
  rwa [List.append_assoc] at hmoved

/-- The first one of some siblings does not move up. -/
theorem move_up_first (hdistinct : (place.fill (element :: after)).allIds.Nodup) :
    move element.id .up (place.fill (element :: after)) = place.fill (element :: after) := by
  have hmoved : move element.id .up (place.fill ([] ++ element :: after)) =
      place.fill ([] ++ element :: after) := move_fill_eq hdistinct rfl rfl
  exact hmoved

/-- The last one of some siblings does not move down. -/
theorem move_down_last (hdistinct : (place.fill (before ++ [element])).allIds.Nodup) :
    move element.id .down (place.fill (before ++ [element])) = place.fill (before ++ [element]) :=
  move_fill_eq hdistinct rfl (by simp)

/-- Siblings that are exchanged have the ids that they had. -/
theorem nodup_exchange (hdistinct : (place.fill (before ++ first :: second :: after)).allIds.Nodup) :
    (place.fill (before ++ second :: first :: after)).allIds.Nodup := by
  have hold : PutIn second (place.fill (before ++ first :: after))
      (place.fill (before ++ first :: second :: after)) :=
    ⟨place, before ++ [first], after, by simp, by simp⟩
  have hnew : PutIn second (place.fill (before ++ first :: after))
      (place.fill (before ++ second :: first :: after)) :=
    ⟨place, before, first :: after, rfl, rfl⟩
  exact hnew.allIds_perm.nodup_iff.mpr (hold.allIds_perm.nodup_iff.mp hdistinct)

/-! ## Reordering -/

/-- An element is put where its sibling was found. -/
theorem exists_reorder_fill (hdistinct : (place.fill (before ++ element :: after)).allIds.Nodup)
    (honto : onto ∈ ids (before ++ element :: after)) :
    ∃ left right, left ++ right = before ++ after ∧
      left.length = (ids (before ++ element :: after)).idxOf onto ∧
      reorder element.id onto (place.fill (before ++ element :: after)) =
        place.fill (left ++ element :: right) := by
  have hbefore := id_notMem_ids (notMem_of_nodup (Place.nodup_siblings hdistinct)).1
  obtain ⟨left, right, hmoved, hothers, hposition⟩ := reorderSiblings_append hbefore honto
  refine ⟨left, right, hothers, hposition, ?_⟩
  rw [reorder_fill hdistinct mem_ids_middle honto, hmoved]

/-- Siblings are elements of the forest. -/
theorem AreSiblings.mem_allIds (h : forest.AreSiblings active onto) :
    active ∈ forest.allIds ∧ onto ∈ forest.allIds := by
  obtain ⟨place, siblings, rfl, hactive, honto⟩ := h
  exact ⟨Place.mem_allIds_fill (mem_allIds_of_mem_ids hactive),
    Place.mem_allIds_fill (mem_allIds_of_mem_ids honto)⟩

theorem reorder_of_not_areSiblings (h : ¬ forest.AreSiblings active onto) :
    reorder active onto forest = forest :=
  reorder_eq_self fun place siblings heq hboth => h ⟨place, siblings, heq, hboth⟩

/-! ## Both -/

/-- Where ids are distinct, an element that moves up or down is exchanged with the sibling in
front of it or behind it and stays where it is when there is none, and down undoes up.  An
element that is put onto one of its siblings comes to the place of that sibling, and the
others keep their order; onto anything else nothing happens.  All of this concerns the
siblings at one place only. -/
theorem move_reorder_exact (forest : Forest) (hdistinct : forest.allIds.Nodup) :
    (∀ (place : Place) before first second after,
      forest = place.fill (before ++ first :: second :: after) →
        forest.move second.id .up = place.fill (before ++ second :: first :: after) ∧
        forest.move first.id .down = place.fill (before ++ second :: first :: after) ∧
        (forest.move second.id .up).move second.id .down = forest) ∧
    (∀ (place : Place) first after, forest = place.fill (first :: after) →
      forest.move first.id .up = forest) ∧
    (∀ (place : Place) before last, forest = place.fill (before ++ [last]) →
      forest.move last.id .down = forest) ∧
    (∀ id direction, id ∉ forest.allIds → forest.move id direction = forest) ∧
    (∀ (place : Place) before element after onto,
      forest = place.fill (before ++ element :: after) →
      onto ∈ ids (before ++ element :: after) →
        ∃ left right, left ++ right = before ++ after ∧
          left.length = (ids (before ++ element :: after)).idxOf onto ∧
          forest.reorder element.id onto = place.fill (left ++ element :: right)) ∧
    (∀ active onto, active ∉ forest.allIds ∨ onto ∉ forest.allIds ∨
      ¬ forest.AreSiblings active onto → forest.reorder active onto = forest) := by
  refine ⟨?_, ?_, ?_, fun id direction => move_eq_self, ?_, ?_⟩
  · rintro place before first second after rfl
    have hup := move_up_fill hdistinct
    refine ⟨hup, move_down_fill hdistinct, ?_⟩
    rw [hup, move_down_fill (nodup_exchange hdistinct)]
  · rintro place first after rfl
    exact move_up_first hdistinct
  · rintro place before last rfl
    exact move_down_last hdistinct
  · rintro place before element after onto rfl honto
    exact exists_reorder_fill hdistinct honto
  · intro active onto h
    refine reorder_of_not_areSiblings fun hsiblings => ?_
    obtain ⟨hactive, honto⟩ := hsiblings.mem_allIds
    exact h.elim (· hactive) fun h => h.elim (· honto) (· hsiblings)

/-- Three labels in a box, in front of a space. -/
def shelf : Forest :=
  [.group { widget := .box, label := "Box", id := "a" }
    [.leaf { widget := .label, label := "Red", id := "b" },
      .leaf { widget := .label, label := "Green", id := "c" },
      .leaf { widget := .label, label := "Blue", id := "d" }],
    .leaf { widget := .space, label := "Space", id := "e" }]

theorem allIds_shelf : shelf.allIds = ["a", "b", "c", "d", "e"] := by
  simp [shelf, Element.children, Element.children?]
  exact ⟨rfl, rfl, rfl, rfl, rfl⟩

/-- The last label moves up and down again, the labels at the ends stay there, nothing happens
to an unknown element, and the last label is put where the first one is. -/
theorem move_reorder_exact_shelf :
    let box : Place := [⟨[], { widget := .box, label := "Box", id := "a" },
      [.leaf { widget := .space, label := "Space", id := "e" }]⟩]
    let red : Element := .leaf { widget := .label, label := "Red", id := "b" }
    let green : Element := .leaf { widget := .label, label := "Green", id := "c" }
    let blue : Element := .leaf { widget := .label, label := "Blue", id := "d" }
    shelf.allIds.Nodup ∧ shelf = box.fill [red, green, blue] ∧
      (shelf.move "d" .up = box.fill [red, blue, green] ∧
        shelf.move "c" .down = box.fill [red, blue, green] ∧
        (shelf.move "d" .up).move "d" .down = shelf) ∧
      shelf.move "b" .up = shelf ∧ shelf.move "d" .down = shelf ∧
      "z".toList ∉ shelf.allIds ∧ shelf.move "z" .up = shelf ∧
      shelf.reorder "d" "b" = box.fill [blue, red, green] ∧ shelf.reorder "z" "b" = shelf := by
  intro box red green blue
  have hdistinct : shelf.allIds.Nodup := by
    rw [allIds_shelf]
    decide
  have hunknown : "z".toList ∉ shelf.allIds := by
    rw [allIds_shelf]
    decide
  obtain ⟨hmove, hfirst, hlast, habsent, hreorder, hapart⟩ := move_reorder_exact shelf hdistinct
  obtain ⟨left, right, hothers, hposition, hput⟩ :=
    hreorder box [red, green] blue [] "b" rfl (by decide)
  obtain rfl : left = [] := List.eq_nil_of_length_eq_zero (hposition.trans (by decide))
  obtain rfl : right = [red, green] := hothers
  exact ⟨hdistinct, rfl, hmove box [red] green blue [] rfl, hfirst box red [green, blue] rfl,
    hlast box [red, green] blue rfl, hunknown, habsent "z" .up hunknown, hput,
    hapart "z" "b" (.inl hunknown)⟩

end Forest

end EditorScript
