import EditorScript.Proofs.PlacedEdit

/-!
# Elements that are taken out and put in

Taking an element out and putting it in again where it stood gives the forest again, and
an element that is put in anywhere is the one that is taken out under its id
(`Forest.remove?_insert_inverse`).  Both edits work at the place of some siblings, which the
id of their container tells.
-/

namespace EditorScript

/-! ## Siblings and their place -/

namespace Place

variable {above : Option Text} {place : Place} {siblings : Forest} {id : Text}

theorem holder_append (outer inner : Place) :
    (outer ++ inner).holder above = inner.holder (outer.holder above) := by
  induction outer generalizing above with
  | nil => rfl
  | cons frame others ih => exact ih

/-- An id that is nowhere in a forest is not around any of its places. -/
theorem lacks_of_notMem (h : id ∉ (place.fill siblings).allIds) : place.Lacks id := by
  induction place with
  | nil => exact List.forall_mem_nil _
  | cons frame inner ih =>
    rw [fill, Forest.allIds_append, Forest.allIds_cons] at h
    simp only [List.mem_append, List.mem_cons, not_or] at h
    obtain ⟨hbefore, hfields, hinner, hafter⟩ := h
    exact List.forall_mem_cons.mpr ⟨⟨hbefore, hfields, hafter⟩, ih hinner⟩

end Place

namespace Forest

variable {forest siblings : Forest} {place : Place} {parent : Option Text} {element : Element}

/-- The children of the container with an id; without an id, the roots. -/
def childrenOf? (parent : Option Text) (forest : Forest) : Option Forest :=
  match parent with
  | none => some forest
  | some id => (forest.find? id).bind (·.children?)

/-- Siblings stand at a place that their container holds. -/
theorem exists_place_of_childrenOf? (h : forest.childrenOf? parent = some siblings) :
    ∃ place : Place, forest = place.fill siblings ∧ place.holder none = parent := by
  cases parent with
  | none => exact ⟨[], Option.some.inj h, rfl⟩
  | some id =>
    obtain ⟨container, hfind, hchildren⟩ := Option.bind_eq_some_iff.mp h
    have hid : container.id = id := by simpa using List.find?_some hfind
    cases container with
    | leaf fields => cases hchildren
    | group fields children =>
      obtain rfl : children = siblings := Option.some.inj hchildren
      obtain ⟨outer, before, after, heq⟩ := Place.exists_fill (List.mem_of_find?_eq_some hfind)
      refine ⟨outer ++ [⟨before, fields, after⟩], ?_, ?_⟩
      · rw [Place.fill_append, heq]
        rfl
      · rw [Place.holder_append]
        exact congrArg some hid

/-- An element is put in among the siblings of a container. -/
theorem insert_fill (position : Option Int) (element : Element)
    (hdistinct : (place.fill siblings).allIds.Nodup) :
    (place.fill siblings).insert (place.holder none) position element =
      place.fill (insertAt position element siblings) := by
  rcases List.eq_nil_or_concat place with rfl | ⟨outer, frame, rfl⟩
  · rfl
  · rw [List.concat_eq_append, Place.fill_append] at hdistinct ⊢
    rw [Place.fill_append, Place.holder_append]
    exact insertUnder_fill position element hdistinct

/-! ## Positions -/

/-- Wherever an item is put in, the others stand in front of it and behind it. -/
theorem exists_insertAt {α : Type} (position : Option Int) (item : α) (items : List α) :
    ∃ before after, insertAt position item items = before ++ item :: after ∧
      before ++ after = items :=
  ⟨_, _, rfl, List.take_append_drop _ _⟩

/-- An item with the others in front of it and behind it. -/
theorem exists_eraseIdx {α : Type} {items : List α} {index : Nat} {item : α}
    (h : items[index]? = some item) :
    ∃ before after, items = before ++ item :: after ∧ items.eraseIdx index = before ++ after ∧
      before.length = index := by
  obtain ⟨hlt, rfl⟩ := List.getElem?_eq_some_iff.mp h
  refine ⟨items.take index, items.drop (index + 1), ?_, List.eraseIdx_eq_take_drop_succ ..,
    List.length_take_of_le (Nat.le_of_lt hlt)⟩
  rw [List.getElem_cons_drop, List.take_append_drop]

/-! ## There and back -/

/-- Taking out an element gives it with all that is below it, and leaves the forest that
lacks it at its place only; putting it in at the same index under the same id gives the
forest again.  The other way round, an element with a new id that is put in anywhere is
taken out again under its id, and leaves the forest as it was. -/
theorem remove?_insert_inverse (forest : Forest) (hdistinct : forest.allIds.Nodup) :
    (∀ parent siblings index element, forest.childrenOf? parent = some siblings →
      siblings[index]? = some element →
        ∃ place : Place, place.holder none = parent ∧ forest = place.fill siblings ∧
          forest.remove? element.id = some (element, place.fill (siblings.eraseIdx index)) ∧
          (place.fill (siblings.eraseIdx index)).insert parent (some index) element = forest) ∧
      ∀ parent position element, (forest.childrenOf? parent).isSome →
        element.id ∉ forest.allIds →
          (forest.insert parent position element).remove? element.id = some (element, forest) := by
  refine ⟨fun parent siblings index element hsiblings helement => ?_,
    fun parent position element hparent hnew => ?_⟩
  · obtain ⟨place, rfl, rfl⟩ := exists_place_of_childrenOf? hsiblings
    obtain ⟨before, after, rfl, herase, rfl⟩ := exists_eraseIdx helement
    refine ⟨place, rfl, rfl, ?_⟩
    rw [herase]
    have hrest : (place.fill (before ++ after)).allIds.Nodup := by
      have hputIn : PutIn element (place.fill (before ++ after))
          (place.fill (before ++ element :: after)) := ⟨place, before, after, rfl, rfl⟩
      exact (List.nodup_append.mp (hputIn.allIds_perm.nodup_iff.mp hdistinct)).2.1
    refine ⟨remove?_fill hdistinct, ?_⟩
    rw [insert_fill _ _ hrest, insertAt_length]
  · obtain ⟨siblings, hsiblings⟩ := Option.isSome_iff_exists.mp hparent
    obtain ⟨place, rfl, rfl⟩ := exists_place_of_childrenOf? hsiblings
    obtain ⟨before, after, hinsert, rfl⟩ := exists_insertAt position element siblings
    have hbefore : element.id ∉ ids before := fun hmem =>
      hnew (Place.mem_allIds_fill (mem_allIds_of_mem_ids
        ((ids_append before after).symm ▸ List.mem_append_left _ hmem)))
    rw [insert_fill _ _ hdistinct, hinsert,
      remove?_fill_of_lacks (Place.lacks_of_notMem hnew) hbefore]

/-- A column with a number in it, behind a label in a box. -/
def drawer : Forest :=
  [.group { widget := .box, label := "Box", id := "a" }
    [.leaf { widget := .label, label := "Label", id := "b" },
      .group { widget := .verticalGroup, label := "Vertical", id := "c" }
        [.leaf { widget := .intField, label := "Number", id := "d", variableName := "n" }]]]

theorem allIds_drawer : drawer.allIds = ["a", "b", "c", "d"] := by
  simp [drawer, Element.children, Element.children?]
  exact ⟨rfl, rfl, rfl, rfl⟩

/-- The column leaves the box and comes back to it; a toggle comes into the column, in front
of its last element, and leaves it again. -/
theorem remove?_insert_inverse_drawer :
    let column : Element := .group { widget := .verticalGroup, label := "Vertical", id := "c" }
      [.leaf { widget := .intField, label := "Number", id := "d", variableName := "n" }]
    let label : Element := .leaf { widget := .label, label := "Label", id := "b" }
    let toggle : Element := .leaf { widget := .toggle, label := "On", id := "e" }
    drawer.allIds.Nodup ∧ drawer.childrenOf? (some "a") = some [label, column] ∧
      (∃ place : Place, place.holder none = some "a" ∧ drawer = place.fill [label, column] ∧
        drawer.remove? "c" = some (column, place.fill [label]) ∧
        (place.fill [label]).insert (some "a") (some 1) column = drawer) ∧
      (drawer.childrenOf? (some "c")).isSome ∧ toggle.id ∉ drawer.allIds ∧
      (drawer.insert (some "c") (some (-1)) toggle).remove? "e" = some (toggle, drawer) := by
  intro column label toggle
  have hdistinct : drawer.allIds.Nodup := by
    rw [allIds_drawer]
    decide
  have hbox : drawer.childrenOf? (some "a") = some [label, column] := by
    simp [childrenOf?, find?, flatten, drawer, Element.id, Element.fields, Element.children?,
      label, column]
  have hcolumn : (drawer.childrenOf? (some "c")).isSome := by
    simp [childrenOf?, find?, flatten, drawer, Element.id, Element.fields, Element.children?]
  have hnew : toggle.id ∉ drawer.allIds := by
    rw [allIds_drawer]
    decide
  obtain ⟨hback, hthere⟩ := remove?_insert_inverse drawer hdistinct
  exact ⟨hdistinct, hbox, hback _ _ 1 column hbox rfl, hcolumn, hnew,
    hthere _ (some (-1)) toggle hcolumn hnew⟩

end Forest

end EditorScript
