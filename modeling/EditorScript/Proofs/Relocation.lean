import EditorScript.Proofs.Place

/-!
# Elements that change their place

A forest of which another one has an element more is all that an edit leaves as it
was: taking an element out and putting it in again relates two forests through the
one that lacks it.

* `Forest.PutIn` says that a forest is another one with an element put in.
* `Forest.KeepsOthers` says that the elements that were not moved keep their
  parents and their order.
* `Forest.Sound` collects what sessions keep true of their forest.
-/

namespace EditorScript

namespace Forest

/-- A forest is another one with an element put in, at any depth. -/
def PutIn (element : Element) (rest forest : Forest) : Prop :=
  ∃ (place : Place) (before after : Forest),
    rest = place.fill (before ++ after) ∧ forest = place.fill (before ++ element :: after)

/-- All elements but those with the given ids have the same parents in both forests,
and the same order among the children of each. -/
def KeepsOthers (moved : List Text) (before after : Forest) : Prop :=
  ∀ parent, (after.childIds parent).filter (· ∉ moved) =
    (before.childIds parent).filter (· ∉ moved)

/-- Every element is a container exactly when its widget is a layout. -/
def Shaped (forest : Forest) : Prop :=
  ∀ element ∈ forest.flatten, element.children?.isSome = element.widget.isLayout

/-- Ids are distinct and not empty, and exactly the layouts have children. -/
structure Sound (forest : Forest) : Prop where
  distinct : forest.allIds.Nodup
  named : [] ∉ forest.allIds
  shaped : forest.Shaped

variable {element : Element} {rest before after forest : Forest} {moved : List Text}
variable {place : Place} {parent : Option Text}

/-! ## What is read around an element -/

/-- What is read of a forest is what is read of the one without an element, and the
element with everything below it. -/
theorem PutIn.placed (h : PutIn element rest forest) :
    ∃ front holder back, rest.placed none = front ++ back ∧
      forest.placed none =
        front ++ (holder, element.fields) ::
          (Forest.placed (some element.id) element.children ++ back) := by
  obtain ⟨place, before, after, rfl, rfl⟩ := h
  refine ⟨place.front none ++ before.placed (place.holder none), place.holder none,
    after.placed (place.holder none) ++ place.back none, ?_, ?_⟩
  · rw [Place.placed_fill, placed_append]
    simp only [List.append_assoc]
  · rw [Place.placed_fill, placed_append, placed_cons]
    simp only [List.append_assoc, List.cons_append]

theorem PutIn.nodes_perm (h : PutIn element rest forest) :
    forest.nodes.Perm (nodes [element] ++ rest.nodes) := by
  obtain ⟨front, holder, back, hrest, hforest⟩ := h.placed
  rw [← map_snd_placed none forest, ← map_snd_placed none rest, hrest,
    hforest, nodes_cons]
  simp only [List.map_append, List.map_cons, map_snd_placed, List.cons_append, List.append_assoc]
  refine List.perm_middle.trans (List.Perm.cons _ ?_)
  have hnil : nodes [] = [] := by simp [nodes, flatten]
  rw [hnil, List.nil_append]
  exact List.perm_append_comm_assoc _ _ _

theorem PutIn.allIds_perm (h : PutIn element rest forest) :
    forest.allIds.Perm (allIds [element] ++ rest.allIds) := by
  simpa only [allIds, List.map_append] using h.nodes_perm.map (·.id)

theorem KeepsOthers.symm (h : KeepsOthers moved before after) : KeepsOthers moved after before :=
  fun parent => (h parent).symm

theorem id_mem_allIds_of_mem_placed {above : Option Text} {fields : ElementFields}
    (h : (parent, fields) ∈ forest.placed above) : fields.id ∈ forest.allIds := by
  rw [allIds, ← map_snd_placed above, List.map_map]
  exact List.mem_map.mpr ⟨_, h, rfl⟩

/-- Putting an element in changes nothing about the elements outside of it. -/
theorem PutIn.keepsOthers (h : PutIn element rest forest) :
    KeepsOthers (allIds [element]) rest forest := by
  obtain ⟨front, holder, back, hrest, hforest⟩ := h.placed
  intro parent
  have hown : element.id ∈ allIds [element] := by simp
  have hbelow : (((Forest.placed (some element.id) element.children).filter
      (·.1 = parent)).map (·.2.id)).filter (· ∉ allIds [element]) = [] := by
    refine List.filter_eq_nil_iff.mpr fun id hid => ?_
    obtain ⟨⟨other, fields⟩, hmem, rfl⟩ := List.mem_map.mp hid
    have hin := id_mem_allIds_of_mem_placed (List.mem_of_mem_filter hmem)
    simp [hin]
  rw [childIds, childIds, hrest, hforest]
  simp only [List.filter_append, List.map_append, List.filter_cons]
  split
  · simp only [List.map_cons, List.filter_cons, hown, not_true, decide_false, List.map_append,
      List.filter_append, hbelow, Bool.false_eq_true, if_false, List.nil_append]
  · simp only [List.map_append, List.filter_append, hbelow, List.nil_append]

/-- Where ids are distinct, what an element holds is read of the forest alike
wherever the element stands. -/
theorem PutIn.childIds (h : PutIn element rest forest) (hdistinct : forest.allIds.Nodup)
    (parent : Option Text) :
    (forest.childIds parent).filter (· ∉ [element.id]) =
      if ∃ id ∈ allIds [element], parent = some id then
        (((Forest.placed (some element.id) element.children).filter (·.1 = parent)).map
          (·.2.id)).filter (· ∉ [element.id])
      else (rest.childIds parent).filter (· ∉ [element.id]) := by
  obtain ⟨front, holder, back, hrest, hforest⟩ := h.placed
  have hdisjoint : ∀ id ∈ allIds [element], id ∉ rest.allIds := fun id hid hin =>
    (List.nodup_append.mp (h.allIds_perm.nodup_iff.mp hdistinct)).2.2 id hid id hin rfl
  have hsplit : (forest.childIds parent).filter (· ∉ [element.id]) =
      ((front.filter (·.1 = parent)).map (·.2.id)).filter (· ∉ [element.id]) ++
        ((((Forest.placed (some element.id) element.children).filter (·.1 = parent)).map
          (·.2.id)).filter (· ∉ [element.id]) ++
        ((back.filter (·.1 = parent)).map (·.2.id)).filter (· ∉ [element.id])) := by
    rw [Forest.childIds, hforest]
    simp only [List.filter_append, List.map_append, List.filter_cons]
    split <;> simp
  have hrestIds : (rest.childIds parent).filter (· ∉ [element.id]) =
      ((front.filter (·.1 = parent)).map (·.2.id)).filter (· ∉ [element.id]) ++
        ((back.filter (·.1 = parent)).map (·.2.id)).filter (· ∉ [element.id]) := by
    rw [Forest.childIds, hrest, List.filter_append, List.map_append, List.filter_append]
  rw [hsplit]
  split
  · rename_i hheld
    obtain ⟨id, hid, rfl⟩ := hheld
    -- a parent inside the element is no parent of anything outside of it
    have houtside : ∀ pair ∈ front ++ back, pair.1 ≠ some id := by
      rintro ⟨other, fields⟩ hpair rfl
      rw [← hrest] at hpair
      rcases parent_of_mem_placed hpair with heq | ⟨found, hfound, heq⟩
      · exact absurd heq (by simp)
      · exact hdisjoint id hid (Option.some.inj heq ▸ hfound)
    have hnil : ∀ part : List (Option Text × ElementFields), (∀ pair ∈ part, pair ∈ front ++ back) →
        part.filter (·.1 = some id) = [] := fun part hpart =>
      List.filter_eq_nil_iff.mpr fun pair hpair => by simpa using houtside pair (hpart pair hpair)
    rw [hnil front fun pair => List.mem_append_left _, hnil back fun pair => List.mem_append_right _]
    simp
  · rename_i hheld
    have hnil : (Forest.placed (some element.id) element.children).filter (·.1 = parent) = [] := by
      refine List.filter_eq_nil_iff.mpr ?_
      rintro ⟨other, fields⟩ hpair
      have hmem : ∃ id ∈ allIds [element], other = some id := by
        rcases parent_of_mem_placed hpair with heq | ⟨found, hfound, heq⟩
        · exact ⟨element.id, by simp, heq⟩
        · exact ⟨found, by simp [hfound], heq⟩
      rw [decide_eq_true_eq]
      rintro rfl
      exact hheld hmem
    rw [hnil, hrestIds]
    simp

/-- An element that is taken out and put in again is the only one that gets another
parent or another place among its siblings. -/
theorem PutIn.keepsOthers_of_putIn (hbefore : PutIn element rest before)
    (hafter : PutIn element rest after) (hdistinct : before.allIds.Nodup) :
    KeepsOthers [element.id] before after := by
  intro parent
  have hnodup : after.allIds.Nodup :=
    hafter.allIds_perm.nodup_iff.mpr (hbefore.allIds_perm.nodup_iff.mp hdistinct)
  rw [hafter.childIds hnodup, hbefore.childIds hdistinct]

/-! ## Soundness -/

theorem shaped_nil : Shaped [] := by
  simp [Shaped, flatten]

theorem shaped_append : Shaped (before ++ after) ↔ Shaped before ∧ Shaped after := by
  simp only [Shaped, flatten_append, List.forall_mem_append]

theorem shaped_cons : Shaped (element :: rest) ↔
    element.children?.isSome = element.widget.isLayout ∧ Shaped element.children ∧ Shaped rest := by
  simp only [Shaped, flatten_cons, List.forall_mem_cons, List.forall_mem_append]

/-- Whether siblings at a place are well shaped does not depend on the place. -/
theorem shaped_fill (place : Place) : ∃ around : Prop, ∀ siblings : Forest,
    Shaped (place.fill siblings) ↔ around ∧ Shaped siblings := by
  induction place with
  | nil => exact ⟨True, fun siblings => by rw [Place.fill, true_and]⟩
  | cons frame inner ih =>
    obtain ⟨around, haround⟩ := ih
    refine ⟨Shaped frame.before ∧ (true = frame.fields.widget.isLayout) ∧ around ∧
      Shaped frame.after, fun siblings => ?_⟩
    rw [Place.fill, shaped_append, shaped_cons]
    simp only [Element.children?, Element.children, Option.isSome_some, Option.getD_some, haround,
      Element.widget, Element.fields]
    tauto

theorem PutIn.shaped (h : PutIn element rest forest) :
    forest.Shaped ↔ rest.Shaped ∧ Shaped [element] := by
  obtain ⟨place, before, after, rfl, rfl⟩ := h
  obtain ⟨around, haround⟩ := shaped_fill place
  rw [haround, haround, shaped_append, shaped_append, shaped_cons, shaped_cons]
  have := shaped_nil
  tauto

/-- A forest is sound exactly when it is so without an element, and the element is
sound and shares no ids with the rest. -/
theorem PutIn.sound (h : PutIn element rest forest) :
    forest.Sound ↔ rest.Sound ∧ Sound [element] ∧ (allIds [element]).Disjoint rest.allIds := by
  have hnodup := h.allIds_perm.nodup_iff
  rw [List.nodup_append'] at hnodup
  have hnamed : [] ∈ forest.allIds ↔ [] ∈ allIds [element] ∨ [] ∈ rest.allIds := by
    rw [h.allIds_perm.mem_iff, List.mem_append]
  constructor
  · intro hsound
    obtain ⟨hown, hrest, hdisjoint⟩ := hnodup.mp hsound.distinct
    obtain ⟨hrestShaped, hownShaped⟩ := h.shaped.mp hsound.shaped
    exact ⟨⟨hrest, fun hin => hsound.named (hnamed.mpr (.inr hin)), hrestShaped⟩,
      ⟨hown, fun hin => hsound.named (hnamed.mpr (.inl hin)), hownShaped⟩, hdisjoint⟩
  · rintro ⟨hrest, hown, hdisjoint⟩
    exact ⟨hnodup.mpr ⟨hown.distinct, hrest.distinct, hdisjoint⟩,
      fun hin => (hnamed.mp hin).elim hown.named hrest.named,
      h.shaped.mpr ⟨hrest.shaped, hown.shaped⟩⟩

end Forest

end EditorScript
