import EditorScript.Proofs.Relocation

/-!
# Edits at a place

Where ids are distinct, an edit finds its element at the only place where it stands
and leaves everything around that place as it is.  Each edit passes what it does not
concern: it gives back a forest without the id, and it treats the parts of a forest
on their own.
-/

namespace EditorScript

/-- An id tells a container at a place: any id does so among the roots, and any but the empty
one further down. -/
def Place.Names (place : Place) (id : Text) : Prop :=
  place = [] ∨ id ≠ []

instance (place : Place) (id : Text) : Decidable (place.Names id) :=
  inferInstanceAs (Decidable (place = [] ∨ id ≠ []))

/-- The container that holds the siblings at a place, if there is one, is told by its id. -/
def Place.NamesHolder (place : Place) : Prop :=
  ∀ (outer : Place) (frame : Frame), place = outer ++ [frame] → outer.Names frame.fields.id

namespace Forest

variable {id parent : Text} {element : Element} {fields : ElementFields}
variable {before after children rest forest siblings : Forest} {place : Place}

theorem ids_append (before after : Forest) : ids (before ++ after) = ids before ++ ids after :=
  List.map_append

theorem ids_cons (element : Element) (rest : Forest) :
    ids (element :: rest) = element.id :: ids rest := rfl

theorem mem_ids_middle : element.id ∈ ids (before ++ element :: after) := by
  rw [ids_append, ids_cons]
  exact List.mem_append_right _ List.mem_cons_self

theorem id_notMem_ids (h : id ∉ forest.allIds) : id ∉ forest.ids :=
  fun hin => h (mem_allIds_of_mem_ids hin)

/-- Below the roots, a place that lacks an id keeps it from the roots. -/
theorem notMem_ids_fill {frame : Frame} {inner : Place} (h : Place.Lacks id (frame :: inner))
    (siblings : Forest) : id ∉ ids (Place.fill (frame :: inner) siblings) := by
  obtain ⟨⟨hbefore, hfields, hafter⟩, -⟩ := List.forall_mem_cons.mp h
  rw [Place.fill, ids_append, ids_cons, List.mem_append, List.mem_cons, not_or, not_or]
  exact ⟨id_notMem_ids hbefore, hfields, id_notMem_ids hafter⟩

theorem notMem_allIds_leaf (h : id ∉ allIds (.leaf fields :: rest)) :
    fields.id ≠ id ∧ id ∉ rest.allIds := by
  rw [allIds_cons, List.mem_cons, List.mem_append, not_or, not_or] at h
  exact ⟨fun heq => h.1 heq.symm, h.2.2⟩

theorem notMem_allIds_group (h : id ∉ allIds (.group fields children :: rest)) :
    fields.id ≠ id ∧ id ∉ children.allIds ∧ id ∉ rest.allIds := by
  rw [allIds_cons, List.mem_cons, List.mem_append, not_or, not_or] at h
  exact ⟨fun heq => h.1 heq.symm, h.2⟩

/-- Where ids are distinct, the other elements do not have that of a given one. -/
theorem notMem_of_nodup (h : (allIds (before ++ element :: after)).Nodup) :
    element.id ∉ before.allIds ∧ element.id ∉ allIds element.children ∧
      element.id ∉ after.allIds := by
  rw [allIds_append, allIds_cons] at h
  obtain ⟨-, hown, hapart⟩ := List.nodup_append.mp h
  have hbelow := (List.nodup_cons.mp hown).1
  rw [List.mem_append, not_or] at hbelow
  exact ⟨fun hin => hapart _ hin _ (List.mem_cons_self ..) rfl, hbelow⟩

theorem mem_allIds_of_cons : element.id ∈ allIds (before ++ element :: after) := by
  rw [allIds_append, allIds_cons]
  exact List.mem_append_right _ (List.mem_cons_self ..)

/-! ## Looking up -/

/-- Where ids are distinct, an element is the one with its id. -/
theorem find?_of_mem (hdistinct : forest.allIds.Nodup) (h : element ∈ forest.flatten) :
    forest.find? element.id = some element := by
  rw [allIds, nodes, List.map_map] at hdistinct
  rw [find?, List.find?_eq_some_iff_append]
  refine ⟨by simp, ?_⟩
  obtain ⟨front, back, heq⟩ := List.append_of_mem h
  refine ⟨front, back, heq, fun other hother => ?_⟩
  rw [heq, List.map_append, List.nodup_append] at hdistinct
  have := hdistinct.2.2 other.id (List.mem_map.mpr ⟨other, hother, rfl⟩) element.id
    (List.mem_map.mpr ⟨element, List.mem_cons_self .., rfl⟩)
  simpa using this

theorem find?_isSome : (forest.find? id).isSome ↔ id ∈ forest.allIds := by
  rw [find?, List.find?_isSome, mem_allIds]
  simp

theorem mem_flatten_fill : element ∈ flatten (place.fill (before ++ element :: after)) := by
  induction place with
  | nil =>
    rw [Place.fill, flatten_append, flatten_cons]
    exact List.mem_append_right _ (List.mem_cons_self ..)
  | cons frame inner ih =>
    rw [Place.fill, flatten_append, flatten_cons]
    exact List.mem_append_right _ (List.mem_cons_of_mem _ (List.mem_append_left _ ih))

theorem mem_nodes_fill : element.fields ∈ nodes (place.fill (before ++ element :: after)) :=
  List.mem_map.mpr ⟨element, mem_flatten_fill, rfl⟩

/-- Where ids are distinct, the id tells the node. -/
theorem nodes_inj (hdistinct : forest.allIds.Nodup) {node other : ElementFields}
    (hnode : node ∈ forest.nodes) (hother : other ∈ forest.nodes) (hid : node.id = other.id) :
    node = other :=
  List.inj_on_of_nodup_map hdistinct hnode hother hid

/-- A well-shaped layout is a container. -/
theorem exists_group (h : Shaped (place.fill (before ++ element :: after)))
    (hlayout : element.widget.isLayout) : ∃ fields children, element = .group fields children := by
  cases element with
  | leaf fields =>
    have hchildren := h _ mem_flatten_fill
    rw [hlayout] at hchildren
    exact absurd hchildren (by simp [Element.children?])
  | group fields children => exact ⟨fields, children, rfl⟩

/-- A well-shaped element that is no layout is a leaf. -/
theorem exists_leaf (h : Shaped (place.fill (before ++ element :: after)))
    (hlayout : element.widget.isLayout = false) : ∃ fields, element = .leaf fields := by
  cases element with
  | leaf fields => exact ⟨fields, rfl⟩
  | group fields children =>
    have hchildren := h _ mem_flatten_fill
    rw [hlayout] at hchildren
    exact absurd hchildren (by simp [Element.children?])

/-! ## Taking out -/

theorem takeSibling?_eq_none (h : id ∉ forest.ids) : takeSibling? id forest = none := by
  induction forest with
  | nil => rfl
  | cons element rest ih =>
    rw [ids_cons, List.mem_cons, not_or] at h
    rw [takeSibling?, if_neg fun heq => h.1 heq.symm, ih h.2]
    rfl

theorem takeSibling?_append (h : element.id ∉ before.ids) :
    takeSibling? element.id (before ++ element :: after) = some (element, before ++ after) := by
  induction before with
  | nil => rw [List.nil_append, takeSibling?, if_pos rfl]; rfl
  | cons first others ih =>
    rw [ids_cons, List.mem_cons, not_or] at h
    rw [List.cons_append, takeSibling?, if_neg fun heq => h.1 heq.symm, ih h.2]
    rfl

theorem remove?_eq_none (h : id ∉ forest.allIds) : remove? id forest = none := by
  have hbelow : takeBelow? id forest = none := by
    induction forest using shapeInduction with
    | nil => simp [takeBelow?]
    | leaf fields rest ih =>
      rw [takeBelow?, ih (notMem_allIds_leaf h).2]
      rfl
    | group fields children rest ihChildren ih =>
      obtain ⟨-, hchildren, hrest⟩ := notMem_allIds_group h
      rw [takeBelow?, takeSibling?_eq_none (id_notMem_ids hchildren), ihChildren hchildren, ih hrest]
      rfl
  rw [remove?, takeSibling?_eq_none (id_notMem_ids h), hbelow]
  rfl

theorem takeBelow?_append (h : id ∉ before.allIds) :
    takeBelow? id (before ++ rest) =
      (takeBelow? id rest).map fun (taken, others) => (taken, before ++ others) := by
  induction before using shapeInduction with
  | nil => cases h : takeBelow? id rest <;> simp [h]
  | leaf fields others ih =>
    rw [List.cons_append, takeBelow?, ih (notMem_allIds_leaf h).2]
    cases takeBelow? id rest <;> rfl
  | group fields children others _ ih =>
    obtain ⟨-, hchildren, hothers⟩ := notMem_allIds_group h
    have hnone : (takeSibling? id children).or (takeBelow? id children) = none :=
      remove?_eq_none hchildren
    rw [List.cons_append, takeBelow?, hnone, ih hothers]
    cases takeBelow? id rest <;> rfl

/-- An element is taken out from a place where nothing in front of it and nothing around its
siblings has its id. -/
theorem remove?_fill_of_lacks (hlacks : place.Lacks element.id) (hbefore : element.id ∉ before.ids) :
    remove? element.id (place.fill (before ++ element :: after)) =
      some (element, place.fill (before ++ after)) := by
  induction place with
  | nil => rw [Place.fill, remove?, takeSibling?_append hbefore]; rfl
  | cons frame inner ih =>
    obtain ⟨⟨hbefore, -, -⟩, hinner⟩ := List.forall_mem_cons.mp hlacks
    have hremoved := ih hinner
    rw [remove?] at hremoved
    rw [remove?, takeSibling?_eq_none (notMem_ids_fill hlacks _), Option.none_or, Place.fill,
      takeBelow?_append hbefore, takeBelow?, hremoved]
    rfl

/-- An element is taken out from the place where it stands. -/
theorem remove?_fill (hdistinct : (place.fill (before ++ element :: after)).allIds.Nodup) :
    remove? element.id (place.fill (before ++ element :: after)) =
      some (element, place.fill (before ++ after)) :=
  remove?_fill_of_lacks (Place.lacks_of_nodup hdistinct mem_allIds_of_cons)
    (id_notMem_ids (notMem_of_nodup (Place.nodup_siblings hdistinct)).1)

/-- So is an element of a container. -/
theorem remove?_group {left right : Forest} (hdistinct : (place.fill
      (before ++ .group fields (left ++ element :: right) :: after)).allIds.Nodup) :
    remove? element.id (place.fill (before ++ .group fields (left ++ element :: right) :: after)) =
      some (element, place.fill (before ++ .group fields (left ++ right) :: after)) := by
  have hinside := Place.fill_concat place ⟨before, fields, after⟩
  rw [← hinside] at hdistinct
  have hremove := remove?_fill hdistinct
  rwa [hinside, hinside] at hremove

/-! ## Putting in -/

theorem insertAt_none {α : Type} (item : α) (items : List α) :
    insertAt none item items = items ++ [item] := by
  have hplace : ¬(items.length : Int) < 0 := by omega
  simp [insertAt, hplace]

/-- At the length of a front the item comes behind that front. -/
theorem insertAt_length {α : Type} (item : α) (left right : List α) :
    insertAt (some (left.length : Int)) item (left ++ right) = left ++ item :: right := by
  have hplace : ¬(left.length : Int) < 0 := by omega
  have hmin : min (left.length : Int) ((left ++ right).length : Int) = left.length := by
    rw [List.length_append]
    omega
  rw [insertAt, Option.getD_some]
  simp only [if_neg hplace, hmin, Int.toNat_natCast, List.take_left', List.drop_left']

theorem insertUnder_append (position : Option Int) (before after : Forest) :
    insertUnder parent position element (before ++ after) =
      insertUnder parent position element before ++ insertUnder parent position element after := by
  induction before using shapeInduction with
  | nil => simp [insertUnder]
  | leaf fields rest ih => simp only [List.cons_append, insertUnder, ih]
  | group fields children rest _ ih => simp only [List.cons_append, insertUnder, ih]

theorem insertUnder_eq_self {position : Option Int} (h : parent ∉ forest.allIds) :
    insertUnder parent position element forest = forest := by
  induction forest using shapeInduction with
  | nil => simp [insertUnder]
  | leaf fields rest ih => rw [insertUnder, ih (notMem_allIds_leaf h).2]
  | group fields children rest ihChildren ih =>
    obtain ⟨hown, hchildren, hrest⟩ := notMem_allIds_group h
    rw [insertUnder, if_neg hown, ihChildren hchildren, ih hrest]

/-- An element is put into the container where that stands. -/
theorem insertUnder_fill (position : Option Int) (element : Element)
    (hdistinct : (place.fill (before ++ .group fields children :: after)).allIds.Nodup) :
    insertUnder fields.id position element (place.fill (before ++ .group fields children :: after)) =
      place.fill (before ++ .group fields (insertAt position element children) :: after) := by
  have hsiblings := notMem_of_nodup (Place.nodup_siblings hdistinct)
  have hbefore : fields.id ∉ before.allIds := hsiblings.1
  have hafter : fields.id ∉ after.allIds := hsiblings.2.2
  have hlacks : place.Lacks fields.id := Place.lacks_of_nodup hdistinct mem_allIds_of_cons
  clear hdistinct hsiblings
  induction place with
  | nil =>
    rw [Place.fill, insertUnder_append, insertUnder_eq_self hbefore, insertUnder, if_pos rfl,
      insertUnder_eq_self hafter]
    rfl
  | cons frame inner ih =>
    obtain ⟨⟨hbefore, hfields, hafter⟩, hinner⟩ := List.forall_mem_cons.mp hlacks
    rw [Place.fill, insertUnder_append, insertUnder_eq_self hbefore, insertUnder,
      if_neg fun heq => hfields heq.symm, insertUnder_eq_self hafter, ih hinner]
    rfl

/-! ## Changing fields -/

variable {change : Element → Element}

theorem update_append (before after : Forest) :
    update id change (before ++ after) = update id change before ++ update id change after := by
  induction before using shapeInduction with
  | nil => simp [update]
  | leaf fields rest ih => simp only [List.cons_append, update, ih]
  | group fields children rest _ ih => simp only [List.cons_append, update, ih]

theorem update_eq_self (h : id ∉ forest.allIds) : update id change forest = forest := by
  induction forest using shapeInduction with
  | nil => simp [update]
  | leaf fields rest ih =>
    obtain ⟨hown, hrest⟩ := notMem_allIds_leaf h
    rw [update, if_neg hown, ih hrest]
  | group fields children rest ihChildren ih =>
    obtain ⟨hown, hchildren, hrest⟩ := notMem_allIds_group h
    rw [update, if_neg hown, ihChildren hchildren, ih hrest]

/-- An element is changed where it stands. -/
theorem update_fill (change : Element → Element)
    (hdistinct : (place.fill (before ++ element :: after)).allIds.Nodup) :
    update element.id change (place.fill (before ++ element :: after)) =
      place.fill (before ++ change element :: after) := by
  obtain ⟨hbefore, -, hafter⟩ := notMem_of_nodup (Place.nodup_siblings hdistinct)
  have hlacks := Place.lacks_of_nodup hdistinct mem_allIds_of_cons
  clear hdistinct
  induction place with
  | nil =>
    have hown : update element.id change (element :: after) = change element :: after := by
      cases element with
      | leaf fields => rw [update, update_eq_self hafter, if_pos (by rfl)]
      | group fields children => rw [update, update_eq_self hafter, if_pos (by rfl)]
    rw [Place.fill, update_append, update_eq_self hbefore, hown]
    rfl
  | cons frame inner ih =>
    obtain ⟨⟨hbefore, hfields, hafter⟩, hinner⟩ := List.forall_mem_cons.mp hlacks
    rw [Place.fill, update_append, update_eq_self hbefore, update,
      if_neg fun heq => hfields heq.symm, update_eq_self hafter, ih hinner]
    rfl

/-! ## Moving among siblings -/

variable {direction : Direction}

theorem moveBelow_append (before after : Forest) :
    move.moveBelow id direction (before ++ after) =
      move.moveBelow id direction before ++ move.moveBelow id direction after := by
  induction before using shapeInduction with
  | nil => simp [move.moveBelow]
  | leaf fields rest ih => simp only [List.cons_append, move.moveBelow, ih]
  | group fields children rest _ ih => simp only [List.cons_append, move.moveBelow, ih]

theorem moveBelow_eq_self (h : id ∉ forest.allIds) : move.moveBelow id direction forest = forest := by
  induction forest using shapeInduction with
  | nil => simp [move.moveBelow]
  | leaf fields rest ih => rw [move.moveBelow, ih (notMem_allIds_leaf h).2]
  | group fields children rest ihChildren ih =>
    obtain ⟨-, hchildren, hrest⟩ := notMem_allIds_group h
    have habsent : (ids children).contains id = false := by
      simpa using id_notMem_ids hchildren
    rw [move.moveBelow, habsent, ihChildren hchildren, ih hrest]
    rfl

/-- An element that is not there is not moved. -/
theorem move_eq_self (h : id ∉ forest.allIds) : move id direction forest = forest := by
  have habsent : forest.ids.contains id = false := by
    simpa using id_notMem_ids h
  rw [move, habsent, moveBelow_eq_self h]
  rfl

/-- A move concerns the siblings of the element and nothing around them. -/
theorem move_fill (direction : Direction)
    (hdistinct : (place.fill siblings).allIds.Nodup) (h : id ∈ siblings.ids) :
    move id direction (place.fill siblings) = place.fill (moveSibling id direction siblings) := by
  have hlacks := Place.lacks_of_nodup hdistinct (mem_allIds_of_mem_ids h)
  have hmem : siblings.ids.contains id = true := by simpa using h
  clear hdistinct
  induction place with
  | nil => rw [Place.fill, move, hmem]; rfl
  | cons frame inner ih =>
    obtain ⟨⟨hbefore, -, hafter⟩, hinner⟩ := List.forall_mem_cons.mp hlacks
    have habsent : (ids (Place.fill (frame :: inner) siblings)).contains id = false := by
      simpa using notMem_ids_fill hlacks siblings
    have hbelow := ih hinner
    rw [move] at hbelow
    rw [move, habsent, Place.fill, if_neg Bool.false_ne_true, moveBelow_append,
      moveBelow_eq_self hbefore, move.moveBelow, hbelow, moveBelow_eq_self hafter]
    rfl

variable {active onto : Text}

theorem reorderBelow_append (before after : Forest) :
    reorder.reorderBelow active onto (before ++ after) =
      reorder.reorderBelow active onto before ++ reorder.reorderBelow active onto after := by
  induction before using shapeInduction with
  | nil => simp [reorder.reorderBelow]
  | leaf fields rest ih => simp only [List.cons_append, reorder.reorderBelow, ih]
  | group fields children rest _ ih => simp only [List.cons_append, reorder.reorderBelow, ih]

/-- Elements that are no siblings are not reordered. -/
theorem reorder_eq_self
    (h : ∀ (place : Place) (siblings : Forest), forest = place.fill siblings →
      ¬(active ∈ siblings.ids ∧ onto ∈ siblings.ids)) :
    reorder active onto forest = forest := by
  have hbelow : ∀ forest : Forest,
      (∀ (frame : Frame) (place : Place) (siblings : Forest),
        forest = Place.fill (frame :: place) siblings →
          ¬(active ∈ siblings.ids ∧ onto ∈ siblings.ids)) →
      reorder.reorderBelow active onto forest = forest := by
    intro forest
    induction forest using shapeInduction with
    | nil => simp [reorder.reorderBelow]
    | leaf fields rest ih =>
      intro h
      rw [reorder.reorderBelow, ih fun frame place siblings heq =>
        h ⟨.leaf fields :: frame.before, frame.fields, frame.after⟩ place siblings (by rw [heq]; rfl)]
    | group fields children rest ihChildren ih =>
      intro h
      have habsent : ((ids children).contains active && (ids children).contains onto) = false := by
        simpa using h ⟨[], fields, rest⟩ [] children rfl
      rw [reorder.reorderBelow, habsent,
        ihChildren fun frame place siblings heq =>
          h ⟨[], fields, rest⟩ (frame :: place) siblings (by rw [heq]; rfl),
        ih fun frame place siblings heq =>
          h ⟨.group fields children :: frame.before, frame.fields, frame.after⟩ place siblings
            (by rw [heq]; rfl)]
      rfl
  have habsent : (forest.ids.contains active && forest.ids.contains onto) = false := by
    simpa using h [] forest rfl
  rw [reorder, habsent, hbelow forest fun frame place siblings heq => h _ siblings heq]
  rfl

theorem reorderBelow_eq_self (h : active ∉ forest.allIds) :
    reorder.reorderBelow active onto forest = forest := by
  induction forest using shapeInduction with
  | nil => simp [reorder.reorderBelow]
  | leaf fields rest ih => rw [reorder.reorderBelow, ih (notMem_allIds_leaf h).2]
  | group fields children rest ihChildren ih =>
    obtain ⟨-, hchildren, hrest⟩ := notMem_allIds_group h
    have habsent : (ids children).contains active = false := by
      simpa using id_notMem_ids hchildren
    rw [reorder.reorderBelow, habsent, ihChildren hchildren, ih hrest]
    rfl

/-- Reordering concerns the siblings and nothing around them. -/
theorem reorder_fill (hdistinct : (place.fill siblings).allIds.Nodup)
    (hactive : active ∈ siblings.ids) (honto : onto ∈ siblings.ids) :
    reorder active onto (place.fill siblings) =
      place.fill (reorderSiblings active onto siblings) := by
  have hlacks := Place.lacks_of_nodup hdistinct (mem_allIds_of_mem_ids hactive)
  have hmem : (siblings.ids.contains active && siblings.ids.contains onto) = true := by
    simpa using ⟨hactive, honto⟩
  clear hdistinct
  induction place with
  | nil => rw [Place.fill, reorder, hmem]; rfl
  | cons frame inner ih =>
    obtain ⟨⟨hbefore, -, hafter⟩, hinner⟩ := List.forall_mem_cons.mp hlacks
    have habsent : (ids (Place.fill (frame :: inner) siblings)).contains active = false := by
      simpa using notMem_ids_fill hlacks siblings
    have hbelow := ih hinner
    rw [reorder] at hbelow
    rw [reorder, habsent, Bool.false_and, Place.fill, if_neg Bool.false_ne_true, reorderBelow_append,
      reorderBelow_eq_self hbefore, reorder.reorderBelow, hbelow, reorderBelow_eq_self hafter]
    rfl

/-! ## Parents -/

theorem parentId?_eq_none (h : id ∉ forest.allIds) : parentId? id forest = none := by
  induction forest using shapeInduction with
  | nil => simp [parentId?]
  | leaf fields rest ih => rw [parentId?, ih (notMem_allIds_leaf h).2]
  | group fields children rest ihChildren ih =>
    obtain ⟨-, hchildren, hrest⟩ := notMem_allIds_group h
    have habsent : ¬(children.map (·.id)).contains id := by
      simpa [ids] using id_notMem_ids hchildren
    rw [parentId?, if_neg habsent, ihChildren hchildren, ih hrest]

theorem parentId?_cons (h : id ∉ allIds element.children) :
    parentId? id (element :: rest) = parentId? id rest := by
  cases element with
  | leaf fields => rw [parentId?]
  | group fields children =>
    have hbelow : id ∉ allIds children := h
    have habsent : ¬(children.map (·.id)).contains id := by
      simpa [ids] using id_notMem_ids hbelow
    rw [parentId?, if_neg habsent, parentId?_eq_none hbelow]

theorem parentId?_append (h : id ∉ before.allIds) :
    parentId? id (before ++ rest) = parentId? id rest := by
  induction before with
  | nil => rfl
  | cons element others ih =>
    rw [allIds_cons, List.mem_cons, List.mem_append, not_or, not_or] at h
    rw [List.cons_append, parentId?_cons h.2.1, ih h.2.2]

/-- Roots have no parent. -/
theorem parentId?_root (hdistinct : (allIds (before ++ element :: after)).Nodup) :
    parentId? element.id (before ++ element :: after) = none := by
  obtain ⟨hbefore, hchildren, hafter⟩ := notMem_of_nodup hdistinct
  rw [parentId?_append hbefore, parentId?_cons hchildren, parentId?_eq_none hafter]

/-- The parent of an element is the container that it stands in.  Below the roots, one with
an empty id is passed over. -/
theorem parentId?_fill {left right : Forest} (element : Element)
    (hdistinct : (place.fill
      (before ++ .group fields (left ++ element :: right) :: after)).allIds.Nodup) :
    parentId? element.id (place.fill (before ++ .group fields (left ++ element :: right) :: after)) =
      if place.Names fields.id then some fields.id else none := by
  have hmem : element.id ∈ allIds (left ++ element :: right) := mem_allIds_of_cons
  have hsiblings := Place.nodup_siblings hdistinct
  have hlacks : place.Lacks element.id := by
    refine Place.lacks_of_nodup hdistinct ?_
    rw [allIds_append, allIds_cons]
    exact List.mem_append_right _ (List.mem_cons_of_mem _ (List.mem_append_left _ hmem))
  rw [allIds_append, allIds_cons] at hsiblings
  obtain ⟨-, hown, hapart⟩ := List.nodup_append.mp hsiblings
  obtain ⟨hfields, hbelow⟩ := List.nodup_cons.mp hown
  have hbefore : element.id ∉ before.allIds := fun hin =>
    hapart _ hin _ (List.mem_cons_of_mem _ (List.mem_append_left _ hmem)) rfl
  have hne : element.id ≠ fields.id := fun heq => by
    rw [heq] at hmem
    exact hfields (List.mem_append_left _ hmem)
  have hafter : element.id ∉ after.allIds := fun hin =>
    (List.nodup_append.mp hbelow).2.2 _ hmem _ hin rfl
  clear hdistinct hsiblings hown hapart hfields hbelow
  induction place with
  | nil =>
    have hchild : ((left ++ element :: right).map (·.id)).contains element.id := by simp
    rw [Place.fill, parentId?_append hbefore, parentId?, if_pos hchild, if_pos (.inl rfl)]
  | cons frame inner ih =>
    obtain ⟨⟨hframe, -, hbehind⟩, hinner⟩ := List.forall_mem_cons.mp hlacks
    have habsent : ¬((Place.fill inner
        (before ++ .group fields (left ++ element :: right) :: after)).map (·.id)).contains
          element.id := by
      cases inner with
      | nil =>
        have hids : element.id ∉ before.ids ∧ element.id ≠ fields.id ∧ element.id ∉ after.ids :=
          ⟨id_notMem_ids hbefore, hne, id_notMem_ids hafter⟩
        simpa [Place.fill, ids, Element.id, Element.fields] using hids
      | cons next others => simpa [ids] using notMem_ids_fill hinner _
    rw [Place.fill, parentId?_append hframe, parentId?, if_neg habsent, ih hinner,
      parentId?_eq_none hbehind]
    -- an empty id that is found below `frame` does not end the search
    cases hid : fields.id with
    | nil =>
      have hpassed : ¬Place.Names (frame :: inner) [] := by simp [Place.Names]
      rw [if_neg hpassed]
      by_cases hroot : Place.Names inner [] <;> simp only [hroot, if_true, if_false]
    | cons first others =>
      have hnamed : ∀ place : Place, place.Names (first :: others) := fun place => .inr (by simp)
      rw [if_pos (hnamed _), if_pos (hnamed _)]

end Forest

end EditorScript
