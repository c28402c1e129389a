import EditorScript.Forest.Edit
import EditorScript.Model.Catalogue
import Mathlib.Data.List.Nodup
import Mathlib.Tactic.Common

/-!
# Places in a forest

A place is the way down to some siblings: the containers on it, each with the
elements next to it.  Every element of a forest stands at a place, and what an
edit leaves alone is the place.

* `Place.fill` puts siblings at a place.
* `Forest.placed` lists the elements with the ids of their parents.
* `PutIn` relates two forests of which one has an element more.
-/

namespace EditorScript

/-- A container on the way down, with the elements before and behind it. -/
structure Frame where
  before : Forest
  fields : ElementFields
  after : Forest

/-- The containers on the way down to some siblings, the outermost one first. -/
abbrev Place := List Frame

namespace Forest

/-! ## Elements with their parents -/

/-- The fields of all elements, each one before its children. -/
def nodes (forest : Forest) : List ElementFields :=
  forest.flatten.map (·.fields)

/-- The ids of all elements, at every depth. -/
def allIds (forest : Forest) : List Text :=
  forest.nodes.map (·.id)

/-- All elements, each with the id of its parent; `above` is the id of the parent
of the outermost ones. -/
def placed (above : Option Text) : Forest → List (Option Text × ElementFields)
  | [] => []
  | .leaf fields :: rest => (above, fields) :: placed above rest
  | .group fields children :: rest =>
    (above, fields) :: (placed (some fields.id) children ++ placed above rest)

/-- The ids of the children of the container with an id, in their order; without an
id, those of the roots. -/
def childIds (parent : Option Text) (forest : Forest) : List Text :=
  ((forest.placed none).filter (·.1 = parent)).map (·.2.id)

variable {above : Option Text} {fields : ElementFields} {children rest a b forest : Forest}
variable {element : Element} {id : Text}

theorem flatten_append (a b : Forest) : flatten (a ++ b) = flatten a ++ flatten b := by
  induction a using shapeInduction with
  | nil => simp [flatten]
  | leaf fields rest ih => simp only [List.cons_append, flatten, ih]
  | group fields children rest _ ih =>
    simp only [List.cons_append, flatten, ih, List.append_assoc]

theorem flatten_cons (element : Element) (rest : Forest) :
    flatten (element :: rest) = element :: (flatten element.children ++ flatten rest) := by
  cases element <;> simp [flatten, Element.children, Element.children?]

theorem nodes_append (a b : Forest) : nodes (a ++ b) = nodes a ++ nodes b := by
  rw [nodes, flatten_append, List.map_append, nodes, nodes]

theorem nodes_cons (element : Element) (rest : Forest) :
    nodes (element :: rest) = element.fields :: (nodes element.children ++ nodes rest) := by
  rw [nodes, flatten_cons, List.map_cons, List.map_append, nodes, nodes]

@[simp]
theorem allIds_nil : allIds [] = [] := by
  simp [allIds, nodes, flatten]

@[simp]
theorem allIds_append (a b : Forest) : allIds (a ++ b) = allIds a ++ allIds b := by
  rw [allIds, nodes_append, List.map_append, allIds, allIds]

@[simp]
theorem allIds_cons (element : Element) (rest : Forest) :
    allIds (element :: rest) = element.id :: (allIds element.children ++ allIds rest) := by
  rw [allIds, nodes_cons, List.map_cons, List.map_append, allIds, allIds]

theorem mem_allIds : id ∈ forest.allIds ↔ ∃ element ∈ forest.flatten, element.id = id := by
  simp [allIds, nodes]

/-- The ids side by side are among all ids. -/
theorem mem_allIds_of_mem_ids (h : id ∈ forest.ids) : id ∈ forest.allIds := by
  induction forest with
  | nil => simp [ids] at h
  | cons element rest ih =>
    rw [allIds_cons]
    rcases List.mem_cons.mp h with heq | hrest
    · exact List.mem_cons.mpr (.inl heq)
    · exact List.mem_cons_of_mem _ (List.mem_append_right _ (ih hrest))

theorem placed_append (a b : Forest) : placed above (a ++ b) = placed above a ++ placed above b := by
  induction a using shapeInduction generalizing above with
  | nil => simp [placed]
  | leaf fields rest ih => simp only [List.cons_append, placed, ih]
  | group fields children rest _ ih =>
    simp only [List.cons_append, placed, ih, List.append_assoc]

theorem placed_cons (element : Element) (rest : Forest) :
    placed above (element :: rest) =
      (above, element.fields) :: (placed (some element.id) element.children ++ placed above rest) := by
  cases element <;>
    simp [placed, Element.children, Element.children?, Element.fields, Element.id]

theorem map_snd_placed (above : Option Text) (forest : Forest) :
    (forest.placed above).map (·.2) = forest.nodes := by
  induction forest using shapeInduction generalizing above with
  | nil => simp [placed, nodes, flatten]
  | leaf fields rest ih => rw [placed, List.map_cons, ih, nodes, nodes, flatten, List.map_cons]; rfl
  | group fields children rest ihChildren ih =>
    rw [placed, List.map_cons, List.map_append, ihChildren, ih, nodes_cons]
    rfl

/-- Parents are elements themselves. -/
theorem parent_of_mem_placed {parent : Option Text}
    (h : (parent, fields) ∈ forest.placed above) :
    parent = above ∨ ∃ id ∈ forest.allIds, parent = some id := by
  induction forest using shapeInduction generalizing above with
  | nil => simp [placed] at h
  | leaf own rest ih =>
    rw [placed] at h
    rcases List.mem_cons.mp h with heq | hrest
    · exact .inl (congrArg Prod.fst heq)
    · exact (ih hrest).imp_right fun ⟨id, hid, heq⟩ =>
        ⟨id, by rw [allIds_cons]; exact List.mem_cons_of_mem _ (List.mem_append_right _ hid), heq⟩
  | group own children rest ihChildren ih =>
    rw [placed] at h
    have hlift : ∀ id, id = own.id ∨ id ∈ children.allIds ∨ id ∈ rest.allIds →
        id ∈ allIds (.group own children :: rest) := by
      intro id hid
      rw [allIds_cons, List.mem_cons, List.mem_append]
      exact hid
    rcases List.mem_cons.mp h with heq | hbelow
    · exact .inl (congrArg Prod.fst heq)
    · rcases List.mem_append.mp hbelow with hchild | hrest
      · rcases ihChildren hchild with heq | ⟨id, hid, heq⟩
        · exact .inr ⟨own.id, hlift _ (.inl rfl), heq⟩
        · exact .inr ⟨id, hlift _ (.inr (.inl hid)), heq⟩
      · exact (ih hrest).imp_right fun ⟨id, hid, heq⟩ => ⟨id, hlift _ (.inr (.inr hid)), heq⟩

end Forest

/-! ## Filling a place -/

namespace Place

/-- The forest with the given siblings at a place. -/
def fill : Place → Forest → Forest
  | [], siblings => siblings
  | frame :: inner, siblings =>
    frame.before ++ .group frame.fields (fill inner siblings) :: frame.after

/-- The id of the container that holds the siblings. -/
def holder (above : Option Text) : Place → Option Text
  | [] => above
  | frame :: inner => holder (some frame.fields.id) inner

/-- What is read before the siblings of a place. -/
def front (above : Option Text) : Place → List (Option Text × ElementFields)
  | [] => []
  | frame :: inner =>
    frame.before.placed above ++ (above, frame.fields) :: front (some frame.fields.id) inner

/-- What is read behind the siblings of a place. -/
def back (above : Option Text) : Place → List (Option Text × ElementFields)
  | [] => []
  | frame :: inner => back (some frame.fields.id) inner ++ frame.after.placed above

/-- No element at a place has the id, the siblings apart. -/
def Lacks (id : Text) (place : Place) : Prop :=
  ∀ frame ∈ place, id ∉ frame.before.allIds ∧ id ≠ frame.fields.id ∧ id ∉ frame.after.allIds

variable {above : Option Text} {place : Place} {siblings : Forest} {id : Text}

theorem fill_append (outer inner : Place) :
    Place.fill (outer ++ inner) siblings = outer.fill (inner.fill siblings) := by
  induction outer with
  | nil => rfl
  | cons frame others ih =>
    rw [List.cons_append, Place.fill, ih]
    rfl

/-- Filling a place inside a container fills the place where the container stands. -/
theorem fill_concat (outer : Place) (frame : Frame) (siblings : Forest) :
    Place.fill (outer ++ [frame]) siblings =
      outer.fill (frame.before ++ .group frame.fields siblings :: frame.after) := by
  rw [fill_append]
  rfl

/-- Around the siblings of a place, the same is read whatever they are. -/
theorem placed_fill : (place.fill siblings).placed above =
    place.front above ++ siblings.placed (place.holder above) ++ place.back above := by
  induction place generalizing above with
  | nil => simp [fill, front, back, holder]
  | cons frame inner ih =>
    rw [fill, Forest.placed_append, Forest.placed_cons]
    simp only [Element.fields, Element.id, Element.children, Element.children?, Option.getD_some,
      ih, front, back, holder, List.append_assoc, List.cons_append]

theorem allIds_fill (place : Place) : ∃ front back : List Text, ∀ siblings : Forest,
    (place.fill siblings).allIds = front ++ siblings.allIds ++ back := by
  refine ⟨(place.front none).map (·.2.id), (place.back none).map (·.2.id), fun siblings => ?_⟩
  have hids : ∀ (forest : Forest) above,
      forest.allIds = (forest.placed above).map (·.2.id) := by
    intro forest above
    rw [Forest.allIds, ← Forest.map_snd_placed, List.map_map]
    rfl
  rw [hids _ none, placed_fill, List.map_append, List.map_append, ← hids]

theorem mem_allIds_fill (h : id ∈ siblings.allIds) : id ∈ (place.fill siblings).allIds := by
  obtain ⟨front, back, hfill⟩ := allIds_fill place
  rw [hfill]
  exact List.mem_append_left _ (List.mem_append_right _ h)

theorem nodup_siblings (h : (place.fill siblings).allIds.Nodup) : siblings.allIds.Nodup := by
  obtain ⟨front, back, hfill⟩ := allIds_fill place
  rw [hfill] at h
  exact (List.nodup_append.mp (List.nodup_append.mp h).1).2.1

/-- Where ids are distinct, those of the siblings are found nowhere else. -/
theorem lacks_of_nodup (h : (place.fill siblings).allIds.Nodup) (hid : id ∈ siblings.allIds) :
    place.Lacks id := by
  induction place with
  | nil => exact List.forall_mem_nil _
  | cons frame inner ih =>
    rw [fill, Forest.allIds_append, Forest.allIds_cons] at h
    obtain ⟨-, hown, hbefore⟩ := List.nodup_append.mp h
    obtain ⟨hfields, hbelow⟩ := List.nodup_cons.mp hown
    obtain ⟨hinner, -, hafter⟩ := List.nodup_append.mp hbelow
    have hmem : id ∈ (fill inner siblings).allIds := mem_allIds_fill hid
    refine List.forall_mem_cons.mpr ⟨⟨fun hin => ?_, fun heq => ?_, fun hin => ?_⟩, ih hinner⟩
    · exact hbefore id hin id (List.mem_cons_of_mem _ (List.mem_append_left _ hmem)) rfl
    · rw [heq] at hmem
      exact hfields (List.mem_append_left _ hmem)
    · exact hafter id hmem id hin rfl

/-- Every element stands at a place. -/
theorem exists_fill {forest : Forest} {element : Element} (h : element ∈ forest.flatten) :
    ∃ (place : Place) (before after : Forest), forest = place.fill (before ++ element :: after) := by
  induction forest using Forest.shapeInduction with
  | nil => simp [Forest.flatten] at h
  | leaf fields rest ih =>
    rw [Forest.flatten] at h
    rcases List.mem_cons.mp h with rfl | hrest
    · exact ⟨[], [], rest, rfl⟩
    · obtain ⟨place, before, after, heq⟩ := ih hrest
      exact exists_fill_cons (.leaf fields) heq
  | group fields children rest ihChildren ih =>
    rw [Forest.flatten] at h
    rcases List.mem_cons.mp h with rfl | hbelow
    · exact ⟨[], [], rest, rfl⟩
    · rcases List.mem_append.mp hbelow with hchild | hrest
      · obtain ⟨place, before, after, heq⟩ := ihChildren hchild
        exact ⟨⟨[], fields, rest⟩ :: place, before, after, by rw [fill, ← heq]; rfl⟩
      · obtain ⟨place, before, after, heq⟩ := ih hrest
        exact exists_fill_cons (.group fields children) heq
where
  /-- An element in front of the forest belongs to the outermost frame, or to the
  siblings if there is none. -/
  exists_fill_cons {rest : Forest} {element : Element} {place : Place} {before after : Forest}
      (first : Element) (heq : rest = place.fill (before ++ element :: after)) :
      ∃ (place : Place) (before after : Forest),
        first :: rest = place.fill (before ++ element :: after) := by
    cases place with
    | nil => exact ⟨[], first :: before, after, by rw [heq]; rfl⟩
    | cons frame inner =>
      exact ⟨⟨first :: frame.before, frame.fields, frame.after⟩ :: inner, before, after,
        by rw [heq]; rfl⟩

end Place

end EditorScript
