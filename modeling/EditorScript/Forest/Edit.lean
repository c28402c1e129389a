import EditorScript.Model.Element

/-!
# Editing a forest

Elements are found by their ids, the first one in the order of reading counting
when several share one.  Every edit gives a new forest.

* `find?` and `parentId?` look things up.
* `remove?` takes an element out with everything below it; `insert` puts one in.
* `update` changes one element, `move` and `reorder` change the order of
  siblings.
-/

namespace EditorScript

/-- Where an element moves among its siblings. -/
inductive Direction where
  | up | down
deriving DecidableEq, Repr

namespace Forest

/-- The first element with an id. -/
def find? (id : Text) (forest : Forest) : Option Element :=
  forest.flatten.find? (·.id == id)

/-- The ids of the elements side by side. -/
def ids (forest : Forest) : List Text :=
  forest.map (·.id)

/-- The id of the element whose children hold the given one.  An empty id found
further down does not end the search. -/
def parentId? (id : Text) : Forest → Option Text
  | [] => none
  | .leaf _ :: rest => parentId? id rest
  | .group fields children :: rest =>
    if (children.map (·.id)).contains id then some fields.id
    else
      match parentId? id children with
      | some (c :: found) => some (c :: found)
      | _ => parentId? id rest

/-- The first of some siblings with an id, and the others. -/
def takeSibling? (id : Text) : Forest → Option (Element × Forest)
  | [] => none
  | element :: rest =>
    if element.id = id then some (element, rest)
    else (takeSibling? id rest).map fun (taken, others) => (taken, element :: others)

/-- An element from below the roots, and what is left. -/
def takeBelow? (id : Text) : Forest → Option (Element × Forest)
  | [] => none
  | .leaf fields :: rest =>
    (takeBelow? id rest).map fun (taken, others) => (taken, .leaf fields :: others)
  | .group fields children :: rest =>
    match (takeSibling? id children).or (takeBelow? id children) with
    | some (taken, left) => some (taken, .group fields left :: rest)
    | none => (takeBelow? id rest).map fun (taken, others) =>
      (taken, .group fields children :: others)

/-- An element with everything below it, and the forest without it.  Siblings
come before what lies below them. -/
def remove? (id : Text) (forest : Forest) : Option (Element × Forest) :=
  (takeSibling? id forest).or (takeBelow? id forest)

/-- The list with an item put in at a place.  A negative place counts from the
end, and one outside the list means its nearer end; no place means the end. -/
def insertAt {α : Type} (place : Option Int) (item : α) (items : List α) : List α :=
  let length : Int := items.length
  let place := place.getD length
  let place := if place < 0 then max 0 (place + length) else min place length
  items.take place.toNat ++ item :: items.drop place.toNat

/-- The forest with an element among the children of the container with an id. -/
def insertUnder (parent : Text) (place : Option Int) (element : Element) : Forest → Forest
  | [] => []
  | .leaf fields :: rest => .leaf fields :: insertUnder parent place element rest
  | .group fields children :: rest =>
    .group fields
      (if fields.id = parent then insertAt place element children
        else insertUnder parent place element children) ::
      insertUnder parent place element rest

/-- The forest with an element among the roots, or among the children of the
container with the given id. -/
def insert (parent : Option Text) (place : Option Int) (element : Element) (forest : Forest) :
    Forest :=
  match parent with
  | none => insertAt place element forest
  | some parent => insertUnder parent place element forest

/-- The forest with the elements of an id changed. -/
def update (id : Text) (change : Element → Element) : Forest → Forest
  | [] => []
  | .leaf fields :: rest =>
    (if fields.id = id then change (.leaf fields) else .leaf fields) :: update id change rest
  | .group fields children :: rest =>
    (if fields.id = id then change (.group fields children)
      else .group fields (update id change children)) :: update id change rest

/-- The siblings with the first one of an id and its neighbour exchanged. -/
def moveSibling (id : Text) (direction : Direction) : Forest → Forest
  | first :: second :: rest =>
    if first.id = id then
      match direction with
      | .up => first :: second :: rest
      | .down => second :: first :: rest
    else if direction = .up ∧ second.id = id then second :: first :: rest
    else first :: moveSibling id direction (second :: rest)
  | forest => forest

/-- The forest with an element exchanged with the sibling before or behind it. -/
def move (id : Text) (direction : Direction) (forest : Forest) : Forest :=
  if forest.ids.contains id then moveSibling id direction forest
  else moveBelow forest
where
  /-- The same below the roots. -/
  moveBelow : Forest → Forest
    | [] => []
    | .leaf fields :: rest => .leaf fields :: moveBelow rest
    | .group fields children :: rest =>
      .group fields
        (if (ids children).contains id then moveSibling id direction children
          else moveBelow children) :: moveBelow rest

/-- The siblings with the first one of id `active` taken out and put in at the
place that the first one of id `onto` had. -/
def reorderSiblings (active onto : Text) (forest : Forest) : Forest :=
  match takeSibling? active forest with
  | none => forest
  | some (taken, others) => insertAt (some (forest.ids.idxOf onto : Int)) taken others

/-- The forest with an element at the place of one of its siblings. -/
def reorder (active onto : Text) (forest : Forest) : Forest :=
  if forest.ids.contains active && forest.ids.contains onto then
    reorderSiblings active onto forest
  else reorderBelow forest
where
  /-- The same below the roots. -/
  reorderBelow : Forest → Forest
    | [] => []
    | .leaf fields :: rest => .leaf fields :: reorderBelow rest
    | .group fields children :: rest =>
      .group fields
        (if (ids children).contains active && (ids children).contains onto then
          reorderSiblings active onto children
        else reorderBelow children) :: reorderBelow rest

end Forest

/-- Whether an element or one below it has the id. -/
def Element.holds (element : Element) (id : Text) : Bool :=
  (Forest.find? id [element]).isSome

end EditorScript
