import EditorScript.Model.Vocabulary
import EditorScript.Number.Binary64

/-!
# Elements of a user interface

An element carries its fields and, when it is a container, the list of its
children.  Elements form ordered forests.
-/

namespace EditorScript

/-- Everything about an element but its children.  Fields that do not concern
its widget stay unset. -/
structure ElementFields where
  widget : Widget
  label : Text
  variableName : Text := []
  id : Text := []
  defaultValue : Option Text := none
  minValue : Option Binary64 := none
  maxValue : Option Binary64 := none
  action : Option ButtonAction := none
  /-- The message or the code of a button's action. -/
  actionParam : Option Text := none
  severity : Option Severity := none
  objectType : Option Text := none
  allowSceneObjects : Option Bool := none
  spaceHeight : Option Int := none
  foldoutDefault : Option Bool := none
  popupOptions : Option (List Text) := none
  progressValue : Option Binary64 := none
  tabs : Option (List Text) := none
  disableCondition : Option Text := none
  headerText : Option Text := none
  fontSize : Option Int := none
  fontStyle : Option FontStyle := none
  alignment : Option Alignment := none
  boxStyle : Option Text := none
  /-- Whether the element only stands for code that was not recognised and is
  kept in `actionParam` as it was. -/
  isOpaque : Bool := false
deriving DecidableEq, Repr

/-- Whether one of the element's numbers is none. -/
def ElementFields.hasNaN (fields : ElementFields) : Bool :=
  [fields.minValue, fields.maxValue, fields.progressValue].any fun number =>
    number.any (·.isNaN)

/-- An element that has no list of children, or a container. -/
inductive Element where
  | leaf (fields : ElementFields)
  | group (fields : ElementFields) (children : List Element)
deriving Repr

/-- An ordered forest of elements. -/
abbrev Forest := List Element

namespace Element

mutual

/-- Equality of elements is decided field by field and child by child. -/
protected def decEq : (a b : Element) → Decidable (a = b)
  | leaf f, leaf g =>
    if h : f = g then isTrue (by rw [h]) else isFalse fun e => h (by cases e; rfl)
  | group f fs, group g gs =>
    if h : f = g then
      match Element.decEqForest fs gs with
      | isTrue hs => isTrue (by rw [h, hs])
      | isFalse hs => isFalse fun e => hs (by cases e; rfl)
    else isFalse fun e => h (by cases e; rfl)
  | leaf _, group _ _ => isFalse fun e => nomatch e
  | group _ _, leaf _ => isFalse fun e => nomatch e

/-- Equality of forests is decided element by element. -/
protected def decEqForest : (a b : Forest) → Decidable (a = b)
  | [], [] => isTrue rfl
  | e :: es, d :: ds =>
    match Element.decEq e d, Element.decEqForest es ds with
    | isTrue h, isTrue hs => isTrue (by rw [h, hs])
    | isFalse h, _ => isFalse fun eq => h (by cases eq; rfl)
    | _, isFalse hs => isFalse fun eq => hs (by cases eq; rfl)
  | [], _ :: _ => isFalse fun e => nomatch e
  | _ :: _, [] => isFalse fun e => nomatch e

end

instance : DecidableEq Element := Element.decEq

/-- The element's own fields. -/
def fields : Element → ElementFields
  | leaf fields => fields
  | group fields _ => fields

/-- The children of a container. -/
def children? : Element → Option (List Element)
  | leaf _ => none
  | group _ children => some children

/-- The children; none for a leaf. -/
def children (e : Element) : List Element :=
  e.children?.getD []

/-- The element with these fields and, if given, these children. -/
def ofParts (fields : ElementFields) : Option (List Element) → Element
  | none => leaf fields
  | some children => group fields children

abbrev widget (e : Element) : Widget := e.fields.widget
abbrev id (e : Element) : Text := e.fields.id

/-- The element with changed fields. -/
def mapFields (change : ElementFields → ElementFields) : Element → Element
  | leaf fields => leaf (change fields)
  | group fields children => group (change fields) children

/-- The element with other children. -/
def withChildren (e : Element) (children : Option (List Element)) : Element :=
  ofParts e.fields children

end Element

namespace Forest

/-- Statements about forests follow from their shape: an empty forest, a leaf in
front, or a container in front with its own forest of children. -/
theorem shapeInduction {motive : Forest → Prop} (nil : motive [])
    (leaf : ∀ fields rest, motive rest → motive (.leaf fields :: rest))
    (group : ∀ fields children rest, motive children → motive rest →
      motive (.group fields children :: rest)) : ∀ forest, motive forest
  | [] => nil
  | .leaf fields :: rest => leaf fields rest (shapeInduction nil leaf group rest)
  | .group fields children :: rest =>
    group fields children rest (shapeInduction nil leaf group children)
      (shapeInduction nil leaf group rest)

/-- All elements, each one before its children. -/
def flatten : Forest → List Element
  | [] => []
  | .leaf fields :: rest => .leaf fields :: flatten rest
  | .group fields children :: rest =>
    .group fields children :: (flatten children ++ flatten rest)

/-- The forest with the fields of every element changed. -/
def mapFields (change : ElementFields → ElementFields) : Forest → Forest
  | [] => []
  | .leaf fields :: rest => .leaf (change fields) :: mapFields change rest
  | .group fields children :: rest =>
    .group (change fields) (mapFields change children) :: mapFields change rest

end Forest

end EditorScript
