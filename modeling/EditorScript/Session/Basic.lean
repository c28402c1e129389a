import EditorScript.Forest.Edit
import EditorScript.Model.Catalogue
import EditorScript.Session.Change

/-!
# Editing sessions

A session is a project together with the selected element.  Everything the user
does is an action, and `Session.step?` says what an action makes of a session:
nothing at all, a new session, or an error.
-/

namespace EditorScript

/-- Something that the user does. -/
inductive Action where
  | newProject (name : Option Text)
  | openProject (project : Project)
  | setKind (kind : ScriptKind)
  | updateSettings (changes : List SettingsChange)
  | add (widget : Widget) (parent : Option Text)
  | remove (id : Text)
  | update (id : Text) (changes : List ElementChange)
  | move (id : Text) (direction : Direction)
  | select (id : Option Text)
  | moveInto (id parent : Text)
  | moveOut (id : Text)
  | reorder (active onto : Text)
  /-- An action that sessions do not know. -/
  | unknown

/-- Why an action fails.  The last three arise only where ids are shared. -/
inductive ActionError where
  /-- A field or a setting that does not exist. -/
  | unknownField
  /-- The container to move into is gone with the element. -/
  | containerGone
  /-- The element to move into has no children. -/
  | notAContainer
  /-- The element to move behind is not where it was. -/
  | siblingGone
deriving DecidableEq, Repr

/-- The forest with changes made to an element.  A field that does not exist is an
error as soon as there is an element to change. -/
def Forest.updated? (id : Text) (changes : List ElementChange) (forest : Forest) :
    Except ActionError Forest :=
  if (forest.find? id).isSome && changes.any (·.isUnknown) then .error .unknownField
  else .ok (forest.update id (ElementChange.applyAll changes))

/-- A project being edited, and the id of the selected element. -/
structure Session where
  project : Project
  selected : Option Text := none
deriving DecidableEq, Repr

namespace Session

/-- The session with another forest, changed at the given time. -/
def withElements (session : Session) (stamp : Stamp) (elements : Forest) : Session :=
  { session with project := { session.project with elements, updatedAt := stamp.time } }

/-- The element that is selected, as long as it exists. -/
def selectedElement? (session : Session) : Option Element :=
  session.selected.bind fun id => session.project.elements.find? id

/-- Whether an element can be added under an id: no id means the roots. -/
def accepts (session : Session) : Option Text → Bool
  | none => true
  | some parent => (session.project.elements.find? parent).any fun element =>
    element.widget.isLayout

/-- The session with a fresh element added at the end of its siblings and selected. -/
def add? (session : Session) (stamp : Stamp) (widget : Widget) (parent : Option Text) :
    Option Session :=
  if session.accepts parent then
    let elements := session.project.elements.insert parent none (Element.create stamp widget)
    some { session.withElements stamp elements with selected := some stamp.id }
  else none

/-- The session without an element; what is selected inside it is so no longer. -/
def remove? (session : Session) (stamp : Stamp) (id : Text) : Option Session :=
  (session.project.elements.remove? id).map fun (removed, elements) =>
    { session.withElements stamp elements with
      selected := session.selected.filter fun selected => !removed.holds selected }

/-- The session with an element changed; changes of structure are left out. -/
def update? (session : Session) (stamp : Stamp) (id : Text) (changes : List ElementChange) :
    Except ActionError (Option Session) :=
  let changes := changes.filter fun change => !change.isStructural
  if changes.isEmpty || (session.project.elements.find? id).isNone then .ok none
  else (session.project.elements.updated? id changes).map fun elements =>
    some (session.withElements stamp elements)

/-- The session with an element as the last child of a container outside of it. -/
def moveInto? (session : Session) (stamp : Stamp) (id parent : Text) : Option Session :=
  let elements := session.project.elements
  match elements.find? id with
  | none => none
  | some element =>
    if session.accepts (some parent) && !element.holds parent then
      (elements.remove? id).map fun (removed, rest) =>
        session.withElements stamp (rest.insert (some parent) none removed)
    else none

/-- The elements side by side under an id: no id means the roots. -/
def siblings (forest : Forest) : Option Text → Except ActionError Forest
  | none => .ok forest
  | some parent =>
    match forest.find? parent with
    | none => .error .containerGone
    | some element =>
      match element.children? with
      | some children => .ok children
      | none => .error .notAContainer

/-- The session with an element directly behind the container it was in. -/
def moveOut? (session : Session) (stamp : Stamp) (id : Text) :
    Except ActionError (Option Session) :=
  let elements := session.project.elements
  match elements.parentId? id with
  | none => .ok none
  | some parent => do
    let above := elements.parentId? parent
    match elements.remove? id with
    | none => pure none
    | some (removed, rest) =>
      let siblings ← siblings rest above
      if siblings.ids.contains parent then
        let place : Int := siblings.ids.idxOf parent + 1
        pure (some (session.withElements stamp (rest.insert above (some place) removed)))
      else .error .siblingGone

/-- What an action makes of a session; nothing when the action leaves it alone. -/
def step? (session : Session) (stamp : Stamp) : Action → Except ActionError (Option Session)
  | .newProject name => .ok (some { project := Project.create stamp name })
  | .openProject project => .ok (some { project })
  | .setKind kind =>
    .ok (some { session with project := { session.project with kind, updatedAt := stamp.time } })
  | .updateSettings changes =>
    if changes.any (·.isUnknown) then .error .unknownField
    else .ok (some { session with
      project := { session.project with
        settings := SettingsChange.applyAll changes session.project.settings
        updatedAt := stamp.time } })
  | .add widget parent => .ok (session.add? stamp widget parent)
  | .remove id => .ok (session.remove? stamp id)
  | .update id changes => session.update? stamp id changes
  | .move id direction =>
    .ok (some (session.withElements stamp (session.project.elements.move id direction)))
  | .select id => .ok (some { session with selected := id })
  | .moveInto id parent => .ok (session.moveInto? stamp id parent)
  | .moveOut id => session.moveOut? stamp id
  | .reorder active onto =>
    .ok (some (session.withElements stamp (session.project.elements.reorder active onto)))
  | .unknown => .ok none

/-- The session behind an action; the same one when the action fails or leaves it
alone. -/
def apply (session : Session) (stamp : Stamp) (action : Action) : Session :=
  match session.step? stamp action with
  | .ok (some next) => next
  | _ => session

end Session

end EditorScript
