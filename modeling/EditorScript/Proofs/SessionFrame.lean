import EditorScript.Proofs.SessionEffect

/-!
# What actions leave alone

An action on elements puts a new element in, takes one out, changes the fields of
one, or takes one out and puts it in elsewhere (`Forest.Revision`).  All elements
that it does not concern keep their fields, their parents and their order
(`Forest.Conserves`).
-/

namespace EditorScript

/-- The element that an action moves. -/
def Action.movedId? : Action → Option Text
  | .move id _ | .reorder id _ | .moveInto id _ | .moveOut id => some id
  | _ => none

namespace Forest

/-- What an action on elements leaves as it was.  Nodes are the fields of elements
without their children. -/
def Conserves (stamp : Stamp) : Action → Forest → Forest → Prop
  | .add widget _, before, after =>
    after.nodes.Perm ((Element.create stamp widget).fields :: before.nodes) ∧
      KeepsOthers [stamp.id] before after
  | .remove id, before, after =>
    ∃ removed : Element, removed.id = id ∧ before.nodes.Perm (nodes [removed] ++ after.nodes) ∧
      KeepsOthers (allIds [removed]) before after
  | .update id changes, before, after =>
    after.nodes = before.nodes.map (fun fields =>
      if fields.id = id then fields.changed (Action.ownChanges changes) else fields) ∧
    (∀ fields : ElementFields, (fields.changed (Action.ownChanges changes)).id = fields.id ∧
      (fields.changed (Action.ownChanges changes)).widget = fields.widget) ∧
    ∀ parent, after.childIds parent = before.childIds parent
  | .move id _, before, after | .reorder id _, before, after
  | .moveInto id _, before, after | .moveOut id, before, after =>
    after.nodes.Perm before.nodes ∧ KeepsOthers [id] before after
  | _, _, _ => True

/-- How an action changes a forest, wherever its element stands. -/
inductive Revision (stamp : Stamp) : Action → Forest → Forest → Prop
  | added {widget : Widget} {parent : Option Text} {before after : Forest}
      (added : PutIn (Element.create stamp widget) before after) :
    Revision stamp (.add widget parent) before after
  | removed {element : Element} {before after : Forest} (removed : PutIn element after before) :
    Revision stamp (.remove element.id) before after
  | updated (place : Place) (before : Forest) (element : Element) (after : Forest)
      (changes : List ElementChange) :
    Revision stamp (.update element.id changes) (place.fill (before ++ element :: after))
      (place.fill
        (before ++ element.mapFields (·.changed (Action.ownChanges changes)) :: after))
  | moved {action : Action} {element : Element} {rest before after : Forest}
      (moves : action.movedId? = some element.id)
      (taken : PutIn element rest before) (put : PutIn element rest after) :
    Revision stamp action before after
  | kept {action : Action} {forest : Forest} (moves : action.movedId?.isSome) :
    Revision stamp action forest forest

variable {element : Element} {rest before after : Forest} {stamp : Stamp} {action : Action}

theorem putIn_root (element : Element) (before after : Forest) :
    PutIn element (before ++ after) (before ++ element :: after) :=
  ⟨[], before, after, rfl, rfl⟩

theorem putIn_fill (place : Place) (element : Element) (before after : Forest) :
    PutIn element (place.fill (before ++ after)) (place.fill (before ++ element :: after)) :=
  ⟨place, before, after, rfl, rfl⟩

/-- The children of a container are at a place of their own. -/
theorem putIn_group (place : Place) (element : Element) (fields : ElementFields)
    (before left right after : Forest) :
    PutIn element (place.fill (before ++ .group fields (left ++ right) :: after))
      (place.fill (before ++ .group fields (left ++ element :: right) :: after)) := by
  have hfill := Place.fill_concat place ⟨before, fields, after⟩
  rw [← hfill, ← hfill]
  exact putIn_fill _ element left right

/-- So is the end of the children of a container. -/
theorem putIn_lastChild (place : Place) (element : Element) (fields : ElementFields)
    (before children after : Forest) :
    PutIn element (place.fill (before ++ .group fields children :: after))
      (place.fill (before ++ .group fields (children ++ [element]) :: after)) := by
  have hputIn := putIn_group place element fields before children [] after
  rwa [List.append_nil] at hputIn

end Forest

namespace Session

open Forest

variable {session next : Session} {stamp : Stamp} {action : Action}

theorem Effect.revision (heffect : session.Effect stamp action (.ok (some next))) :
    Revision stamp action session.project.elements next.project.elements := by
  cases heffect with
  | @addRoot widget =>
    have hputIn := putIn_root (Element.create stamp widget) session.project.elements []
    rw [List.append_nil] at hputIn
    exact .added hputIn
  | @addChild widget place before children after fields layout here =>
    rw [here]
    exact .added (putIn_lastChild place _ fields before children after)
  | @remove place before after element here =>
    rw [here]
    exact .removed (putIn_fill place element before after)
  | @update place before after element changes here any known =>
    rw [here]
    exact .updated place before element after changes
  | @move place left right left' right' element direction here others position =>
    have hafter := putIn_fill place element left' right'
    rw [others] at hafter
    rw [here]
    exact .moved rfl (putIn_fill place element left right) hafter
  | @reorder place left right left' right' element onto here sibling others position =>
    have hafter := putIn_fill place element left' right'
    rw [others] at hafter
    rw [here]
    exact .moved rfl (putIn_fill place element left right) hafter
  | reorderApart apart => exact .kept rfl
  | @moveInto place target before after front children back element fields layout here there =>
    have hafter := putIn_lastChild target element fields front children back
    rw [← there] at hafter
    rw [here]
    exact .moved rfl (putIn_fill place element before after) hafter
  | @moveOut place before left right after element fields here =>
    have hafter := putIn_fill place element (before ++ [.group fields (left ++ right)]) after
    simp only [List.append_assoc, List.singleton_append] at hafter
    rw [here]
    exact .moved rfl (putIn_group place element fields before left right after) hafter

end Session

namespace Forest

variable {element : Element} {rest before after : Forest} {stamp : Stamp} {action : Action}

/-! ## Fresh elements -/

theorem children_create (widget : Widget) : (Element.create stamp widget).children = [] := by
  rw [Element.children, Element.create, Element.children?_ofFields]
  split <;> rfl

theorem id_create (widget : Widget) : (Element.create stamp widget).id = stamp.id := by
  cases widget <;> rfl

theorem allIds_create (widget : Widget) : allIds [Element.create stamp widget] = [stamp.id] := by
  rw [allIds_cons, children_create, id_create, allIds_nil]
  rfl

/-- A fresh element is a single node. -/
theorem conserves_add {widget : Widget} (h : PutIn (Element.create stamp widget) before after) :
    after.nodes.Perm ((Element.create stamp widget).fields :: before.nodes) ∧
      KeepsOthers [stamp.id] before after := by
  have hnil : nodes [] = [] := by simp [nodes, flatten]
  have hnodes := h.nodes_perm
  have hothers := h.keepsOthers
  rw [nodes_cons, children_create, hnil] at hnodes
  rw [allIds_create] at hothers
  exact ⟨hnodes, hothers⟩

/-! ## Changed fields -/

theorem onFields_keeps {change : ElementChange} (h : change.isStructural = false)
    (fields : ElementFields) : (change.onFields fields).id = fields.id ∧
      (change.onFields fields).widget = fields.widget := by
  cases change <;> first | exact ⟨rfl, rfl⟩ | exact absurd h (by simp [ElementChange.isStructural])

/-- An update changes neither ids nor widgets. -/
theorem changed_keeps (changes : List ElementChange) (fields : ElementFields) :
    (fields.changed (Action.ownChanges changes)).id = fields.id ∧
      (fields.changed (Action.ownChanges changes)).widget = fields.widget := by
  have hfold : ∀ own : List ElementChange, (∀ change ∈ own, change.isStructural = false) →
      ∀ fields : ElementFields, (fields.changed own).id = fields.id ∧
        (fields.changed own).widget = fields.widget := by
    intro own
    induction own with
    | nil => exact fun _ _ => ⟨rfl, rfl⟩
    | cons change rest ih =>
      intro h fields
      obtain ⟨hfirst, hrest⟩ := List.forall_mem_cons.mp h
      have hkeeps := onFields_keeps hfirst fields
      have hothers := ih hrest (change.onFields fields)
      exact ⟨hothers.1.trans hkeeps.1, hothers.2.trans hkeeps.2⟩
  exact hfold _ (fun _ => Action.isStructural_of_mem_ownChanges) fields

/-- The elements around one are read alike whatever its fields are. -/
theorem placed_beside (place : Place) (before after : Forest) (element : Element) :
    ∃ front holder back, ∀ other : Element, other.id = element.id →
      other.children = element.children →
      (place.fill (before ++ other :: after)).placed none =
        front ++ (holder, other.fields) ::
          (Forest.placed (some element.id) element.children ++ back) := by
  refine ⟨place.front none ++ before.placed (place.holder none), place.holder none,
    after.placed (place.holder none) ++ place.back none, fun other hid hchildren => ?_⟩
  rw [Place.placed_fill, placed_append, placed_cons, hid, hchildren]
  simp only [List.append_assoc, List.cons_append]

/-- An update changes one node where it stands. -/
theorem placed_mapFields {place : Place} {change : ElementFields → ElementFields}
    (hid : ∀ fields, (change fields).id = fields.id)
    (hdistinct : (place.fill (before ++ element :: after)).allIds.Nodup) :
    (place.fill (before ++ element.mapFields change :: after)).placed none =
      ((place.fill (before ++ element :: after)).placed none).map fun pair =>
        (pair.1, if pair.2.id = element.id then change pair.2 else pair.2) := by
  have hchildren : (element.mapFields change).children = element.children := by
    cases element <;> rfl
  have hfields : (element.mapFields change).fields = change element.fields := by
    cases element <;> rfl
  have hchanged : (element.mapFields change).id = element.id := by
    rw [Element.id, hfields, hid]
  obtain ⟨front, holder, back, hread⟩ := placed_beside place before after element
  have hold := hread element rfl rfl
  have hnew := hread _ hchanged hchildren
  rw [allIds, ← map_snd_placed none, hold, List.map_map, List.map_append, List.map_cons,
    List.nodup_middle, List.nodup_cons, ← List.map_append] at hdistinct
  have hsame : ∀ part : List (Option Text × ElementFields), (∀ pair ∈ part,
      pair ∈ front ++ (Forest.placed (some element.id) element.children ++ back)) →
      part.map (fun pair =>
        (pair.1, if pair.2.id = element.id then change pair.2 else pair.2)) = part := by
    intro part hpart
    refine (List.map_congr_left fun pair hpair => ?_).trans (List.map_id part)
    have hne : pair.2.id ≠ element.id := fun heq =>
      hdistinct.1 (List.mem_map.mpr ⟨pair, hpart pair hpair, heq⟩)
    rw [if_neg hne]
    rfl
  rw [hold, hnew, List.map_append, List.map_cons, if_pos (by rfl), hfields,
    hsame front fun _ => List.mem_append_left _, hsame _ fun _ => List.mem_append_right _]

theorem nodes_mapFields {place : Place} {change : ElementFields → ElementFields}
    (hid : ∀ fields, (change fields).id = fields.id)
    (hdistinct : (place.fill (before ++ element :: after)).allIds.Nodup) :
    (place.fill (before ++ element.mapFields change :: after)).nodes =
      (place.fill (before ++ element :: after)).nodes.map fun fields =>
        if fields.id = element.id then change fields else fields := by
  rw [← map_snd_placed none, placed_mapFields hid hdistinct,
    ← map_snd_placed none, List.map_map, List.map_map]
  rfl

theorem childIds_mapFields {place : Place} {change : ElementFields → ElementFields}
    (hid : ∀ fields, (change fields).id = fields.id)
    (hdistinct : (place.fill (before ++ element :: after)).allIds.Nodup) (parent : Option Text) :
    (place.fill (before ++ element.mapFields change :: after)).childIds parent =
      (place.fill (before ++ element :: after)).childIds parent := by
  rw [childIds, childIds, placed_mapFields hid hdistinct, List.filter_map, List.map_map]
  refine List.map_congr_left fun pair _ => ?_
  simp only [Function.comp_apply]
  split
  · exact hid _
  · rfl

/-! ## Conservation -/

/-- A revision leaves alone what the action does not concern. -/
theorem Revision.conserves (h : Revision stamp action before after)
    (hdistinct : before.allIds.Nodup) : Conserves stamp action before after := by
  cases h with
  | added hputIn => exact conserves_add hputIn
  | @removed element before after hputIn =>
    exact ⟨element, rfl, hputIn.nodes_perm, hputIn.keepsOthers.symm⟩
  | updated place before element after changes =>
    have hkeeps := changed_keeps changes
    exact ⟨nodes_mapFields (fun fields => (hkeeps fields).1) hdistinct, hkeeps,
      childIds_mapFields (fun fields => (hkeeps fields).1) hdistinct⟩
  | @moved action element rest before after moves taken put =>
    have hmoved : after.nodes.Perm before.nodes ∧ KeepsOthers [element.id] before after :=
      ⟨put.nodes_perm.trans taken.nodes_perm.symm, taken.keepsOthers_of_putIn put hdistinct⟩
    cases action <;> simp only [Action.movedId?, reduceCtorEq, Option.some.injEq] at moves
    all_goals
      subst moves
      exact hmoved
  | @kept action forest moves =>
    cases action <;> simp only [Action.movedId?, Option.isSome_none, Bool.false_eq_true] at moves
    all_goals exact ⟨.refl _, fun _ => rfl⟩

end Forest

namespace Session

open Forest

variable {session : Session} {stamp : Stamp} {action : Action}

/-- In a session with distinct, non-empty ids and children exactly on layouts, an
action on elements of the forest has exactly its effect, and all other elements keep
their fields, their parents and their order. -/
theorem step?_exact (h : session.project.elements.Sound) (hedits : action.editsForest)
    (hids : ∀ id ∈ action.ids, id ∈ session.project.elements.allIds) :
    session.Effect stamp action (session.step? stamp action) ∧
      ∀ next, session.step? stamp action = .ok (some next) →
        Conserves stamp action session.project.elements next.project.elements := by
  have heffect := effect_step? stamp h hedits hids
  refine ⟨heffect, fun next hnext => ?_⟩
  rw [hnext] at heffect
  exact heffect.revision.conserves h.distinct

/-- A session with a label in a box, next to an empty column. -/
def boxed : Session where
  project :=
    { name := "Tool"
      elements := [
        .group { widget := .box, label := "Box", id := "a" } [
          .leaf { widget := .label, label := "Label", id := "b" }],
        .group { widget := .verticalGroup, label := "Vertical", id := "c" } []] }
  selected := some "b"

theorem allIds_boxed : boxed.project.elements.allIds = ["a", "b", "c"] := by
  simp [boxed, Element.children, Element.children?]
  exact ⟨rfl, rfl, rfl⟩

theorem sound_boxed : boxed.project.elements.Sound where
  distinct := by
    rw [allIds_boxed]
    decide
  named := by
    rw [allIds_boxed]
    decide
  shaped := shaped_cons.mpr ⟨rfl, shaped_cons.mpr ⟨rfl, shaped_nil, shaped_nil⟩,
    shaped_cons.mpr ⟨rfl, shaped_nil, shaped_nil⟩⟩

theorem step?_exact_boxed : boxed.project.elements.Sound ∧
    boxed.Effect ⟨"d", "t1"⟩ (.moveOut "b") (boxed.step? ⟨"d", "t1"⟩ (.moveOut "b")) ∧
      ∀ next, boxed.step? ⟨"d", "t1"⟩ (.moveOut "b") = .ok (some next) →
        Conserves ⟨"d", "t1"⟩ (.moveOut "b") boxed.project.elements next.project.elements := by
  have hids : ∀ id ∈ (Action.moveOut "b").ids, id ∈ boxed.project.elements.allIds := by
    rw [allIds_boxed]
    decide
  exact ⟨sound_boxed, step?_exact sound_boxed rfl hids⟩

end Session

end EditorScript
