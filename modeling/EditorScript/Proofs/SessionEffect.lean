import EditorScript.Proofs.PlacedEdit
import EditorScript.Session.Basic

/-!
# What actions do to a forest

`Session.Effect` says for every action on elements which forest it leads to: where
the element stood, and where it stands afterwards.  In a sound session every action
has its effect.
-/

namespace EditorScript

/-- The fields with several changes made. -/
def ElementFields.changed (changes : List ElementChange) (fields : ElementFields) :
    ElementFields :=
  changes.foldl ElementChange.onFields fields

namespace Action

/-- The changes of an update that sessions make; those of structure are left out. -/
def ownChanges (changes : List ElementChange) : List ElementChange :=
  changes.filter fun change => !change.isStructural

theorem isStructural_of_mem_ownChanges {change : ElementChange} {changes : List ElementChange}
    (h : change ∈ ownChanges changes) : change.isStructural = false := by
  simpa using (List.mem_filter.mp h).2

/-- The ids of the elements that an action refers to. -/
def ids : Action → List Text
  | .add _ parent => parent.toList
  | .remove id | .update id _ | .move id _ | .moveOut id => [id]
  | .moveInto id parent => [id, parent]
  | .reorder active onto => [active, onto]
  | _ => []

/-- Whether an action edits the forest. -/
def editsForest : Action → Bool
  | .add .. | .remove _ | .update .. | .move .. | .moveInto .. | .moveOut _ | .reorder .. => true
  | _ => false

end Action

/-- What an action on elements makes of a session, told by the places of the
elements: `.ok none` leaves the session alone. -/
inductive Session.Effect (session : Session) (stamp : Stamp) :
    Action → Except ActionError (Option Session) → Prop
  | addRoot {widget : Widget} :
    Effect session stamp (.add widget none)
      (.ok (some
        { session.withElements stamp
            (session.project.elements ++ [Element.create stamp widget]) with
          selected := some stamp.id }))
  | addChild {widget : Widget} {place : Place} {before children after : Forest}
      {fields : ElementFields} (layout : fields.widget.isLayout)
      (here : session.project.elements = place.fill (before ++ .group fields children :: after)) :
    Effect session stamp (.add widget (some fields.id))
      (.ok (some
        { session.withElements stamp
            (place.fill (before ++
              .group fields (children ++ [Element.create stamp widget]) :: after)) with
          selected := some stamp.id }))
  | addNowhere {widget : Widget} {place : Place} {before after : Forest} {fields : ElementFields}
      (nolayout : fields.widget.isLayout = false)
      (here : session.project.elements = place.fill (before ++ .leaf fields :: after)) :
    Effect session stamp (.add widget (some fields.id)) (.ok none)
  | remove {place : Place} {before after : Forest} {element : Element}
      (here : session.project.elements = place.fill (before ++ element :: after)) :
    Effect session stamp (.remove element.id)
      (.ok (some
        { session.withElements stamp (place.fill (before ++ after)) with
          selected := session.selected.filter fun id => !element.holds id }))
  | update {place : Place} {before after : Forest} {element : Element}
      {changes : List ElementChange}
      (here : session.project.elements = place.fill (before ++ element :: after))
      (any : Action.ownChanges changes ≠ [])
      (known : ∀ change ∈ Action.ownChanges changes, change.isUnknown = false) :
    Effect session stamp (.update element.id changes)
      (.ok (some (session.withElements stamp (place.fill
        (before ++ element.mapFields (·.changed (Action.ownChanges changes)) :: after)))))
  | updateNothing {id : Text} {changes : List ElementChange}
      (nothing : Action.ownChanges changes = []) :
    Effect session stamp (.update id changes) (.ok none)
  | updateUnknown {id : Text} {changes : List ElementChange}
      (unknown : ∃ change ∈ changes, change.isUnknown) :
    Effect session stamp (.update id changes) (.error .unknownField)
  | move {place : Place} {left right left' right' : Forest} {element : Element}
      {direction : Direction}
      (here : session.project.elements = place.fill (left ++ element :: right))
      (others : left' ++ right' = left ++ right)
      (position : left'.length = match direction with
        | .up => left.length - 1
        | .down => min (left.length + 1) (left ++ right).length) :
    Effect session stamp (.move element.id direction)
      (.ok (some (session.withElements stamp (place.fill (left' ++ element :: right')))))
  | reorder {place : Place} {left right left' right' : Forest} {element : Element} {onto : Text}
      (here : session.project.elements = place.fill (left ++ element :: right))
      (sibling : onto ∈ Forest.ids (left ++ element :: right))
      (others : left' ++ right' = left ++ right)
      (position : left'.length = (Forest.ids (left ++ element :: right)).idxOf onto) :
    Effect session stamp (.reorder element.id onto)
      (.ok (some (session.withElements stamp (place.fill (left' ++ element :: right')))))
  | reorderApart {active onto : Text}
      (apart : ∀ (place : Place) (siblings : Forest),
        session.project.elements = place.fill siblings →
          ¬(active ∈ siblings.ids ∧ onto ∈ siblings.ids)) :
    Effect session stamp (.reorder active onto)
      (.ok (some (session.withElements stamp session.project.elements)))
  | moveInto {place target : Place} {before after front children back : Forest}
      {element : Element} {fields : ElementFields} (layout : fields.widget.isLayout)
      (here : session.project.elements = place.fill (before ++ element :: after))
      (there : place.fill (before ++ after) =
        target.fill (front ++ .group fields children :: back)) :
    Effect session stamp (.moveInto element.id fields.id)
      (.ok (some (session.withElements stamp
        (target.fill (front ++ .group fields (children ++ [element]) :: back)))))
  | moveIntoItself {place : Place} {before after : Forest} {element : Element} {parent : Text}
      (here : session.project.elements = place.fill (before ++ element :: after))
      (inside : parent ∈ Forest.allIds [element]) :
    Effect session stamp (.moveInto element.id parent) (.ok none)
  | moveIntoNowhere {place : Place} {before after : Forest} {fields : ElementFields} {id : Text}
      (nolayout : fields.widget.isLayout = false)
      (here : session.project.elements = place.fill (before ++ .leaf fields :: after)) :
    Effect session stamp (.moveInto id fields.id) (.ok none)
  | moveOut {place : Place} {before left right after : Forest} {element : Element}
      {fields : ElementFields}
      (here : session.project.elements =
        place.fill (before ++ .group fields (left ++ element :: right) :: after)) :
    Effect session stamp (.moveOut element.id)
      (.ok (some (session.withElements stamp
        (place.fill (before ++ .group fields (left ++ right) :: element :: after)))))
  | moveOutRoot {before after : Forest} {element : Element}
      (here : session.project.elements = before ++ element :: after) :
    Effect session stamp (.moveOut element.id) (.ok none)

namespace Forest

variable {element : Element} {fields : ElementFields} {place : Place}
variable {before after left right siblings rest forest : Forest} {onto : Text}

/-! ## Positions among siblings -/

/-- An element moves by one place, and stays where it is at the end of the siblings. -/
theorem moveSibling_append (right : Forest) (direction : Direction) (h : element.id ∉ left.ids) :
    ∃ left' right' : Forest,
      moveSibling element.id direction (left ++ element :: right) = left' ++ element :: right' ∧
      left' ++ right' = left ++ right ∧
      left'.length = match direction with
        | .up => left.length - 1
        | .down => min (left.length + 1) (left ++ right).length := by
  induction left with
  | nil =>
    cases right with
    | nil => exact ⟨[], [], by simp [moveSibling], rfl, by cases direction <;> rfl⟩
    | cons second rest =>
      cases direction with
      | up => exact ⟨[], second :: rest, by simp [moveSibling], rfl, rfl⟩
      | down => exact ⟨[second], rest, by simp [moveSibling], rfl, by simp⟩
  | cons first others ih =>
    rw [ids_cons, List.mem_cons, not_or] at h
    have hfirst : first.id ≠ element.id := fun heq => h.1 heq.symm
    cases others with
    | nil =>
      cases direction with
      | up => exact ⟨[], first :: right, by simp [moveSibling, hfirst], rfl, rfl⟩
      | down =>
        obtain ⟨left', right', hmoved, hothers, hlength⟩ := ih h.2
        refine ⟨first :: left', right', ?_, by rw [List.cons_append, hothers]; rfl, ?_⟩
        · rw [List.nil_append] at hmoved
          simp only [List.cons_append, List.nil_append, moveSibling, if_neg hfirst, hmoved,
            reduceCtorEq, false_and, if_false]
        · simp only [List.length_cons, List.length_append] at hlength ⊢
          omega
    | cons second others =>
      obtain ⟨left', right', hmoved, hothers, hlength⟩ := ih h.2
      have hsecond : second.id ≠ element.id := fun heq => h.2 (by rw [← heq]; exact List.mem_cons_self ..)
      refine ⟨first :: left', right', ?_, by rw [List.cons_append, hothers]; rfl, ?_⟩
      · rw [List.cons_append] at hmoved
        simp only [List.cons_append, moveSibling, if_neg hfirst, hsecond, and_false, if_false, hmoved]
      · cases direction with
        | up =>
          simp only [List.length_cons] at hlength ⊢
          omega
        | down =>
          simp only [List.length_cons, List.length_append] at hlength ⊢
          omega

/-- An element is put in where the other one was found. -/
theorem reorderSiblings_append (h : element.id ∉ left.ids)
    (honto : onto ∈ ids (left ++ element :: right)) :
    ∃ left' right' : Forest,
      reorderSiblings element.id onto (left ++ element :: right) = left' ++ element :: right' ∧
      left' ++ right' = left ++ right ∧
      left'.length = (ids (left ++ element :: right)).idxOf onto := by
  have hplace : (ids (left ++ element :: right)).idxOf onto ≤ (left ++ right).length := by
    have hlt := List.idxOf_lt_length_of_mem honto
    rw [ids, List.length_map, List.length_append, List.length_cons] at hlt
    rw [List.length_append, ids]
    omega
  refine ⟨(left ++ right).take ((ids (left ++ element :: right)).idxOf onto),
    (left ++ right).drop ((ids (left ++ element :: right)).idxOf onto), ?_,
    List.take_append_drop .., by rw [List.length_take]; omega⟩
  have hinsert := insertAt_length element
    ((left ++ right).take ((ids (left ++ element :: right)).idxOf onto))
    ((left ++ right).drop ((ids (left ++ element :: right)).idxOf onto))
  rw [List.take_append_drop, List.length_take, Nat.min_eq_left hplace] at hinsert
  rw [reorderSiblings, takeSibling?_append h]
  exact hinsert

end Forest

namespace Session

open Forest

variable {session : Session} {stamp : Stamp}

/-- The element with an id and where it stands. -/
theorem exists_place {id : Text} (h : id ∈ session.project.elements.allIds) :
    ∃ (place : Place) (before : Forest) (element : Element) (after : Forest),
      element.id = id ∧ session.project.elements = place.fill (before ++ element :: after) := by
  obtain ⟨element, hmem, hid⟩ := mem_allIds.mp h
  obtain ⟨place, before, after, hplace⟩ := Place.exists_fill hmem
  exact ⟨place, before, element, after, hid, hplace⟩

theorem accepts_fill {place : Place} {before after : Forest} {element : Element}
    (hdistinct : session.project.elements.allIds.Nodup)
    (here : session.project.elements = place.fill (before ++ element :: after)) :
    session.accepts (some element.id) = element.widget.isLayout := by
  rw [accepts, find?_of_mem hdistinct (here ▸ mem_flatten_fill)]
  rfl

theorem effect_add (h : session.project.elements.Sound) (widget : Widget) (parent : Option Text)
    (hparent : ∀ id ∈ parent, id ∈ session.project.elements.allIds) :
    session.Effect stamp (.add widget parent) (session.step? stamp (.add widget parent)) := by
  cases parent with
  | none =>
    have hadd : session.step? stamp (.add widget none) = .ok (some
        { session.withElements stamp
            (session.project.elements ++ [Element.create stamp widget]) with
          selected := some stamp.id }) := by
      simp [step?, add?, accepts, Forest.insert, insertAt_none]
    rw [hadd]
    exact .addRoot
  | some parent =>
    obtain ⟨place, before, element, after, rfl, here⟩ := exists_place (hparent parent rfl)
    have hdistinct := h.distinct
    have hshaped := h.shaped
    have haccepts := accepts_fill hdistinct here
    rw [here] at hdistinct hshaped
    cases hlayout : element.widget.isLayout with
    | true =>
      obtain ⟨fields, children, rfl⟩ := exists_group hshaped hlayout
      have hadd : session.step? stamp (.add widget (some fields.id)) = .ok (some
          { session.withElements stamp
              (place.fill (before ++
                .group fields (children ++ [Element.create stamp widget]) :: after)) with
            selected := some stamp.id }) := by
        have hinsert := insertUnder_fill none (Element.create stamp widget) hdistinct
        rw [insertAt_none, ← here] at hinsert
        rw [hlayout] at haccepts
        have haccepts : session.accepts (some fields.id) = true := haccepts
        simp only [step?, add?, haccepts, if_true, Forest.insert, hinsert]
      have hlayout : fields.widget.isLayout := hlayout
      show session.Effect stamp (.add widget (some fields.id)) _
      exact hadd ▸ .addChild hlayout here
    | false =>
      obtain ⟨fields, rfl⟩ := exists_leaf hshaped hlayout
      have hadd : session.step? stamp (.add widget (some fields.id)) = .ok none := by
        rw [hlayout] at haccepts
        have haccepts : session.accepts (some fields.id) = false := haccepts
        simp [step?, add?, haccepts]
      show session.Effect stamp (.add widget (some fields.id)) _
      exact hadd ▸ .addNowhere hlayout here

theorem effect_remove (h : session.project.elements.Sound) {id : Text}
    (hid : id ∈ session.project.elements.allIds) :
    session.Effect stamp (.remove id) (session.step? stamp (.remove id)) := by
  obtain ⟨place, before, element, after, rfl, here⟩ := exists_place hid
  have hdistinct := h.distinct
  rw [here] at hdistinct
  have hremove := remove?_fill hdistinct
  rw [← here] at hremove
  simp only [step?, remove?, hremove, Option.map_some]
  exact .remove here

theorem applyAll_eq_mapFields {changes : List ElementChange}
    (h : ∀ change ∈ changes, change.isStructural = false) (element : Element) :
    ElementChange.applyAll changes element = element.mapFields (·.changed changes) := by
  induction changes generalizing element with
  | nil => cases element <;> rfl
  | cons change rest ih =>
    obtain ⟨hfirst, hrest⟩ := List.forall_mem_cons.mp h
    have happly : ElementChange.apply element change =
        element.mapFields fun fields => change.onFields fields := by
      cases change <;> first | rfl | exact absurd hfirst (by simp [ElementChange.isStructural])
    have hfold := ih hrest (ElementChange.apply element change)
    rw [ElementChange.applyAll] at hfold
    rw [ElementChange.applyAll, List.foldl_cons, hfold, happly]
    cases element <;> rfl

theorem update?_eq (id : Text) (changes : List ElementChange) :
    session.update? stamp id changes =
      if (Action.ownChanges changes).isEmpty || (session.project.elements.find? id).isNone then
        .ok none
      else (session.project.elements.updated? id (Action.ownChanges changes)).map fun elements =>
        some (session.withElements stamp elements) := rfl

theorem effect_update (h : session.project.elements.Sound) {id : Text}
    (hid : id ∈ session.project.elements.allIds) (changes : List ElementChange) :
    session.Effect stamp (.update id changes) (session.step? stamp (.update id changes)) := by
  obtain ⟨place, before, element, after, rfl, here⟩ := exists_place hid
  have hfind := find?_of_mem h.distinct (here ▸ mem_flatten_fill)
  have hdistinct := h.distinct
  rw [here] at hdistinct
  by_cases hnothing : Action.ownChanges changes = []
  · have hupdate : session.step? stamp (.update element.id changes) = .ok none := by
      rw [step?, update?_eq, hnothing]
      rfl
    rw [hupdate]
    exact .updateNothing hnothing
  · have hsome : ((Action.ownChanges changes).isEmpty ||
        (session.project.elements.find? element.id).isNone) = false := by
      simp [hnothing, hfind]
    by_cases hunknown : (Action.ownChanges changes).any (·.isUnknown)
    · have hupdate : session.step? stamp (.update element.id changes) = .error .unknownField := by
        rw [step?, update?_eq, hsome, Forest.updated?, hunknown, hfind]
        rfl
      rw [hupdate]
      obtain ⟨change, hmem, hchange⟩ := List.any_eq_true.mp hunknown
      exact .updateUnknown ⟨change, List.mem_of_mem_filter hmem, hchange⟩
    · have hown : ∀ change ∈ Action.ownChanges changes, change.isStructural = false :=
        fun _ => Action.isStructural_of_mem_ownChanges
      have hmap := applyAll_eq_mapFields hown element
      have hfill := update_fill (ElementChange.applyAll (Action.ownChanges changes)) hdistinct
      rw [← here, hmap] at hfill
      have hupdate : session.step? stamp (.update element.id changes) =
          .ok (some (session.withElements stamp (place.fill
            (before ++ element.mapFields (·.changed (Action.ownChanges changes)) :: after)))) := by
        rw [Bool.not_eq_true] at hunknown
        rw [step?, update?_eq, hsome, Forest.updated?, hunknown, hfind, hfill]
        rfl
      rw [hupdate]
      refine .update here hnothing fun change hmem => ?_
      by_contra hchange
      exact hunknown (List.any_eq_true.mpr ⟨change, hmem, by simpa using hchange⟩)

theorem effect_move (h : session.project.elements.Sound) {id : Text}
    (hid : id ∈ session.project.elements.allIds) (direction : Direction) :
    session.Effect stamp (.move id direction) (session.step? stamp (.move id direction)) := by
  obtain ⟨place, left, element, right, rfl, here⟩ := exists_place hid
  have hdistinct := h.distinct
  rw [here] at hdistinct
  have hleft := id_notMem_ids (notMem_of_nodup (Place.nodup_siblings hdistinct)).1
  obtain ⟨left', right', hmoved, hothers, hposition⟩ :=
    moveSibling_append right direction hleft
  have hfill := move_fill direction hdistinct mem_ids_middle
  rw [hmoved, ← here] at hfill
  rw [step?, hfill]
  exact .move here hothers hposition

theorem effect_reorder (h : session.project.elements.Sound) {active onto : Text} :
    session.Effect stamp (.reorder active onto) (session.step? stamp (.reorder active onto)) := by
  by_cases hsiblings : ∃ (place : Place) (siblings : Forest),
      session.project.elements = place.fill siblings ∧ active ∈ siblings.ids ∧ onto ∈ siblings.ids
  · obtain ⟨place, siblings, here, hactive, honto⟩ := hsiblings
    have hdistinct := h.distinct
    rw [here] at hdistinct
    obtain ⟨element, hmem, rfl⟩ := List.mem_map.mp hactive
    obtain ⟨left, right, rfl⟩ := List.append_of_mem hmem
    have hleft := id_notMem_ids (notMem_of_nodup (Place.nodup_siblings hdistinct)).1
    obtain ⟨left', right', hmoved, hothers, hposition⟩ := reorderSiblings_append hleft honto
    have hfill := reorder_fill hdistinct hactive honto
    rw [hmoved, ← here] at hfill
    rw [step?, hfill]
    exact .reorder here honto hothers hposition
  · have hapart : ∀ (place : Place) (siblings : Forest),
        session.project.elements = place.fill siblings →
          ¬(active ∈ siblings.ids ∧ onto ∈ siblings.ids) :=
      fun place siblings here hboth => hsiblings ⟨place, siblings, here, hboth⟩
    rw [step?, reorder_eq_self hapart]
    exact .reorderApart hapart

theorem holds_iff {element : Element} {id : Text} : element.holds id ↔ id ∈ allIds [element] := by
  rw [Element.holds, find?_isSome]

theorem effect_moveInto (h : session.project.elements.Sound) {id parent : Text}
    (hid : id ∈ session.project.elements.allIds)
    (hparent : parent ∈ session.project.elements.allIds) :
    session.Effect stamp (.moveInto id parent) (session.step? stamp (.moveInto id parent)) := by
  obtain ⟨place, before, element, after, rfl, here⟩ := exists_place hid
  obtain ⟨outer, beside, container, behind, rfl, hcontainer⟩ := exists_place hparent
  have hfind := find?_of_mem h.distinct (here ▸ mem_flatten_fill)
  have haccepts := accepts_fill h.distinct hcontainer
  have hmove : session.step? stamp (.moveInto element.id container.id) = .ok
      (if container.widget.isLayout && !element.holds container.id then
        (session.project.elements.remove? element.id).map fun found =>
          session.withElements stamp (found.2.insert (some container.id) none found.1)
      else none) := by
    simp only [step?, moveInto?, hfind, haccepts]
  cases hlayout : container.widget.isLayout with
  | false =>
    have hshaped := h.shaped
    rw [hcontainer] at hshaped
    obtain ⟨fields, rfl⟩ := exists_leaf hshaped hlayout
    rw [hmove, hlayout]
    exact .moveIntoNowhere hlayout hcontainer
  | true =>
    by_cases hinside : container.id ∈ allIds [element]
    · rw [hmove, hlayout, holds_iff.mpr hinside]
      exact .moveIntoItself here hinside
    · have hholds : element.holds container.id = false := by
        rw [← Bool.not_eq_true, holds_iff]
        exact hinside
      have hputIn : PutIn element (place.fill (before ++ after)) session.project.elements :=
        ⟨place, before, after, rfl, here⟩
      have hrest : Sound (place.fill (before ++ after)) := (hputIn.sound.mp h).1
      have hmem : container.id ∈
          (session.withElements stamp (place.fill (before ++ after))).project.elements.allIds :=
        (List.mem_append.mp (hputIn.allIds_perm.mem_iff.mp hparent)).resolve_left hinside
      obtain ⟨target, front, found, back, hfound, there⟩ := exists_place hmem
      have there : place.fill (before ++ after) = target.fill (front ++ found :: back) := there
      -- the container is found again with its fields, though its children may be others
      have hfields : found.fields = container.fields := by
        refine nodes_inj h.distinct ?_ (hcontainer ▸ mem_nodes_fill) hfound
        rw [hputIn.nodes_perm.mem_iff, there]
        exact List.mem_append_right _ mem_nodes_fill
      have hshaped := hrest.shaped
      have hdistinct := hrest.distinct
      rw [there] at hshaped hdistinct
      obtain ⟨fields, children, rfl⟩ :=
        exists_group hshaped (by rw [Element.widget, hfields]; exact hlayout)
      have hfields : fields = container.fields := hfields
      have hremove := h.distinct
      rw [here] at hremove
      have hremove := remove?_fill hremove
      have hinsert := insertUnder_fill none element hdistinct
      rw [insertAt_none, ← there] at hinsert
      have hcontainerId : container.id = fields.id := by rw [hfields]
      have hmoved : session.step? stamp (.moveInto element.id fields.id) =
          .ok (some (session.withElements stamp
            (target.fill (front ++ .group fields (children ++ [element]) :: back)))) := by
        rw [← hcontainerId, hmove, hlayout, hholds, here, hremove, hcontainerId]
        simp only [Bool.not_false, Bool.and_self, if_true, Option.map_some, Forest.insert, hinsert]
      rw [hcontainerId, hmoved]
      exact .moveInto (by rw [hfields]; exact hlayout) here there

theorem insertAt_behind (before after : Forest) (container element : Element) :
    insertAt (some ((before.length : Int) + 1)) element (before ++ container :: after) =
      before ++ container :: element :: after := by
  have hinsert := insertAt_length element (before ++ [container]) after
  simpa [List.length_append] using hinsert

theorem idxOf_ids {before after : Forest} {element : Element} (h : element.id ∉ before.ids) :
    (ids (before ++ element :: after)).idxOf element.id = before.length := by
  rw [ids_append, ids_cons, List.idxOf_append_of_notMem h, List.idxOf_cons_self, ids,
    List.length_map, Nat.add_zero]

/-- An element moves out once its container, the siblings of that and the place
behind it are known. -/
theorem step?_moveOut {id parent : Text} {above : Option Text} {element container : Element}
    {rest before after result : Forest}
    (hparent : session.project.elements.parentId? id = some parent)
    (habove : session.project.elements.parentId? parent = above)
    (hremove : session.project.elements.remove? id = some (element, rest))
    (hsiblings : Session.siblings rest above = .ok (before ++ container :: after))
    (hcontainer : container.id = parent) (hbefore : parent ∉ before.ids)
    (hinsert : rest.insert above (some ((before.length : Int) + 1)) element = result) :
    session.step? stamp (.moveOut id) = .ok (some (session.withElements stamp result)) := by
  subst hcontainer
  have hcontains : (ids (before ++ container :: after)).contains container.id = true := by
    simp [ids]
  simp only [step?, moveOut?, hparent, habove, hremove, hsiblings, bind, Except.bind, hcontains,
    if_true, idxOf_ids hbefore, hinsert, pure, Except.pure]

/-- An element moves out behind its container where ids tell the container and the one that
holds the container. -/
theorem step?_moveOut_fill {place : Place} {before left right after : Forest} {element : Element}
    {fields : ElementFields} (hdistinct : session.project.elements.allIds.Nodup)
    (here : session.project.elements =
      place.fill (before ++ .group fields (left ++ element :: right) :: after))
    (hfields : place.Names fields.id) (hholder : place.NamesHolder) :
    session.step? stamp (.moveOut element.id) = .ok (some (session.withElements stamp
      (place.fill (before ++ .group fields (left ++ right) :: element :: after)))) := by
  have hinside := Place.fill_concat place ⟨before, fields, after⟩
  have hputIn : PutIn element (place.fill (before ++ .group fields (left ++ right) :: after))
      session.project.elements := ⟨_, left, right, (hinside _).symm, by rw [hinside, here]⟩
  have hrest := (List.nodup_append.mp (hputIn.allIds_perm.nodup_iff.mp hdistinct)).2.1
  rw [here] at hdistinct
  have hremove := remove?_group hdistinct
  rw [← here] at hremove
  have hbefore : fields.id ∉ before.ids :=
    id_notMem_ids (notMem_of_nodup (Place.nodup_siblings hdistinct)).1
  have hparent := parentId?_fill element hdistinct
  rw [if_pos hfields, ← here] at hparent
  rcases List.eq_nil_or_concat place with rfl | ⟨outer, ⟨front, holder, back⟩, rfl⟩
  · have habove : parentId? fields.id
        (before ++ .group fields (left ++ element :: right) :: after) = none :=
      parentId?_root hdistinct
    have here : session.project.elements =
        before ++ .group fields (left ++ element :: right) :: after := here
    rw [← here] at habove
    exact step?_moveOut hparent habove hremove rfl rfl hbefore (insertAt_behind ..)
  · have hnamed := hholder outer _ (List.concat_eq_append ..)
    have houter := Place.fill_concat outer ⟨front, holder, back⟩
    rw [List.concat_eq_append] at hdistinct hrest hremove here ⊢
    rw [houter] at hdistinct hrest
    have habove := parentId?_fill (.group fields (left ++ element :: right)) hdistinct
    have hfind := find?_of_mem hrest mem_flatten_fill
    have hinsert := insertUnder_fill (some ((before.length : Int) + 1)) element hrest
    rw [if_pos hnamed, ← houter, ← here] at habove
    rw [← houter] at hfind
    rw [insertAt_behind, ← houter, ← houter] at hinsert
    have hsiblings : Session.siblings
        (Place.fill (outer ++ [⟨front, holder, back⟩])
          (before ++ .group fields (left ++ right) :: after)) (some holder.id) =
          .ok (before ++ .group fields (left ++ right) :: after) := by
      simp only [Session.siblings, Element.id, Element.fields] at hfind ⊢
      rw [hfind]
      rfl
    exact step?_moveOut hparent habove hremove hsiblings rfl hbefore hinsert

theorem effect_moveOut (h : session.project.elements.Sound) {id : Text}
    (hid : id ∈ session.project.elements.allIds) :
    session.Effect stamp (.moveOut id) (session.step? stamp (.moveOut id)) := by
  obtain ⟨place, left, element, right, rfl, here⟩ := exists_place hid
  rcases List.eq_nil_or_concat place with rfl | ⟨outer, ⟨before, fields, after⟩, rfl⟩
  · have hparent := h.distinct
    rw [here] at hparent
    have hparent := parentId?_root hparent
    have here : session.project.elements = left ++ element :: right := here
    rw [← here] at hparent
    have hmove : session.step? stamp (.moveOut element.id) = .ok none := by
      simp [step?, moveOut?, hparent]
    rw [hmove]
    exact .moveOutRoot here
  · rw [List.concat_eq_append, Place.fill_concat] at here
    have hnamed : ∀ (place : Place) (before children after : Forest) (fields : ElementFields),
        session.project.elements = place.fill (before ++ .group fields children :: after) →
          fields.id ≠ [] := by
      rintro place before children after fields here heq
      refine h.named ?_
      rw [here, ← heq]
      exact Place.mem_allIds_fill mem_allIds_of_cons
    have hholder : Place.NamesHolder outer := by
      rintro further ⟨front, holder, back⟩ rfl
      exact .inr (hnamed _ _ _ _ _ (here.trans (Place.fill_concat ..)))
    rw [step?_moveOut_fill h.distinct here (.inr (hnamed _ _ _ _ _ here)) hholder]
    exact .moveOut here

/-- Every action on elements of a sound session has its effect. -/
theorem effect_step? (stamp : Stamp) (h : session.project.elements.Sound) {action : Action}
    (hedits : action.editsForest) (hids : ∀ id ∈ action.ids, id ∈ session.project.elements.allIds) :
    session.Effect stamp action (session.step? stamp action) := by
  cases action with
  | add widget parent =>
    exact effect_add h widget parent fun id hid => hids id (Option.mem_toList.mpr hid)
  | remove id => exact effect_remove h (hids id (List.mem_cons_self ..))
  | update id changes => exact effect_update h (hids id (List.mem_cons_self ..)) changes
  | move id direction => exact effect_move h (hids id (List.mem_cons_self ..)) direction
  | moveInto id parent =>
    exact effect_moveInto h (hids id (List.mem_cons_self ..)) (hids parent (by simp [Action.ids]))
  | moveOut id => exact effect_moveOut h (hids id (List.mem_cons_self ..))
  | reorder active onto => exact effect_reorder h
  | newProject _ | openProject _ | setKind _ | updateSettings _ | select _ | unknown =>
    exact absurd hedits (by simp [Action.editsForest])

end Session

end EditorScript
