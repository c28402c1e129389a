import EditorScript.Proofs.SessionEffect

/-!
# Parents and the ids that tell them

The parent of an element is looked up by ids, and so is the place to which an element moves
out.  An empty id is a good answer for a container among the roots, but further down it counts
as none.

* An element is found below its container exactly when the id of that tells it; otherwise it
  has no parent and stays where it is.
* It moves out behind its container when ids tell the container and the one around it.  When
  only the latter is not told, moving out fails.

Both are parts of `Session.moveOut_exact`.
-/

namespace EditorScript

namespace Session

open Forest

variable {session : Session} {stamp : Stamp} {place : Place}
variable {before left right after : Forest} {element : Element} {fields : ElementFields}

/-- An element whose container is not told by its id does not move out. -/
theorem step?_moveOut_of_not_names (hdistinct : session.project.elements.allIds.Nodup)
    (here : session.project.elements =
      place.fill (before ++ .group fields (left ++ element :: right) :: after))
    (h : ¬place.Names fields.id) : session.step? stamp (.moveOut element.id) = .ok none := by
  rw [here] at hdistinct
  have hparent := parentId?_fill element hdistinct
  rw [if_neg h, ← here] at hparent
  simp [step?, moveOut?, hparent]

/-- Where the container of a container is not told by its id, the inner one is looked for among
the roots, and that fails. -/
theorem step?_moveOut_of_not_namesHolder (hdistinct : session.project.elements.allIds.Nodup)
    (here : session.project.elements =
      place.fill (before ++ .group fields (left ++ element :: right) :: after))
    (hfields : place.Names fields.id) (h : ¬place.NamesHolder) :
    session.step? stamp (.moveOut element.id) = .error .siblingGone := by
  rw [here] at hdistinct
  have hparent := parentId?_fill element hdistinct
  have hremove := remove?_group hdistinct
  rw [if_pos hfields, ← here] at hparent
  rw [← here] at hremove
  have hlacks : place.Lacks fields.id := Place.lacks_of_nodup hdistinct mem_allIds_of_cons
  simp only [Place.NamesHolder, not_forall] at h
  obtain ⟨outer, frame, rfl, hunnamed⟩ := h
  have habove : session.project.elements.parentId? fields.id = none := by
    rw [Place.fill_concat] at hdistinct here
    have habove := parentId?_fill (.group fields (left ++ element :: right)) hdistinct
    rwa [if_neg hunnamed, ← here] at habove
  have hroots : (ids (Place.fill (outer ++ [frame])
      (before ++ .group fields (left ++ right) :: after))).contains fields.id = false := by
    obtain ⟨first, others, hcons⟩ := List.exists_cons_of_ne_nil (List.concat_ne_nil frame outer)
    rw [hcons] at hlacks ⊢
    simpa using notMem_ids_fill hlacks _
  simp only [step?, moveOut?, hparent, habove, hremove, siblings, bind, Except.bind, hroots,
    Bool.false_eq_true, if_false]

/-- With distinct ids, a parent is found exactly where its id tells it.  If it is, and so is the
container around it, an element moves out to the place directly behind its parent; if only the
container around the parent is not told, moving out fails; and if the parent is not told, it
makes no difference. -/
theorem moveOut_exact (stamp : Stamp) (hdistinct : session.project.elements.allIds.Nodup)
    (here : session.project.elements =
      place.fill (before ++ .group fields (left ++ element :: right) :: after)) :
    (place.Names fields.id → session.project.elements.parentId? element.id = some fields.id ∧
      (place.NamesHolder → session.step? stamp (.moveOut element.id) =
        .ok (some (session.withElements stamp
          (place.fill (before ++ .group fields (left ++ right) :: element :: after))))) ∧
      (¬place.NamesHolder →
        session.step? stamp (.moveOut element.id) = .error .siblingGone)) ∧
    (¬place.Names fields.id → session.project.elements.parentId? element.id = none ∧
      session.step? stamp (.moveOut element.id) = .ok none) := by
  have hparent : session.project.elements.parentId? element.id =
      if place.Names fields.id then some fields.id else none := by
    rw [here] at hdistinct ⊢
    exact parentId?_fill element hdistinct
  refine ⟨fun hfields => ⟨hparent.trans (if_pos hfields), fun hholder => ?_, fun hholder => ?_⟩,
    fun hfields => ⟨hparent.trans (if_neg hfields), ?_⟩⟩
  · exact step?_moveOut_fill hdistinct here hfields hholder
  · exact step?_moveOut_of_not_namesHolder hdistinct here hfields hholder
  · exact step?_moveOut_of_not_names hdistinct here hfields

end Session

/-! ## Boxes without an id -/

/-- Boxes inside each other with the given ids, the outermost one first. -/
def Forest.boxes : List Text → Forest
  | [] => []
  | id :: inner => [.group { widget := .box, label := "Box", id } (boxes inner)]

namespace Forest

theorem allIds_boxes (names : List Text) : (boxes names).allIds = names := by
  induction names with
  | nil => exact allIds_nil
  | cons id inner ih =>
    rw [boxes, allIds_cons, allIds_nil, List.append_nil]
    exact congrArg (id :: ·) ih

theorem shaped_boxes (names : List Text) : (boxes names).Shaped := by
  induction names with
  | nil => exact shaped_nil
  | cons id inner ih => exact shaped_cons.mpr ⟨rfl, ih, shaped_nil⟩

end Forest

namespace Session

/-- A session with boxes inside each other. -/
def ofBoxes (names : List Text) : Session where
  project := { name := "Tool", elements := Forest.boxes names }

/-- The fields of such a box. -/
def boxFields (id : Text) : ElementFields where
  widget := .box
  label := "Box"
  id := id

/-- Below a root without an id, a box moves out of the one that holds it. -/
theorem moveOut_exact_unnamedRoot :
    (ofBoxes ["", "a", "b"]).project.elements.allIds.Nodup ∧
    (ofBoxes ["", "a", "b"]).project.elements =
      Place.fill [⟨[], boxFields "", []⟩]
        ([] ++ .group (boxFields "a") ([] ++ .group (boxFields "b") [] :: []) :: []) ∧
    (ofBoxes ["", "a", "b"]).project.elements.parentId? "b" = some "a" ∧
    (ofBoxes ["", "a", "b"]).step? ⟨"c", "t1"⟩ (.moveOut "b") =
      .ok (some ((ofBoxes ["", "a", "b"]).withElements ⟨"c", "t1"⟩
        [.group (boxFields "") [.group (boxFields "a") [], .group (boxFields "b") []]])) := by
  have hdistinct : (ofBoxes ["", "a", "b"]).project.elements.allIds.Nodup := by
    rw [ofBoxes, Forest.allIds_boxes]
    decide
  have here : (ofBoxes ["", "a", "b"]).project.elements =
      Place.fill [⟨[], boxFields "", []⟩]
        ([] ++ .group (boxFields "a") ([] ++ .group (boxFields "b") [] :: []) :: []) := rfl
  have hfields : Place.Names [⟨[], boxFields "", []⟩] (boxFields "a").id := .inr (by decide)
  have hholder : Place.NamesHolder [⟨[], boxFields "", []⟩] := by
    intro outer frame heq
    obtain ⟨rfl, -⟩ := List.append_inj' (show [] ++ [_] = outer ++ [frame] from heq) rfl
    exact .inl rfl
  obtain ⟨hparent, hmoved, -⟩ := (moveOut_exact ⟨"c", "t1"⟩ hdistinct here).1 hfields
  exact ⟨hdistinct, here, hparent, hmoved hholder⟩

/-- Below the roots, a box without an id is not found as the parent of the box in it, which
does not move out, and the box in that one cannot move out either. -/
theorem parentId?_unnamedBox :
    (ofBoxes ["a", "", "b", "c"]).project.elements.allIds.Nodup ∧
    (ofBoxes ["a", "", "b", "c"]).project.elements.Shaped ∧
    (ofBoxes ["a", "", "b", "c"]).project.elements.parentId? "b" = none ∧
    (ofBoxes ["a", "", "b", "c"]).step? ⟨"d", "t1"⟩ (.moveOut "b") = .ok none ∧
    (ofBoxes ["a", "", "b", "c"]).step? ⟨"d", "t1"⟩ (.moveOut "c") = .error .siblingGone := by
  have hdistinct : (ofBoxes ["a", "", "b", "c"]).project.elements.allIds.Nodup := by
    rw [ofBoxes, Forest.allIds_boxes]
    decide
  have hunnamed : ¬Place.Names [⟨[], boxFields "a", []⟩] (boxFields "").id := by
    rintro (h | h)
    · cases h
    · exact h rfl
  have hfound : (ofBoxes ["a", "", "b", "c"]).project.elements.parentId? "b" =
      if Place.Names [⟨[], boxFields "a", []⟩] (boxFields "").id then some (boxFields "").id
        else none :=
    @Forest.parentId?_fill (boxFields "") [] [] [⟨[], boxFields "a", []⟩] [] []
      (.group (boxFields "b") [.group (boxFields "c") []]) hdistinct
  refine ⟨hdistinct, Forest.shaped_boxes _, hfound.trans (if_neg hunnamed), ?_, ?_⟩
  · exact @step?_moveOut_of_not_names _ _ [⟨[], boxFields "a", []⟩] [] [] [] []
      (.group (boxFields "b") [.group (boxFields "c") []]) (boxFields "") hdistinct rfl hunnamed
  · refine @step?_moveOut_of_not_namesHolder _ _
      [⟨[], boxFields "a", []⟩, ⟨[], boxFields "", []⟩] [] [] [] []
      (.group (boxFields "c") []) (boxFields "b") hdistinct rfl (.inr (by decide)) fun hholder => ?_
    exact hunnamed (hholder [⟨[], boxFields "a", []⟩] _ rfl)

end Session

end EditorScript
