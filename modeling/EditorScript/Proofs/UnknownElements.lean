import EditorScript.Proofs.SessionRun

/-!
# Actions on unknown elements

An action that looks up an element which is not there changes no element and does not
fail.  Most of these actions leave the session alone altogether; moving and reordering
still note their time, and selecting still selects the id.
-/

namespace EditorScript

/-- The ids that an action refers to, the one that it selects included. -/
def Action.references : Action → List Text
  | .select id => id.toList
  | action => action.ids

namespace Session

open Forest

variable {session : Session} {stamp : Stamp} {action : Action}

/-- What an action makes of a session beside its elements. -/
def besides? (session : Session) (stamp : Stamp) (action : Action) : Option Session :=
  match action with
  | .move .. | .reorder .. =>
    some { session with project := { session.project with updatedAt := stamp.time } }
  | .select id => some { session with selected := id }
  | _ => none

/-- An action refers to an element that the session does not have. -/
def Misses (session : Session) (action : Action) : Prop :=
  ∃ id ∈ action.references, id ∉ session.project.elements.allIds

/-- Only the elements of a session tell what an action misses. -/
theorem Misses.of_elements_eq {other : Session} (h : session.Misses action)
    (hsame : other.project.elements = session.project.elements) : other.Misses action := by
  obtain ⟨id, hid, habsent⟩ := h
  exact ⟨id, hid, hsame ▸ habsent⟩

/-- A step on an unknown element does not fail and leaves all elements alone. -/
theorem Misses.step?_eq (h : session.Misses action) (stamp : Stamp) :
    session.step? stamp action = .ok (session.besides? stamp action) := by
  obtain ⟨id, hid, habsent⟩ := h
  have hedit (hids : action.references = action.ids) :=
    step?_of_absent stamp (hids ▸ hid) habsent
  cases action with
  | select selected => rfl
  | add _ _ | remove _ | update _ _ | move _ _ | moveInto _ _ | moveOut _ | reorder _ _ =>
    exact hedit rfl
  | newProject _ | openProject _ | setKind _ | updateSettings _ | unknown =>
    exact absurd hid List.not_mem_nil

theorem Misses.apply_eq (h : session.Misses action) (stamp : Stamp) :
    session.apply stamp action = (session.besides? stamp action).getD session := by
  rw [apply, h.step?_eq stamp]
  cases session.besides? stamp action <;> rfl

theorem elements_besides (session : Session) (stamp : Stamp) (action : Action) :
    ((session.besides? stamp action).getD session).project.elements = session.project.elements := by
  cases action <;> rfl

/-- Behind any number of actions on unknown elements there are the same elements. -/
theorem elements_after_misses {steps : List (Stamp × Action)}
    (h : ∀ step ∈ steps, session.Misses step.2) :
    (session.after steps).project.elements = session.project.elements := by
  induction steps generalizing session with
  | nil => rfl
  | cons step rest ih =>
    obtain ⟨hfirst, hrest⟩ := List.forall_mem_cons.mp h
    have hsame : (session.apply step.1 step.2).project.elements = session.project.elements := by
      rw [hfirst.apply_eq step.1, elements_besides]
    rw [after_cons, ih fun other hother => (hrest other hother).of_elements_eq hsame, hsame]

/-- In a run of actions on unknown elements no action fails, every one leaves all elements
alone, and the session itself changes only where an action moves, reorders or selects:
the first two note their time, the last one selects the unknown id. -/
theorem run_on_unknown {steps : List (Stamp × Action)}
    (h : ∀ step ∈ steps, session.Misses step.2) :
    (session.after steps).project.elements = session.project.elements ∧
      (∀ before stamp action behind, steps = before ++ (stamp, action) :: behind →
        (session.after before).step? stamp action =
          .ok ((session.after before).besides? stamp action)) ∧
      ((∀ step ∈ steps, session.besides? step.1 step.2 = none) → session.after steps = session) := by
  refine ⟨elements_after_misses h, fun before stamp action behind hsteps => ?_, fun hnone => ?_⟩
  · have hbefore : ∀ step ∈ before, session.Misses step.2 := fun step hstep =>
      h step (hsteps ▸ List.mem_append_left _ hstep)
    have hmisses : session.Misses action :=
      h (stamp, action) (hsteps ▸ List.mem_append_right _ List.mem_cons_self)
    exact (hmisses.of_elements_eq (elements_after_misses hbefore)).step?_eq stamp
  · induction steps with
    | nil => rfl
    | cons step rest ih =>
      obtain ⟨hfirst, hrest⟩ := List.forall_mem_cons.mp h
      obtain ⟨hnothing, hnone⟩ := List.forall_mem_cons.mp hnone
      rw [after_cons, hfirst.apply_eq step.1, hnothing]
      exact ih hrest hnone

/-- An unknown element is removed, added to, moved out, moved up and selected. -/
def missing : List (Stamp × Action) :=
  [(⟨"d", "t1"⟩, .remove "z"), (⟨"e", "t2"⟩, .add .label (some "z")), (⟨"f", "t3"⟩, .moveOut "z"),
    (⟨"g", "t4"⟩, .move "z" .up), (⟨"h", "t5"⟩, .select (some "z"))]

theorem run_on_unknown_boxed : (∀ step ∈ missing, boxed.Misses step.2) ∧
    (boxed.after missing).project.elements = boxed.project.elements ∧
      (∀ before stamp action behind, missing = before ++ (stamp, action) :: behind →
        (boxed.after before).step? stamp action =
          .ok ((boxed.after before).besides? stamp action)) ∧
      ((∀ step ∈ missing, boxed.besides? step.1 step.2 = none) → boxed.after missing = boxed) := by
  have hmisses : ∀ step ∈ missing, boxed.Misses step.2 := by
    have habsent : ("z" : Text) ∉ boxed.project.elements.allIds := by
      rw [allIds_boxed]
      decide
    intro step hstep
    refine ⟨"z", ?_, habsent⟩
    revert step
    decide
  exact ⟨hmisses, run_on_unknown hmisses⟩

/-- Moving, reordering and selecting an unknown element change a session. -/
theorem boxed_changed_on_unknown : ("z" : Text) ∉ boxed.project.elements.allIds ∧
    boxed.apply ⟨"d", "t1"⟩ (.move "z" .up) ≠ boxed ∧
    boxed.apply ⟨"d", "t1"⟩ (.reorder "z" "a") ≠ boxed ∧
    boxed.apply ⟨"d", "t1"⟩ (.select (some "z")) ≠ boxed := by
  rw [allIds_boxed]
  have hmisses : ∀ action : Action, ("z" : Text) ∈ action.references → boxed.Misses action :=
    fun action hmem => ⟨"z", hmem, by rw [allIds_boxed]; decide⟩
  refine ⟨by decide, fun hsame => ?_, fun hsame => ?_, fun hsame => ?_⟩
  · rw [(hmisses (.move "z" .up) (by decide)).apply_eq] at hsame
    exact absurd (congrArg (·.project.updatedAt) hsame) (by decide)
  · rw [(hmisses (.reorder "z" "a") (by decide)).apply_eq] at hsame
    exact absurd (congrArg (·.project.updatedAt) hsame) (by decide)
  · exact absurd (congrArg (·.selected) hsame) (by decide)

end Session

end EditorScript
