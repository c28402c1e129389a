import EditorScript.Proofs.SessionFrame

/-!
# Runs of sessions

Whatever the user does, ids stay distinct, exactly the layouts have children, and
what is selected is an element of the forest.  One action keeps this
(`Session.Sound.apply`), and so does a run of actions.
-/

namespace EditorScript

/-- Whether an action names a field or a setting that does not exist. -/
def Action.namesUnknown : Action → Bool
  | .update _ changes => changes.any (·.isUnknown)
  | .updateSettings changes => changes.any (·.isUnknown)
  | _ => false

/-- Whether an action notes its time even where it changes no element. -/
def Action.restamps : Action → Bool
  | .move .. | .reorder .. => true
  | _ => false

namespace Session

open Forest

/-- What holds of a session before and after every action. -/
structure Sound (session : Session) : Prop where
  forest : session.project.elements.Sound
  selected : ∀ id ∈ session.selected, id ∈ session.project.elements.allIds

/-- What is asked of an action: an opened project is sound, a new element has a new
id, and what is selected is there. -/
def Allows (session : Session) (stamp : Stamp) : Action → Prop
  | .openProject project => project.elements.Sound
  | .add _ _ => stamp.id ≠ [] ∧ stamp.id ∉ session.project.elements.allIds
  | .select selected => ∀ id ∈ selected, id ∈ session.project.elements.allIds
  | _ => True

/-- The session after some actions, each at its time.  An action that fails leaves
the session as it was. -/
def after (session : Session) (steps : List (Stamp × Action)) : Session :=
  steps.foldl (fun session (stamp, action) => session.apply stamp action) session

/-- Every action of a run is allowed where the run has come to. -/
def AllowsAll (session : Session) : List (Stamp × Action) → Prop
  | [] => True
  | (stamp, action) :: rest =>
    session.Allows stamp action ∧ (session.apply stamp action).AllowsAll rest

variable {session next : Session} {stamp : Stamp} {action : Action}

/-! ## Revised forests -/

theorem sound_create {widget : Widget} (hnamed : stamp.id ≠ []) :
    Forest.Sound [Element.create stamp widget] where
  distinct := by
    rw [allIds_create]
    exact List.nodup_singleton _
  named := by
    rw [allIds_create, List.mem_singleton]
    exact fun heq => hnamed heq.symm
  shaped := by
    refine shaped_cons.mpr ⟨?_, by rw [children_create]; exact shaped_nil, shaped_nil⟩
    cases widget <;> rfl

/-- The forest stays sound under a revision. -/
theorem Revision.sound {before after : Forest} (h : Revision stamp action before after)
    (hbefore : before.Sound)
    (hfresh : ∀ widget parent, action = .add widget parent →
      stamp.id ≠ [] ∧ stamp.id ∉ before.allIds) : after.Sound := by
  cases h with
  | @added widget parent before after hputIn =>
    obtain ⟨hnamed, hnew⟩ := hfresh widget parent rfl
    refine hputIn.sound.mpr ⟨hbefore, sound_create hnamed, ?_⟩
    rw [allIds_create]
    exact List.singleton_disjoint.mpr hnew
  | removed hputIn => exact (hputIn.sound.mp hbefore).1
  | updated place before element after changes =>
    have hkeeps := changed_keeps changes
    have hids : (place.fill (before ++
        element.mapFields (·.changed (Action.ownChanges changes)) :: after)).allIds =
          (place.fill (before ++ element :: after)).allIds := by
      rw [allIds, nodes_mapFields (fun fields => (hkeeps fields).1) hbefore.distinct, allIds,
        List.map_map]
      refine List.map_congr_left fun fields _ => ?_
      simp only [Function.comp_apply]
      split
      · exact (hkeeps fields).1
      · rfl
    refine ⟨hids ▸ hbefore.distinct, hids ▸ hbefore.named, ?_⟩
    obtain ⟨around, haround⟩ := shaped_fill place
    have hshaped := hbefore.shaped
    rw [haround, shaped_append, shaped_cons] at hshaped ⊢
    obtain ⟨hplace, hfront, hown, hchildren, hback⟩ := hshaped
    refine ⟨hplace, hfront, ?_, ?_, hback⟩
    · cases element <;>
        simpa [Element.mapFields, Element.children?, Element.widget, Element.fields,
          (hkeeps _).2] using hown
    · cases element <;> exact hchildren
  | moved moves taken put => exact put.sound.mpr (taken.sound.mp hbefore)
  | kept moves => exact hbefore

/-! ## One action -/

theorem sound_nil : Forest.Sound [] where
  distinct := by
    rw [allIds_nil]
    exact List.nodup_nil
  named := by simp
  shaped := shaped_nil

/-- An action that neither adds nor removes loses no ids. -/
theorem Conserves.mem_allIds {before after : Forest} {id : Text}
    (h : Conserves stamp action before after)
    (hkeeps : (∃ own changes, action = .update own changes) ∨ action.movedId?.isSome)
    (hid : id ∈ before.allIds) : id ∈ after.allIds := by
  have hperm : after.nodes.Perm before.nodes → id ∈ after.allIds := fun hperm =>
    (hperm.map (·.id)).mem_iff.mpr hid
  rcases hkeeps with ⟨own, changes, rfl⟩ | hmoves
  · obtain ⟨hnodes, hchanged, -⟩ := h
    obtain ⟨node, hnode, rfl⟩ := List.mem_map.mp hid
    rw [allIds, hnodes, List.map_map]
    refine List.mem_map.mpr ⟨node, hnode, ?_⟩
    simp only [Function.comp_apply]
    split
    · exact (hchanged node).1
    · rfl
  · cases action <;> simp only [Action.movedId?, Option.isSome_none, Bool.false_eq_true] at hmoves
    all_goals exact hperm h.1

/-- A session stays sound under the effect of an action. -/
theorem Effect.sound (heffect : session.Effect stamp action (.ok (some next)))
    (h : session.Sound) (hallows : session.Allows stamp action) : next.Sound := by
  have hfresh : ∀ widget parent, action = .add widget parent →
      stamp.id ≠ [] ∧ stamp.id ∉ session.project.elements.allIds := by
    rintro widget parent rfl
    exact hallows
  have hconserves := heffect.revision.conserves h.forest.distinct
  refine ⟨Revision.sound heffect.revision h.forest hfresh, fun id hid => ?_⟩
  have hkept : (∃ own changes, action = .update own changes) ∨ action.movedId?.isSome →
      id ∈ session.selected → id ∈ next.project.elements.allIds := fun hkeeps hsame =>
    Conserves.mem_allIds hconserves hkeeps (h.selected id hsame)
  cases heffect with
  | @addRoot widget =>
    obtain rfl := Option.some.inj hid
    have hputIn := putIn_root (Element.create stamp widget) session.project.elements []
    rw [List.append_nil] at hputIn
    refine hputIn.allIds_perm.mem_iff.mpr (List.mem_append_left _ ?_)
    rw [allIds_create]
    exact List.mem_singleton_self _
  | @addChild widget place before children after fields layout here =>
    obtain rfl := Option.some.inj hid
    refine (putIn_lastChild place (Element.create stamp widget) fields before children
      after).allIds_perm.mem_iff.mpr (List.mem_append_left _ ?_)
    rw [allIds_create]
    exact List.mem_singleton_self _
  | @remove place before after element here =>
    obtain ⟨hselected, hout⟩ := Option.mem_filter_iff.mp hid
    have hmem := h.selected id hselected
    rw [here, (putIn_fill place element before after).allIds_perm.mem_iff, List.mem_append] at hmem
    refine hmem.resolve_left fun hin => ?_
    rw [holds_iff.mpr hin] at hout
    exact absurd hout (by decide)
  | @update place before after element changes here any known =>
    exact hkept (.inl ⟨element.id, changes, rfl⟩) hid
  | move | reorder | reorderApart | moveInto | moveOut => exact hkept (.inr rfl) hid

/-- Only an update that names an unknown field fails. -/
theorem Effect.unknownField {error : ActionError}
    (heffect : session.Effect stamp action (.error error)) :
    error = .unknownField ∧ action.namesUnknown := by
  cases heffect with
  | updateUnknown unknown => exact ⟨rfl, List.any_eq_true.mpr unknown⟩

/-- An action on an element that is not there leaves all elements alone. -/
theorem step?_of_absent (stamp : Stamp) {id : Text} (hid : id ∈ action.ids)
    (habsent : id ∉ session.project.elements.allIds) :
    session.step? stamp action = .ok (if action.restamps then
      some (session.withElements stamp session.project.elements) else none) := by
  have hfind : ∀ id ∉ session.project.elements.allIds,
      session.project.elements.find? id = none := by
    intro id habsent
    rw [← Option.not_isSome_iff_eq_none, find?_isSome]
    exact habsent
  have haccepts : ∀ id ∉ session.project.elements.allIds,
      session.accepts (some id) = false := by
    intro id habsent
    rw [accepts, hfind id habsent]
    rfl
  cases action with
  | add widget parent =>
    obtain rfl := Option.mem_toList.mp hid
    simp [step?, add?, haccepts id habsent, Action.restamps]
  | remove own =>
    obtain rfl := List.mem_singleton.mp hid
    simp [step?, Session.remove?, remove?_eq_none habsent, Action.restamps]
  | update own changes =>
    obtain rfl := List.mem_singleton.mp hid
    rw [step?, update?_eq, hfind id habsent]
    simp [Action.restamps]
  | move own direction =>
    obtain rfl := List.mem_singleton.mp hid
    rw [step?, move_eq_self habsent]
    rfl
  | moveInto own parent =>
    rw [step?, moveInto?]
    rcases List.mem_cons.mp hid with rfl | hid
    · rw [hfind id habsent]
      rfl
    · obtain rfl := List.mem_singleton.mp hid
      cases session.project.elements.find? own <;> simp [haccepts id habsent, Action.restamps]
  | moveOut own =>
    obtain rfl := List.mem_singleton.mp hid
    simp [step?, moveOut?, parentId?_eq_none habsent, Action.restamps]
  | reorder active onto =>
    rw [step?, reorder_eq_self]
    · rfl
    rintro place siblings here ⟨hactive, honto⟩
    refine habsent (here ▸ Place.mem_allIds_fill (mem_allIds_of_mem_ids ?_))
    rcases List.mem_cons.mp hid with rfl | hid
    · exact hactive
    · exact List.mem_singleton.mp hid ▸ honto
  | newProject _ | openProject _ | setKind _ | updateSettings _ | select _ | unknown =>
    exact absurd hid (by simp [Action.ids])

/-- An action keeps a session sound, and fails only where it names something that
does not exist. -/
theorem Sound.step? (h : session.Sound) (hallows : session.Allows stamp action) :
    (session.apply stamp action).Sound ∧
      ∀ error, session.step? stamp action = .error error →
        error = .unknownField ∧ action.namesUnknown := by
  have hsame : session.step? stamp action = .ok none →
      (session.apply stamp action).Sound ∧
        ∀ error, session.step? stamp action = .error error →
          error = .unknownField ∧ action.namesUnknown := by
    intro hnone
    rw [apply, hnone]
    exact ⟨h, fun error herror => by simp at herror⟩
  have hnext : ∀ next : Session, session.step? stamp action = .ok (some next) → next.Sound →
      (session.apply stamp action).Sound ∧
        ∀ error, session.step? stamp action = .error error →
          error = .unknownField ∧ action.namesUnknown := by
    intro next hnext hsound
    rw [apply, hnext]
    exact ⟨hsound, fun error herror => by simp at herror⟩
  by_cases hknown : ∀ id ∈ action.ids, id ∈ session.project.elements.allIds
  · cases hedits : action.editsForest with
    | true =>
      have heffect := effect_step? stamp h.forest hedits hknown
      cases hstep : session.step? stamp action with
      | error error =>
        rw [hstep] at heffect
        refine ⟨by rw [apply, hstep]; exact h, fun other hother => ?_⟩
        obtain rfl := Except.error.inj hother
        exact heffect.unknownField
      | ok outcome =>
        rw [← hstep]
        cases outcome with
        | none => exact hsame hstep
        | some next =>
          rw [hstep] at heffect
          exact hnext next hstep (heffect.sound h hallows)
    | false =>
      cases action with
      | newProject name => exact hnext _ rfl ⟨sound_nil, fun id hid => by simp at hid⟩
      | openProject project => exact hnext _ rfl ⟨hallows, fun id hid => by simp at hid⟩
      | setKind kind => exact hnext _ rfl ⟨h.forest, h.selected⟩
      | updateSettings changes =>
        cases hunknown : changes.any (·.isUnknown) with
        | true =>
          have hstep : session.step? stamp (.updateSettings changes) = .error .unknownField := by
            simp [Session.step?, hunknown]
          refine ⟨by rw [apply, hstep]; exact h, fun error herror => ?_⟩
          rw [hstep] at herror
          exact ⟨(Except.error.inj herror).symm, hunknown⟩
        | false =>
          obtain ⟨settings, hstep⟩ : ∃ settings, session.step? stamp (.updateSettings changes) =
              .ok (some { session with
                project := { session.project with settings, updatedAt := stamp.time } }) :=
            ⟨_, by rw [Session.step?, hunknown]; rfl⟩
          exact hnext _ hstep ⟨h.forest, h.selected⟩
      | select selected => exact hnext _ rfl ⟨h.forest, hallows⟩
      | unknown => exact hsame rfl
      | add _ _ | remove _ | update _ _ | move _ _ | moveInto _ _ | moveOut _ | reorder _ _ =>
        exact absurd hedits (by simp [Action.editsForest])
  · push Not at hknown
    obtain ⟨id, hid, habsent⟩ := hknown
    have hstep := step?_of_absent stamp hid habsent
    split at hstep
    · exact hnext _ hstep ⟨h.forest, h.selected⟩
    · exact hsame hstep

/-! ## Runs -/

theorem after_cons (session : Session) (stamp : Stamp) (action : Action)
    (rest : List (Stamp × Action)) :
    session.after ((stamp, action) :: rest) = (session.apply stamp action).after rest := rfl

theorem AllowsAll.append {before rest : List (Stamp × Action)}
    (h : session.AllowsAll (before ++ rest)) :
    session.AllowsAll before ∧ (session.after before).AllowsAll rest := by
  induction before generalizing session with
  | nil => exact ⟨trivial, h⟩
  | cons step before ih =>
    obtain ⟨hfirst, hrest⟩ := h
    obtain ⟨hbefore, hbehind⟩ := ih hrest
    exact ⟨⟨hfirst, hbefore⟩, hbehind⟩

theorem Sound.after {steps : List (Stamp × Action)} (h : session.Sound)
    (hallows : session.AllowsAll steps) : (session.after steps).Sound := by
  induction steps generalizing session with
  | nil => exact h
  | cons step rest ih => exact ih (h.step? hallows.1).1 hallows.2

/-- After every run of allowed actions from a sound session, ids are distinct and not
empty, exactly the layouts have children, and what is selected is an element of the
forest; on the way only actions fail that name an unknown field or setting. -/
theorem run_keeps_sound {steps : List (Stamp × Action)} (h : session.Sound)
    (hallows : session.AllowsAll steps) :
    (session.after steps).Sound ∧
      ∀ before stamp action behind, steps = before ++ (stamp, action) :: behind →
        ∀ error, (session.after before).step? stamp action = .error error →
          error = .unknownField ∧ action.namesUnknown := by
  refine ⟨h.after hallows, fun before stamp action behind hsteps => ?_⟩
  rw [hsteps] at hallows
  obtain ⟨hbefore, hbehind⟩ := hallows.append
  exact ((h.after hbefore).step? hbehind.1).2

/-- A label is added to the box and the one in it moves out before the box goes. -/
def unboxing : List (Stamp × Action) :=
  [(⟨"d", "t1"⟩, .add .label (some "a")), (⟨"e", "t2"⟩, .moveOut "b"), (⟨"f", "t3"⟩, .remove "a")]

theorem run_keeps_sound_boxed : boxed.Sound ∧ boxed.AllowsAll unboxing ∧
    (boxed.after unboxing).Sound ∧
      ∀ before stamp action behind, unboxing = before ++ (stamp, action) :: behind →
        ∀ error, (boxed.after before).step? stamp action = .error error →
          error = .unknownField ∧ action.namesUnknown := by
  have hsound : boxed.Sound := by
    refine ⟨sound_boxed, fun id hid => ?_⟩
    obtain rfl := Option.some.inj hid
    rw [allIds_boxed]
    decide
  have hallows : boxed.AllowsAll unboxing := by
    refine ⟨⟨by decide, ?_⟩, trivial, trivial, trivial⟩
    rw [allIds_boxed]
    decide
  exact ⟨hsound, hallows, run_keeps_sound hsound hallows⟩

end Session

end EditorScript
