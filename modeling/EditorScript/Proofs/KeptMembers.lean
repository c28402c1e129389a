import EditorScript.Imported.File
import EditorScript.Emission.Template

/-!
# Methods that are kept

Members that are written anew each time are told by their shape, and a method of
another shape is kept even where one of its name is written anew.  So a method is
kept exactly because it does not have that shape (`Member.IsOwnMethod`).
-/

namespace EditorScript

/-- A method without the shape of the members that are written anew: neither the
drawing method nor one that `isGenerated` knows.  `drawn` tells whether a drawing
method was met. -/
def Member.IsOwnMethod (kind : ScriptKind) (className : Text) (drawn : Bool) (member : Member) :
    Prop :=
  ∃ (pending own behind : List Text) (name : Text),
    member.lines = pending ++ own ++ behind ∧ methodName? (codeOf (own.headD [])) = some name ∧
    (kind.guiMethodName? = some name → findBlock? own 0 = none ∨ drawn) ∧
    isGenerated kind className name (Text.dedent (Text.unlines (pending ++ own)))
      (((findBlock? own 0).map (·.bodyLines own)).getD [[]]) = false

/-- Whether a member is kept as a method. -/
def Member.isMethod (member : Member) : Bool :=
  member.role = .lifecycle || member.role = .custom

variable {kind : ScriptKind} {className : Text} {drawn : Bool} {pending own lines : List Text}
variable {members : List Member} {guiBody? : Option (List Text)}

/-- All methods among some members have a shape of their own. -/
def OwnMethods (kind : ScriptKind) (className : Text) (drawn : Bool) (members : List Member) :
    Prop :=
  ∀ member ∈ members, member.isMethod → member.IsOwnMethod kind className drawn

/-- What is classified as a method to keep has a shape of its own. -/
theorem isOwnMethod_of_classify {role : MemberRole}
    (h : classify kind className drawn pending own = .kept role)
    (hmethod : Member.isMethod ⟨role, pending ++ own⟩) :
    Member.IsOwnMethod kind className drawn ⟨role, pending ++ own⟩ := by
  unfold classify at h
  dsimp only at h
  split at h
  · cases h
    simp [Member.isMethod] at hmethod
  split at h
  · cases h
    simp [Member.isMethod] at hmethod
  rename_i name hname
  refine ⟨pending, own, [], name, (List.append_nil _).symm, hname, ?_, ?_⟩
  all_goals
    cases hblock : findBlock? own 0 with
    | none =>
      rw [hblock] at h
      simp only [Option.map_none] at h
      split at h
      · cases h
      simp_all
    | some block =>
      rw [hblock] at h
      simp only [Option.map_some] at h
      split at h
      · cases h
      split at h
      · cases h
      simp_all

theorem Member.IsOwnMethod.mono {member : Member} {later : Bool}
    (h : member.IsOwnMethod kind className drawn) (hlater : drawn → later) :
    member.IsOwnMethod kind className later := by
  obtain ⟨pending, own, behind, name, hlines, hname, hgui, hshape⟩ := h
  exact ⟨pending, own, behind, name, hlines, hname, fun heq => (hgui heq).imp_right hlater, hshape⟩

/-- Further lines at the end of a member do not change its shape. -/
theorem OwnMethods.attachLines {extra : List Text} (h : OwnMethods kind className drawn members) :
    OwnMethods kind className drawn (attachLines extra members) := by
  unfold EditorScript.attachLines
  split
  · exact h
  cases members with
  | nil =>
    rintro member hmem hmethod
    obtain rfl := List.mem_singleton.mp hmem
    simp [Member.isMethod] at hmethod
  | cons last others =>
    rintro member hmem hmethod
    rcases List.mem_cons.mp hmem with rfl | hmem
    · obtain ⟨pending, own, behind, name, hlines, hrest⟩ := h last (List.mem_cons_self ..) hmethod
      exact ⟨pending, own, behind ++ extra, name, by simp [hlines, List.append_assoc], hrest⟩
    · exact h member (List.mem_cons_of_mem _ hmem) hmethod

/-- Reading the members of a class, methods are kept only if they have a shape of
their own. -/
theorem OwnMethods.membersOf (h : OwnMethods kind className guiBody?.isSome members) :
    OwnMethods kind className
      (membersOf kind className pending members guiBody? lines).2.isSome
      (membersOf kind className pending members guiBody? lines).1 := by
  fun_induction EditorScript.membersOf kind className pending members guiBody? lines with
  | case1 => exact h.attachLines
  | case2 _ _ _ _ _ _ _ ih => exact ih h.attachLines
  | case3 _ _ _ _ _ _ _ _ _ ih => exact ih h
  | case4 _ _ _ _ _ _ _ _ _ _ ih => exact ih h
  | case5 pending members guiBody? line rest _ _ _ _ _ _ own _ role hkept ih =>
    refine ih fun member hmem hmethod => ?_
    rcases List.mem_cons.mp hmem with rfl | hmem
    · exact isOwnMethod_of_classify hkept hmethod
    · exact h member hmem hmethod
  | case6 _ _ _ _ _ _ _ _ _ _ _ _ _ body _ ih =>
    exact ih fun member hmem hmethod => (h.attachLines member hmem hmethod).mono fun _ => rfl
  | case7 _ _ _ _ _ _ _ _ _ _ _ _ _ _ ih => exact ih h.attachLines

namespace Imported

variable {stamp : Stamp} {gate : Gate} {imported : Imported} {body : Text}

/-- A body changes neither the methods of a project nor what tells them. -/
theorem withBody_methods :
    (imported.withBody stamp gate body).project.lifecycleMethods =
        imported.project.lifecycleMethods ∧
      (imported.withBody stamp gate body).project.customMethods = imported.project.customMethods ∧
      (imported.withBody stamp gate body).project.kind = imported.project.kind ∧
      (imported.withBody stamp gate body).project.settings = imported.project.settings := by
  rw [withBody, withRecovered]
  split
  · exact ⟨rfl, rfl, rfl, rfl⟩
  split
  · exact ⟨rfl, rfl, rfl, rfl⟩
  · exact ⟨rfl, rfl, rfl, rfl⟩

variable {path : Text} {outline : Outline} {warnings : List Text}

theorem kind_ofOutline : (ofOutline stamp path outline warnings).project.kind = outline.kind := by
  rw [ofOutline]
  split <;> rfl

theorem settings_ofOutline :
    (ofOutline stamp path outline warnings).project.settings = outline.settings := by
  rw [ofOutline]
  split <;> rfl

end Imported

end EditorScript
