import EditorScript.Proofs.DeclaredNames
import EditorScript.Proofs.OpeningBrace
import EditorScript.Proofs.WindowMembers

/-!
# Members read in their order

Lines of a class are put together from pieces that are read on their own: each piece leaves
its members, whatever starts anew behind it.  Blank lines and markers leave none, and the
lines of a member leave that member.
-/

namespace EditorScript

open Pattern

variable {kind : ScriptKind} {className : Text} {before middle after : Option (List Text)}
  {line : Text} {lines others behind : List Text} {added more : List Member}

/-! ## Lines that begin with a word -/

/-- A line whose code begins with a word. -/
def BeginsWithWord (line : Text) : Prop :=
  ∃ c rest, codeOf line = c :: rest ∧ isWord c

theorem BeginsWithWord.congr {other : Text} (h : BeginsWithWord line)
    (hsame : SameButMargin line other) : BeginsWithWord other := by
  rwa [BeginsWithWord, ← hsame.codeOf_eq]

theorem attributeLine_accepts_of_head {code : Text} (h : ∀ c ∈ code.head?, c ≠ '[') :
    attributeLine.accepts code = false := by
  rw [← Bool.not_eq_true]
  intro haccepts
  obtain ⟨place, hplace⟩ := Option.isSome_iff_exists.mp haccepts
  obtain ⟨later, hreaches, -⟩ := run_sound hplace
  obtain ⟨_, hreaches, -⟩ := hreaches.append
  obtain ⟨_, hreaches, -⟩ := hreaches.append
  obtain ⟨_, hreaches, -⟩ := hreaches.append
  obtain ⟨_, hstart, hopen⟩ := hreaches.append
  cases hstart with
  | check _ =>
    have hcode := hopen.text_eq
    dsimp only at hcode
    rw [hcode] at h
    exact h '[' rfl rfl

theorem BeginsWithWord.startsMember (h : BeginsWithWord line) : StartsMember line := by
  obtain ⟨c, rest, hcode, hword⟩ := h
  have hne := fun d => @ne_of_isWord c d hword
  have hdirective : c ≠ '#' := hne _ (by decide)
  have hcomment : c ≠ '/' := hne _ (by decide)
  obtain ⟨margin, gap, tail, hline, hmargin, -, -⟩ := exists_codeOf line
  have htrim : line.trim = c :: Text.trimRight (rest ++ (gap ++ tail)) := by
    rw [hline, hcode, List.cons_append, Text.trim_append_cons (isBlank_of_isWord hword),
      Text.trimLeft, List.dropWhile_eq_nil_iff.mpr (List.all_eq_true.mp hmargin), List.nil_append]
  constructor
  · rw [hcode]
    exact List.cons_ne_nil _ _
  · rw [hcode]
    simp [Text.startsWith, List.isPrefixOf, hdirective.symm]
  · rw [hcode]
    refine attributeLine_accepts_of_head ?_
    rintro _ ⟨⟩
    exact hne _ (by decide)
  · rw [htrim]
    simp [Text.startsWith, List.isPrefixOf, hcomment.symm]

/-- What stands in front of them does not go on with such lines. -/
theorem BeginsWithWord.startsAnew (h : BeginsWithWord line) (behind : List Text) :
    StartsAnew (codeText .code (line :: behind)) := by
  obtain ⟨c, rest, hcode, hword⟩ := h
  have hplain : [c].all isPlain := by simpa using isPlain_of_isWord hword
  obtain ⟨margin, hmargin, chars, hchars⟩ :=
    lineChars_of_codeOf (hcode.trans (List.singleton_append).symm) hplain
  rw [StartsAnew, codeText_cons, hchars, List.append_assoc, List.append_assoc,
    List.dropWhile_append_of_pos (List.all_eq_true.mp hmargin), List.singleton_append,
    List.dropWhile_cons_of_neg (by simp [isBlank_of_isWord hword])]
  rintro _ ⟨⟩
  exact ⟨ne_of_isWord hword (by decide), ne_of_isWord hword (by decide)⟩

/-- A line without code is passed over. -/
theorem startsAnew_of_codeOf_nil (h : codeOf line = []) :
    StartsAnew (codeText .code (line :: behind)) ↔ StartsAnew (codeText .code behind) := by
  obtain ⟨hblank, hend⟩ := line_of_codeOf_nil h
  rw [StartsAnew, StartsAnew, codeText_cons, hend,
    List.dropWhile_append_of_pos (List.all_eq_true.mp hblank)]

/-! ## Pieces of a class -/

/-- Lines that close their braces and leave some members, the drawing method's body being
known before and after them. -/
structure Adds (kind : ScriptKind) (className : Text) (before after : Option (List Text))
    (lines : List Text) (added : List Member) : Prop where
  nests : Nests 0 lines 0
  return_notMem : ∀ line ∈ lines, '\r' ∉ line
  startsAnew : ∀ {behind : List Text}, StartsAnew (codeText .code behind) →
    StartsAnew (codeText .code (lines ++ behind))
  read : ∀ (members : List Member) {behind : List Text}, StartsAnew (codeText .code behind) →
    membersOf kind className [] members before (lines ++ behind) =
      membersOf kind className [] (added.reverse ++ members) after behind

namespace Adds

theorem nil : Adds kind className before before [] [] :=
  ⟨.nil 0, List.forall_mem_nil _, fun h => h, fun _ _ _ => rfl⟩

theorem append (h : Adds kind className before middle lines added)
    (h' : Adds kind className middle after others more) :
    Adds kind className before after (lines ++ others) (added ++ more) where
  nests := h.nests.append h'.nests
  return_notMem := List.forall_mem_append.mpr ⟨h.return_notMem, h'.return_notMem⟩
  startsAnew hbehind := by
    rw [List.append_assoc]
    exact h.startsAnew (h'.startsAnew hbehind)
  read members _ hbehind := by
    rw [List.append_assoc, h.read members (h'.startsAnew hbehind), h'.read _ hbehind,
      List.reverse_append, List.append_assoc]

/-- Pieces one after the other. -/
theorem flatMap {α : Type} {items : List α} {shown : α → List Text} {read : α → Member}
    (h : ∀ item ∈ items, Adds kind className before before (shown item) [read item]) :
    Adds kind className before before (items.flatMap shown) (items.map read) := by
  induction items with
  | nil => exact .nil
  | cons item rest ih =>
    rw [List.forall_mem_cons] at h
    rw [List.flatMap_cons, List.map_cons, ← List.singleton_append]
    exact h.1.append (ih h.2)

/-- An empty line leaves nothing. -/
theorem blank : Adds kind className before before [[]] [] where
  nests := .blank 0
  return_notMem := by decide
  startsAnew hbehind := startsAnew_blank_cons.mpr hbehind
  read members _ _ := by
    rw [List.singleton_append, membersOf_blank (by decide), attachLines_nil]
    rfl

/-- Neither does a marker. -/
theorem marker (hcode : codeOf line = []) (hmarker : line.trim ∈ generatedMarkers)
    (hreturn : '\r' ∉ line) : Adds kind className before before [line] [] where
  nests := by
    obtain ⟨hblank, hend⟩ := line_of_codeOf_nil hcode
    refine ⟨hend, ?_⟩
    rw [codeText_cons, codeText_nil, List.append_nil]
    exact nesting?_blanks hblank 0
  return_notMem := List.forall_mem_singleton.mpr hreturn
  startsAnew hbehind := (startsAnew_of_codeOf_nil hcode).mpr hbehind
  read members _ _ := by
    rw [List.singleton_append, membersOf_marker hcode hmarker]
    rfl

/-- The lines of a member leave the member. -/
theorem member {role : MemberRole} {own : List Text} (hbegins : BeginsWithWord (own.headD []))
    (hnests : Nests 0 own 0) (hmember : IsMember own) (hreturn : ∀ line ∈ own, '\r' ∉ line)
    (hrole : classify kind className before.isSome [] own = .kept role) :
    Adds kind className before before own [⟨role, own⟩] where
  nests := hnests
  return_notMem := hreturn
  startsAnew _ := by
    cases own with
    | nil => exact absurd rfl hbegins.startsMember.hasCode
    | cons first others => exact hbegins.startsAnew _
  read members behind hbehind := by
    have hend := hmember.memberEnd_eq hbehind
    cases own with
    | nil => exact absurd rfl hbegins.startsMember.hasCode
    | cons first others =>
      have hlast : (first :: others).length - 1 = others.length := rfl
      rw [hlast] at hend
      have hread := @membersOf_member kind className [] members before first others behind
        hbegins.startsMember hend
      rw [hrole] at hread
      exact hread

end Adds

end EditorScript
