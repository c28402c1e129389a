import EditorScript.Proofs.OpeningBrace
import EditorScript.Proofs.OtherScripts

/-!
# Guards on a variable

A guard on the variable of a foldout or of a group of tabs is plain text.  So a block that
opens behind the guard is the block of the guarded statement.
-/

namespace EditorScript

open Pattern

/-- A guard as it may be written: white space may stand between its parts. -/
structure IsGuard (keyword : String) (name head : Text) : Prop where
  shape : ∃ first second third, head = keyword.toList ++ (first ++ '(' :: (second ++ (name ++
    (third ++ [')'])))) ∧ first.all isBlank ∧ second.all isBlank ∧ third.all isBlank

namespace Step

/-- What is recognised as a guard begins with one. -/
theorem exists_guard {keyword : String} {name code : Text} {found : Position}
    (h : (guard keyword name).match? code = some found) :
    ∃ head, IsGuard keyword name head ∧ code = head ++ found.after := by
  obtain ⟨later, hreach, hlater⟩ := run_sound h
  obtain rfl := Option.some.inj hlater
  obtain ⟨_, hreach, hclose⟩ := hreach.append
  obtain ⟨_, hreach, hthird⟩ := hreach.append
  obtain ⟨_, hreach, hname⟩ := hreach.append
  obtain ⟨_, hstart, hreach⟩ := hreach.append
  cases hstart
  obtain ⟨_, hreach, hsecond⟩ := hreach.append
  obtain ⟨_, hreach, hopen⟩ := hreach.append
  obtain ⟨_, hkeyword, hfirst⟩ := hreach.append
  obtain ⟨first, hfirstEq, hfirst⟩ := hfirst.blanks_eq
  obtain ⟨second, hsecondEq, hsecond⟩ := hsecond.blanks_eq
  obtain ⟨third, hthirdEq, hthird⟩ := hthird.blanks_eq
  have hcode := hkeyword.text_eq
  rw [hfirstEq, hopen.text_eq, hsecondEq, hname.text_eq, hthirdEq, hclose.text_eq] at hcode
  refine ⟨_, ⟨first, second, third, rfl, List.all_eq_true.mpr hfirst, List.all_eq_true.mpr hsecond,
    List.all_eq_true.mpr hthird⟩, ?_⟩
  simpa using hcode

end Step

namespace IsGuard

variable {keyword : String} {name head : Text} (h : IsGuard keyword name head)
  (hkeyword : ∀ c ∈ keyword.toList, isWord c) (hname : ∀ c ∈ name, isWord c)
include h hkeyword hname

/-- What is solid of a guard. -/
theorem solid_eq : solid head = keyword.toList ++ '(' :: (name ++ [')']) := by
  have hword : ∀ {word : Text}, (∀ c ∈ word, isWord c) → solid word = word := fun hword =>
    List.filter_eq_self.mpr fun c hc => by rw [isBlank_of_isWord (hword c hc)]; rfl
  obtain ⟨first, second, third, rfl, hfirst, hsecond, hthird⟩ := h.shape
  have hopen : ∀ rest, solid ('(' :: rest) = '(' :: solid rest := solid_cons (by decide)
  have hclose : solid [')'] = [')'] := by decide
  simp only [solid_append, hopen, hclose, hword hkeyword, hword hname, solid_of_blank hfirst,
    solid_of_blank hsecond, solid_of_blank hthird, List.nil_append]

theorem all_isPlain : head.all isPlain := by
  have hword : ∀ {word : Text}, (∀ c ∈ word, isWord c) → word.all isPlain := fun hword =>
    List.all_eq_true.mpr fun c hc => isPlain_of_isWord (hword c hc)
  obtain ⟨first, second, third, rfl, hfirst, hsecond, hthird⟩ := h.shape
  simp only [List.all_append, List.all_cons, hword hkeyword, hword hname,
    all_isPlain_of_blank hfirst, all_isPlain_of_blank hsecond, all_isPlain_of_blank hthird]
  decide

theorem brace_notMem : '\x7b' ∉ head := by
  have hsolid : '\x7b' ∉ solid head := by
    have hword : ∀ {word : Text}, (∀ c ∈ word, isWord c) → '\x7b' ∉ word := fun hword hmem =>
      absurd (hword _ hmem) (by decide)
    rw [h.solid_eq hkeyword hname]
    simp [hword hkeyword, hword hname]
  exact fun hmem => hsolid (List.mem_filter.mpr ⟨hmem, by decide⟩)

end IsGuard

namespace Step

/-- A block that opens behind a guard is the block of the guarded statement: nothing but
the guard is in front of its brace. -/
theorem solid_codeToBrace_guard {keyword : String} {name line : Text} {rest : List Text}
    {found : Position} (hkeyword : ∀ c ∈ keyword.toList, isWord c) (hname : ∀ c ∈ name, isWord c)
    (hguard : (guard keyword name).match? (codeOf line) = some found)
    (hopens : opensBlock found.after rest) :
    solid (codeToBrace (line :: rest)) = keyword.toList ++ '(' :: (name ++ [')']) := by
  obtain ⟨head, hhead, hcode⟩ := exists_guard hguard
  rw [← hhead.solid_eq hkeyword hname]
  exact solid_codeToBrace hcode (hhead.all_isPlain hkeyword hname)
    (hhead.brace_notMem hkeyword hname) hopens

end Step

/-! ## The first code -/

/-- Lines without code are skipped. -/
theorem recoverLines_of_firstCode? {lines : List Text} {place : Nat} {code : Text}
    (h : firstCode? lines = some (place, code)) :
    recoverLines lines = recoverLines (lines.drop place) := by
  induction lines generalizing place with
  | nil => cases h
  | cons line rest ih =>
    rw [firstCode?] at h
    split at h
    · rename_i hempty
      obtain ⟨⟨behind, _⟩, hfirst, heq⟩ := Option.map_eq_some_iff.mp h
      obtain ⟨rfl, rfl⟩ := Prod.mk.inj heq
      have hskip : Step.next line rest = .skip rest := by simp only [Step.next, hempty, if_true]
      rw [recoverLines_of_skip hskip, ih hfirst]
      rfl
    · obtain ⟨rfl, rfl⟩ := Prod.mk.inj (Option.some.inj h)
      rfl

/-- The line that holds the first code. -/
theorem drop_of_firstCode? {lines : List Text} {place : Nat} {code : Text}
    (h : firstCode? lines = some (place, code)) :
    ∃ line, lines.drop place = line :: lines.drop (place + 1) ∧ codeOf line = code := by
  obtain ⟨-, -, hcode, -⟩ := codeText_of_firstCode? h
  have hlt := firstCode?_lt h
  rw [List.drop_eq_getElem_cons hlt] at hcode ⊢
  exact ⟨_, rfl, hcode⟩

end EditorScript
