import EditorScript.Proofs.CallRun
import Mathlib.Data.List.TakeWhile

/-!
# Trimmed texts

Trimming drops the white space around a text and nothing else.
-/

namespace EditorScript

theorem inRanges_disjoint {first second : List (Nat × Nat)}
    (h : first.all fun a => second.all fun b => a.2 < b.1 || b.2 < a.1) {code : Nat}
    (hcode : inRanges first code) : inRanges second code = false := by
  rw [← Bool.not_eq_true]
  intro hother
  obtain ⟨a, ha, hina⟩ := List.any_eq_true.mp hcode
  obtain ⟨b, hb, hinb⟩ := List.any_eq_true.mp hother
  have hapart := List.all_eq_true.mp (List.all_eq_true.mp h a ha) b hb
  simp only [Bool.and_eq_true, Bool.or_eq_true, decide_eq_true_eq] at hina hinb hapart
  omega

/-- No word holds white space. -/
theorem isBlank_of_isWord {c : Char} (h : isWord c) : isBlank c = false := by
  rw [← Bool.not_eq_true]
  intro hblank
  by_cases hascii : c.toNat < 128
  · rw [isWord_ascii hascii] at h
    rw [isBlank_of_isNameChar h] at hblank
    cases hblank
  · rw [isWord, if_neg hascii, inRanges_disjoint (by decide +kernel) hblank] at h
    cases h

theorem isWord_of_isBlank {c : Char} (h : isBlank c) : isWord c = false := by
  rw [← Bool.not_eq_true]
  intro hword
  rw [isBlank_of_isWord hword] at h
  cases h

/-- A run of characters of a class ends where another character follows. -/
theorem takeWhile_run {accepts : Char → Bool} {front : Text} (h : ∀ c ∈ front, accepts c)
    (rest : Text) (hrest : ∀ c ∈ rest.head?, accepts c = false) :
    (front ++ rest).takeWhile accepts = front ∧ (front ++ rest).dropWhile accepts = rest := by
  have hstop : rest.takeWhile accepts = [] ∧ rest.dropWhile accepts = rest := by
    cases rest with
    | nil => exact ⟨rfl, rfl⟩
    | cons c others => simp [hrest c rfl]
  rw [List.takeWhile_append_of_pos h, List.dropWhile_append_of_pos h, hstop.1, hstop.2,
    List.append_nil]
  exact ⟨rfl, rfl⟩

namespace Text

theorem trimRight_append {front behind : Text} (h : behind.trimRight ≠ []) :
    trimRight (front ++ behind) = front ++ trimRight behind := by
  have hne : (behind.reverse.dropWhile isBlank).isEmpty = false := by
    rw [List.isEmpty_eq_false_iff]
    simpa [trimRight, dropRightWhile] using h
  simp [trimRight, dropRightWhile, List.dropWhile_append, hne]

theorem trimRight_cons {c : Char} (h : isBlank c = false) (rest : Text) :
    trimRight (c :: rest) = c :: trimRight rest := by
  simp only [trimRight, dropRightWhile, List.reverse_cons, List.dropWhile_append]
  split
  · rename_i hempty
    rw [List.isEmpty_iff.mp hempty]
    simp [h]
  · simp

/-- Trimming leaves a character that is not white space where it is. -/
theorem trim_append_cons {c : Char} (h : isBlank c = false) (front rest : Text) :
    trim (front ++ c :: rest) = front.trimLeft ++ c :: rest.trimRight := by
  have hleft : trimLeft (front ++ c :: rest) = front.trimLeft ++ c :: rest := by
    rw [trimLeft, trimLeft, List.dropWhile_append]
    split
    · rename_i hempty
      rw [List.isEmpty_iff.mp hempty]
      simp [h]
    · rfl
  rw [trim, hleft, trimRight_append (by simp [trimRight_cons h]), trimRight_cons h]

theorem trimRight_append_blank {text blanks : Text} (h : ∀ c ∈ blanks, isBlank c) :
    trimRight (text ++ blanks) = text.trimRight := by
  have hempty : (blanks.reverse.dropWhile isBlank) = [] :=
    List.dropWhile_eq_nil_iff.mpr fun c hc => h c (List.mem_reverse.mp hc)
  simp [trimRight, dropRightWhile, List.dropWhile_append, hempty]

/-- Blanks in front of a text do not count. -/
theorem trim_blank_append {blanks : Text} (h : ∀ c ∈ blanks, isBlank c) (text : Text) :
    trim (blanks ++ text) = text.trim := by
  rw [trim, trimLeft, List.dropWhile_append_of_pos h]
  rfl

/-- Blanks behind a text do not count. -/
theorem trim_append_blank {text blanks : Text} (h : ∀ c ∈ blanks, isBlank c) :
    trim (text ++ blanks) = text.trim := by
  rw [trim, trim, trimLeft, trimLeft, List.dropWhile_append]
  split
  · rename_i hempty
    rw [List.isEmpty_iff.mp hempty, List.dropWhile_eq_nil_iff.mpr h]
  · exact trimRight_append_blank h

theorem exists_trimLeft (text : Text) :
    ∃ blanks, text = blanks ++ text.trimLeft ∧ ∀ c ∈ blanks, isBlank c :=
  ⟨text.takeWhile isBlank, List.takeWhile_append_dropWhile.symm,
    fun _ hc => List.mem_takeWhile_imp hc⟩

theorem exists_trimRight (text : Text) :
    ∃ blanks, text = text.trimRight ++ blanks ∧ ∀ c ∈ blanks, isBlank c := by
  refine ⟨(text.reverse.takeWhile isBlank).reverse, ?_, fun c hc =>
    List.mem_takeWhile_imp (List.mem_reverse.mp hc)⟩
  rw [trimRight, dropRightWhile, ← List.reverse_append,
    List.takeWhile_append_dropWhile, List.reverse_reverse]

@[simp]
theorem trim_trimRight (text : Text) : text.trimRight.trim = text.trim := by
  obtain ⟨blanks, heq, hblank⟩ := exists_trimRight text
  conv_rhs => rw [heq, trim_append_blank hblank]

/-- A text is its trimmed form between white space. -/
theorem exists_trim (text : Text) :
    ∃ front back, text = front ++ text.trim ++ back ∧ (∀ c ∈ front, isBlank c) ∧
      ∀ c ∈ back, isBlank c := by
  obtain ⟨front, hfront, hfrontBlank⟩ := exists_trimLeft text
  obtain ⟨back, hback, hbackBlank⟩ := exists_trimRight text.trimLeft
  exact ⟨front, back, by rw [trim, List.append_assoc, ← hback, ← hfront], hfrontBlank,
    hbackBlank⟩

theorem blank_of_trim_eq_nil {text : Text} (h : text.trim = []) : text.blank := by
  obtain ⟨front, back, heq, hfront, hback⟩ := exists_trim text
  rw [h, List.append_nil] at heq
  rw [heq, blank]
  exact List.all_eq_true.mpr (List.forall_mem_append.mpr ⟨hfront, hback⟩)

theorem mem_of_mem_head?_trimLeft {text : Text} {c : Char} (h : c ∈ text.trimLeft.head?) :
    c ∈ text :=
  (List.dropWhile_suffix isBlank).subset (List.mem_of_mem_head? h)

theorem head?_trimLeft_append {text : Text} {c : Char} (h : text.trimLeft.head? = some c)
    (behind : Text) : (text ++ behind).trimLeft.head? = some c := by
  obtain ⟨rest, hrest⟩ := List.head?_eq_some_iff.mp h
  rw [trimLeft] at hrest
  rw [trimLeft, List.dropWhile_append, hrest]
  rfl

end Text

end EditorScript
