import EditorScript.Proofs.Dedenting

/-!
# Texts moved to the right

Moving the lines of a text to the right leaves its blank lines empty.  Moves add up, and a
text that is put together from others is moved by moving these.
-/

namespace EditorScript

namespace Text

theorem indentLine_of_blank {line : Text} (h : line.blank) (count : Nat) :
    indentLine count line = [] :=
  if_pos h

theorem indentLine_of_visible {line : Text} (h : line.blank = false) (count : Nat) :
    indentLine count line = spaces count ++ line := by
  rw [indentLine, h, if_neg Bool.false_ne_true]

theorem blank_of_onlySpaces {line : Text} (h : line.onlySpaces) : line.blank := by
  rw [onlySpaces, List.all_eq_true] at h
  rw [blank, List.all_eq_true]
  intro c hc
  rw [beq_iff_eq.mp (h c hc)]
  exact isBlank_space

theorem blank_spaces_append (count : Nat) (line : Text) :
    blank (spaces count ++ line) = line.blank := by
  have hspaces : List.all (spaces count) isBlank = true := spaces_all_isBlank count
  rw [blank, List.all_append, hspaces, Bool.true_and]
  rfl

theorem spaces_append_spaces (count more : Nat) :
    spaces count ++ spaces more = spaces (count + more) :=
  List.replicate_append_replicate

theorem indentLine_indentLine (count more : Nat) (line : Text) :
    indentLine count (indentLine more line) = indentLine (count + more) line := by
  cases hblank : line.blank with
  | true => rw [indentLine_of_blank hblank, indentLine_of_blank hblank, indentLine_of_blank rfl]
  | false =>
    have hmoved : blank (spaces more ++ line) = false := by rw [blank_spaces_append, hblank]
    rw [indentLine_of_visible hblank, indentLine_of_visible hblank, indentLine_of_visible hmoved,
      ← List.append_assoc, spaces_append_spaces]

/-- Only a blank line is moved to an empty one. -/
theorem indentLine_eq_nil_iff {count : Nat} {line : Text} :
    indentLine count line = [] ↔ line.blank := by
  refine ⟨fun hnil => ?_, fun hblank => indentLine_of_blank hblank count⟩
  by_contra hvisible
  rw [Bool.not_eq_true] at hvisible
  rw [indentLine_of_visible hvisible, List.append_eq_nil_iff] at hnil
  rw [hnil.2] at hvisible
  cases hvisible

/-- Moves add up. -/
theorem moveRight_moveRight (count more : Nat) (text : Text) :
    moveRight count (moveRight more text) = moveRight (count + more) text := by
  rw [moveRight, lines_moveRight, List.map_map, moveRight]
  congr 2
  funext line
  exact indentLine_indentLine count more line

/-- A fragment is written at a margin further to the right by moving it there. -/
theorem moveRight_reindent (count more : Nat) (text : Text) :
    moveRight count (reindent more text) = reindent (count + more) text :=
  moveRight_moveRight count more text.dedent

/-- A text is moved by moving those it is put together from. -/
theorem moveRight_unlines {texts : List Text} (h : texts ≠ []) (count : Nat) :
    moveRight count (unlines texts) = unlines (texts.map (moveRight count)) := by
  have hmap : texts.map (moveRight count) ≠ [] := by simpa using h
  rw [← unlines_lines (moveRight count (unlines texts)), lines_moveRight, lines_unlines h,
    ← unlines_lines (unlines (texts.map (moveRight count))), lines_unlines hmap,
    List.map_flatMap, List.flatMap_map]
  congr 2
  funext text
  exact (lines_moveRight count text).symm

/-- A line behind a margin gets a wider one. -/
theorem moveRight_line {line : Text} (hvisible : line.blank = false) (hline : '\n' ∉ line)
    (count more : Nat) :
    moveRight count (spaces more ++ line) = spaces (count + more) ++ line := by
  have hbehind : '\n' ∉ spaces more ++ line := by simpa [spaces] using hline
  have hmoved : blank (spaces more ++ line) = false := by rw [blank_spaces_append, hvisible]
  rw [moveRight, lines_eq_singleton hbehind, List.map_singleton, unlines_singleton,
    indentLine_of_visible hmoved, ← List.append_assoc, spaces_append_spaces]

/-- Nothing is left only of a blank line. -/
theorem moveRight_eq_nil_iff {count : Nat} {text : Text} :
    moveRight count text = [] ↔ '\n' ∉ text ∧ text.blank := by
  constructor
  · intro hnil
    have hlines := lines_moveRight count text
    rw [hnil, lines_nil] at hlines
    obtain ⟨line, hline, hempty⟩ := List.map_eq_singleton_iff.mp hlines.symm
    have htext : text = line := by rw [← unlines_lines text, hline, unlines_singleton]
    have hmem : text ∈ text.lines := by rw [hline, htext, List.mem_singleton]
    exact ⟨newline_notMem_of_mem_lines hmem, htext ▸ indentLine_eq_nil_iff.mp hempty⟩
  · rintro ⟨hline, hblank⟩
    rw [moveRight, lines_eq_singleton hline, List.map_singleton, unlines_singleton,
      indentLine_of_blank hblank]

/-- Whether nothing is left does not depend on how far the text is moved. -/
theorem isEmpty_moveRight (count other : Nat) (text : Text) :
    (moveRight count text).isEmpty = (moveRight other text).isEmpty := by
  rw [Bool.eq_iff_iff, List.isEmpty_iff, List.isEmpty_iff, moveRight_eq_nil_iff,
    moveRight_eq_nil_iff]

theorem moveRight_ne_nil {text : Text} (h : text.blank = false) (count : Nat) :
    moveRight count text ≠ [] := by
  rw [Ne, moveRight_eq_nil_iff, h]
  exact fun hblank => Bool.false_ne_true hblank.2

/-- A line of blanks in a moved text is empty. -/
theorem eq_nil_of_mem_moveRight {count : Nat} {text line : Text}
    (hline : line ∈ (moveRight count text).lines) (hblank : line.blank) : line = [] := by
  rw [lines_moveRight] at hline
  obtain ⟨other, -, rfl⟩ := List.mem_map.mp hline
  cases hother : other.blank with
  | true => exact indentLine_of_blank hother count
  | false =>
    rw [indentLine_of_visible hother, blank_spaces_append, hother] at hblank
    cases hblank

theorem tab_notMem_moveRight {text : Text} (h : '\t' ∉ text) (count : Nat) :
    '\t' ∉ moveRight count text := by
  refine tab_notMem_unlines fun piece hpiece hmem => ?_
  obtain ⟨line, hline, rfl⟩ := List.mem_map.mp hpiece
  have hkept : '\t' ∉ line := fun hmem => h (subset_of_mem_lines hline hmem)
  unfold indentLine at hmem
  split at hmem
  · cases hmem
  · exact hkept (by simpa [spaces] using hmem)

theorem tab_notMem_reindent (count : Nat) (text : Text) : '\t' ∉ reindent count text :=
  tab_notMem_moveRight (tab_notMem_dedent text) count

end Text

end EditorScript
