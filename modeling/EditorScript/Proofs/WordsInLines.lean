import EditorScript.Proofs.Lines
import EditorScript.Proofs.Trimming
import Mathlib.Data.List.Infix

/-!
# Words in lines

A word without white space does not lie across the end of a line, so it is found in a
text exactly where it is found in one of the lines.  Cutting a text finds the first
place of a word.
-/

namespace EditorScript

section Words

variable {word : Text} (hne : word ≠ []) (hword : ∀ c ∈ word, isBlank c = false)
include hne hword

/-- A word is not found across a blank. -/
theorem infix_append_blank_cons {front rest : Text} {blank : Char} (hblank : isBlank blank)
    (h : word <:+: front ++ blank :: rest) : word <:+: front ∨ word <:+: rest := by
  have hnotMem : blank ∉ word := fun hmem => by
    rw [hword blank hmem] at hblank
    cases hblank
  rcases List.infix_append_iff_ne_nil.mp h with
    hfront | hbehind | ⟨left, right, -, hright, rfl, -, hprefix⟩
  · exact .inl hfront
  · rcases List.infix_cons_iff.mp hbehind with hprefix | hrest
    · obtain ⟨first, others, rfl⟩ := List.exists_cons_of_ne_nil hne
      obtain ⟨rfl, -⟩ := List.cons_prefix_cons.mp hprefix
      exact absurd List.mem_cons_self hnotMem
    · exact .inr hrest
  · obtain ⟨first, others, rfl⟩ := List.exists_cons_of_ne_nil hright
    obtain ⟨rfl, -⟩ := List.cons_prefix_cons.mp hprefix
    exact absurd (List.mem_append_right _ List.mem_cons_self) hnotMem

/-- Blanks at the start of a text hold no part of a word. -/
theorem infix_of_infix_blank_append {blanks text : Text} (hblank : ∀ c ∈ blanks, isBlank c)
    (h : word <:+: blanks ++ text) : word <:+: text := by
  induction blanks with
  | nil => exact h
  | cons c rest ih =>
    rw [List.forall_mem_cons] at hblank
    rcases @infix_append_blank_cons _ hne hword [] _ _ hblank.1 h with hnil | hrest
    · exact absurd (List.infix_nil.mp hnil) hne
    · exact ih hblank.2 hrest

/-- Neither do those at its end. -/
theorem infix_of_infix_append_blank {blanks text : Text} (hblank : ∀ c ∈ blanks, isBlank c)
    (h : word <:+: text ++ blanks) : word <:+: text := by
  cases blanks with
  | nil => rwa [List.append_nil] at h
  | cons c rest =>
    rw [List.forall_mem_cons] at hblank
    rcases infix_append_blank_cons hne hword hblank.1 h with htext | hrest
    · exact htext
    · have hnil := @infix_of_infix_blank_append _ hne hword _ [] hblank.2 (by simpa using hrest)
      exact absurd (List.infix_nil.mp hnil) hne

/-- A word is in a line exactly if it is in the line when that is trimmed. -/
theorem infix_trim_iff {line : Text} : word <:+: line.trim ↔ word <:+: line := by
  obtain ⟨front, back, heq, hfront, hback⟩ := Text.exists_trim line
  refine ⟨fun h => h.trans ⟨front, back, heq.symm⟩, fun h => ?_⟩
  rw [heq] at h
  exact infix_of_infix_blank_append hne hword hfront
    (infix_of_infix_append_blank hne hword hback h)

/-- A word in a text is in one of its lines. -/
theorem exists_infix_of_unlines {pieces : List Text} (h : word <:+: Text.unlines pieces) :
    ∃ piece ∈ pieces, word <:+: piece := by
  induction pieces with
  | nil => exact absurd (List.infix_nil.mp h) hne
  | cons piece rest ih =>
    cases rest with
    | nil => exact ⟨piece, List.mem_singleton_self _, by simpa using h⟩
    | cons next others =>
      rw [Text.unlines_cons_cons] at h
      rcases infix_append_blank_cons hne hword (by decide) h with hpiece | hrest
      · exact ⟨piece, List.mem_cons_self, hpiece⟩
      · obtain ⟨other, hother, hinside⟩ := ih hrest
        exact ⟨other, List.mem_cons_of_mem _ hother, hinside⟩

end Words

/-- Lines are parts of their text. -/
theorem Text.infix_of_mem_lines {text line : Text} (h : line ∈ text.lines) : line <:+: text := by
  obtain ⟨before, behind, hlines⟩ := List.append_of_mem h
  have htext := unlines_lines text
  rw [hlines, unlines, join_append_cons] at htext
  exact ⟨_, _, by rw [← htext, List.append_assoc]⟩

namespace Text

variable {needle text before after : Text}

/-- A text is cut at the first place of a word. -/
theorem cutAt?_eq_some (hne : needle ≠ []) (h : cutAt? needle text = some (before, after)) :
    text = before ++ (needle ++ after) ∧ ¬ needle <:+: before := by
  induction text generalizing before with
  | nil =>
    rw [cutAt?, if_neg hne] at h
    cases h
  | cons c rest ih =>
    rw [cutAt?] at h
    split at h
    · rename_i hstart
      obtain ⟨rfl, rfl⟩ := Prod.mk.inj (Option.some.inj h)
      obtain ⟨behind, hbehind⟩ := List.isPrefixOf_iff_prefix.mp hstart
      refine ⟨?_, fun hinside => hne (List.infix_nil.mp hinside)⟩
      rw [← hbehind, List.drop_left]
      rfl
    · rename_i hstart
      obtain ⟨⟨front, behind⟩, hcut, heq⟩ := Option.map_eq_some_iff.mp h
      obtain ⟨rfl, rfl⟩ := Prod.mk.inj heq
      obtain ⟨hrest, hfirst⟩ := ih hcut
      refine ⟨by rw [hrest]; rfl, fun hinside => ?_⟩
      rcases List.infix_cons_iff.mp hinside with hstarts | hinside
      · refine hstart (List.isPrefixOf_iff_prefix.mpr (hstarts.trans ?_))
        rw [hrest]
        exact List.cons_prefix_cons.mpr ⟨rfl, List.prefix_append _ _⟩
      · exact hfirst hinside

/-- A text that is not cut does not hold the word. -/
theorem notInfix_of_cutAt? (h : cutAt? needle text = none) : ¬ needle <:+: text := by
  induction text with
  | nil =>
    rw [cutAt?] at h
    split at h
    · cases h
    · exact fun hinside => absurd (List.infix_nil.mp hinside) ‹_›
  | cons c rest ih =>
    rw [cutAt?] at h
    split at h
    · cases h
    · rename_i hstart
      intro hinside
      rcases List.infix_cons_iff.mp hinside with hstarts | hinside
      · exact hstart (List.isPrefixOf_iff_prefix.mpr hstarts)
      · exact ih (Option.map_eq_none_iff.mp h) hinside

end Text

end EditorScript
