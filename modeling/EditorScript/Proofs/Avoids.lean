import EditorScript.Proofs.CodeMode
import EditorScript.Proofs.Lines
import Mathlib.Data.List.Infix

/-!
# Words that a text avoids

A written line avoids some words when its pieces do: no word can lie across the
seam of two pieces when one of them has a character there that the words do not
use.  Literals keep words out as their content does, since a word without
backslashes lies between the escapes.
-/

namespace EditorScript

/-- None of the words occurs in the text. -/
def Avoids (words : List Text) (text : Text) : Prop :=
  ∀ word ∈ words, ¬ word <:+: text

instance (words : List Text) (text : Text) : Decidable (Avoids words text) :=
  inferInstanceAs (Decidable (∀ word ∈ words, ¬ word <:+: text))

/-- Words that no literal brings in: they are not empty and use no character that
stands for itself only behind a backslash. -/
def areQuotable (words : List Text) : Bool :=
  words.all fun word =>
    !word.isEmpty && !word.contains '\\' && !word.contains '"' &&
      word.head? != some 'n' && word.head? != some 't'

theorem areQuotable_singleton_iff {word : Text} :
    areQuotable [word] ↔ word ≠ [] ∧ '\\' ∉ word ∧ '"' ∉ word ∧
      word.head? ≠ some 'n' ∧ word.head? ≠ some 't' := by
  simp only [areQuotable, List.all_cons, List.all_nil, Bool.and_true, Bool.and_eq_true,
    Bool.not_eq_true', List.isEmpty_eq_false_iff, List.contains_eq_mem, decide_eq_false_iff_not,
    bne_iff_ne, ne_eq, and_assoc]

/-- A fixed text that no word reaches into from its right. -/
def isFront (words : List Text) (fixed : Text) : Bool :=
  decide (Avoids words fixed) && fixed.getLast?.all (!words.flatten.contains ·)

/-- A fixed text that a word reaches into from neither side. -/
def isSeam (words : List Text) (fixed : Text) : Bool :=
  isFront words fixed && !fixed.isEmpty && fixed.head?.all (!words.flatten.contains ·)

namespace Avoids

variable {words : List Text} {text first second : Text}

theorem of_part (h : Avoids words text) (hinside : first <:+: text) : Avoids words first :=
  fun word hword hoccurs => h word hword (hoccurs.trans hinside)

theorem of_subset {others : List Text} (h : Avoids words text) (hsubset : others ⊆ words) :
    Avoids others text :=
  fun word hword => h word (hsubset hword)

/-- A text without a character that all words use. -/
theorem of_notMem {c : Char} (hwords : ∀ word ∈ words, c ∈ word) (h : c ∉ text) :
    Avoids words text :=
  fun word hword hoccurs => h (hoccurs.subset (hwords word hword))

/-- No word lies across a seam with a foreign character at its left. -/
theorem append_of_last (h : Avoids words first) (h' : Avoids words second)
    (hlast : ∀ c ∈ first.getLast?, c ∉ words.flatten) : Avoids words (first ++ second) := by
  intro word hword hoccurs
  rcases List.infix_append_iff_ne_nil.mp hoccurs with
    hfirst | hsecond | ⟨left, right, hleft, -, rfl, hsuffix, -⟩
  · exact h word hword hfirst
  · exact h' _ hword hsecond
  · obtain ⟨front, rfl⟩ := hsuffix
    obtain ⟨c, hc⟩ := Option.isSome_iff_exists.mp (List.getLast?_isSome.mpr hleft)
    have hmem : c ∈ (left ++ right) := List.mem_append_left _ (List.mem_of_getLast? hc)
    refine hlast c ?_ (List.mem_flatten.mpr ⟨_, hword, hmem⟩)
    rw [List.getLast?_append, hc]
    rfl

/-- No word lies across a seam with a foreign character at its right. -/
theorem append_of_head (h : Avoids words first) (h' : Avoids words second)
    (hhead : ∀ c ∈ second.head?, c ∉ words.flatten) : Avoids words (first ++ second) := by
  intro word hword hoccurs
  rcases List.infix_append_iff_ne_nil.mp hoccurs with
    hfirst | hsecond | ⟨left, right, -, hright, rfl, -, hprefix⟩
  · exact h word hword hfirst
  · exact h' _ hword hsecond
  · obtain ⟨behind, rfl⟩ := hprefix
    obtain ⟨c, others, rfl⟩ := List.exists_cons_of_ne_nil hright
    have hmem : c ∈ left ++ c :: others := by simp
    exact hhead c rfl (List.mem_flatten.mpr ⟨_, hword, hmem⟩)

private theorem notMem_of_all {found : Option Char}
    (h : found.all (!words.flatten.contains ·)) : ∀ c ∈ found, c ∉ words.flatten := by
  rintro c rfl
  simpa using h

/-- Behind a fixed text that no word reaches into from its right. -/
theorem front {fixed : Text} (hfixed : isFront words fixed) (h : Avoids words text) :
    Avoids words (fixed ++ text) := by
  rw [isFront, Bool.and_eq_true, decide_eq_true_eq] at hfixed
  exact hfixed.1.append_of_last h (notMem_of_all hfixed.2)

/-- Around a fixed text that no word reaches into. -/
theorem seam {fixed : Text} (hfixed : isSeam words fixed) (h : Avoids words first)
    (h' : Avoids words second) : Avoids words (first ++ (fixed ++ second)) := by
  rw [isSeam, Bool.and_eq_true, Bool.and_eq_true] at hfixed
  obtain ⟨⟨hfront, hne⟩, hhead⟩ := hfixed
  refine h.append_of_head (h'.front hfront) ?_
  cases fixed with
  | nil => cases hne
  | cons c others => exact notMem_of_all hhead

/-! ## Literals -/

private theorem prefix_of_prefix_escape {word text : Text} (hslash : '\\' ∉ word)
    (h : word <+: escape text) : word <+: text := by
  induction text generalizing word with
  | nil => exact h
  | cons c rest ih =>
    rw [escape_cons] at h
    cases word with
    | nil => exact List.nil_prefix
    | cons d others =>
      rw [List.mem_cons, not_or] at hslash
      unfold escapeChar at h
      split_ifs at h with h1 h2 h3 h4
      all_goals rw [List.cons_append, List.cons_prefix_cons] at h
      · exact absurd h.1.symm hslash.1
      · exact absurd h.1.symm hslash.1
      · exact absurd h.1.symm hslash.1
      · exact absurd h.1.symm hslash.1
      · exact List.cons_prefix_cons.mpr ⟨h.1, ih hslash.2 h.2⟩

private theorem infix_of_infix_escape {word text : Text} (hword : areQuotable [word])
    (h : word <:+: escape text) : word <:+: text := by
  obtain ⟨hne, hslash, hquote, hn, ht⟩ := areQuotable_singleton_iff.mp hword
  obtain ⟨first, others, rfl⟩ := List.exists_cons_of_ne_nil hne
  have hfirst : first ≠ '\\' ∧ first ≠ '"' ∧ first ≠ 'n' ∧ first ≠ 't' := by
    refine ⟨?_, ?_, ?_, ?_⟩
    · exact fun heq => hslash (heq ▸ List.mem_cons_self)
    · exact fun heq => hquote (heq ▸ List.mem_cons_self)
    · simpa using hn
    · simpa using ht
  induction text with
  | nil => exact h
  | cons c rest ih =>
    have hescaped : ∀ {d : Char}, d = '\\' ∨ d = '"' ∨ d = 'n' ∨ d = 't' →
        first :: others <:+: '\\' :: d :: escape rest → first :: others <:+: c :: rest := by
      intro d hd hoccurs
      rcases List.infix_cons_iff.mp hoccurs with hprefix | hoccurs
      · exact absurd (List.cons_prefix_cons.mp hprefix).1 hfirst.1
      rcases List.infix_cons_iff.mp hoccurs with hprefix | hoccurs
      · have heq := (List.cons_prefix_cons.mp hprefix).1
        rcases hd with rfl | rfl | rfl | rfl
        · exact absurd heq hfirst.1
        · exact absurd heq hfirst.2.1
        · exact absurd heq hfirst.2.2.1
        · exact absurd heq hfirst.2.2.2
      · exact List.infix_cons (ih hoccurs)
    have hshape := escape_cons c rest
    unfold escapeChar at hshape
    split_ifs at hshape with h1 h2 h3 h4
    all_goals rw [hshape] at h
    · exact hescaped (.inl rfl) h
    · exact hescaped (.inr (.inl rfl)) h
    · exact hescaped (.inr (.inr (.inl rfl))) h
    · exact hescaped (.inr (.inr (.inr rfl))) h
    · rcases List.infix_cons_iff.mp h with hprefix | hoccurs
      · have heq := List.cons_prefix_cons.mp hprefix
        rw [List.mem_cons, not_or] at hslash
        exact (List.cons_prefix_cons.mpr
          ⟨heq.1, prefix_of_prefix_escape hslash.2 heq.2⟩).isInfix
      · exact List.infix_cons (ih hoccurs)

/-- A literal avoids what its content avoids. -/
theorem quote (hwords : areQuotable words) (h : Avoids words text) :
    Avoids words (quote text) := by
  have hquotable : ∀ word ∈ words, areQuotable [word] := by
    intro word hword
    have hall := List.all_eq_true.mp hwords word hword
    simpa [areQuotable] using hall
  have hescape : Avoids words (escape text) := fun word hword hoccurs =>
    h word hword (infix_of_infix_escape (hquotable word hword) hoccurs)
  have hmark : '"' ∉ words.flatten := by
    intro hmem
    obtain ⟨word, hword, hmem⟩ := List.mem_flatten.mp hmem
    have hall := List.all_eq_true.mp hwords word hword
    simp [hmem] at hall
  have hsingle : Avoids words ['"'] := by
    intro word hword hoccurs
    have hall := List.all_eq_true.mp hwords word hword
    have hsubset := hoccurs.subset
    cases word with
    | nil => simp at hall
    | cons c others =>
      obtain rfl := List.mem_singleton.mp (hsubset List.mem_cons_self)
      simp at hall
  rw [quote_eq, ← List.singleton_append]
  refine hsingle.append_of_last (hescape.append_of_head hsingle ?_) ?_
  · rintro c ⟨⟩
    exact hmark
  · rintro c ⟨⟩
    exact hmark

/-- Texts with commas between them. -/
theorem join {texts : List Text} (hcomma : isSeam words ", ")
    (h : ∀ text ∈ texts, Avoids words text) (hnil : Avoids words []) :
    Avoids words (Text.join ", " texts) := by
  induction texts with
  | nil => exact hnil
  | cons text rest ih =>
    rw [List.forall_mem_cons] at h
    cases rest with
    | nil => simpa using h.1
    | cons next others =>
      rw [Text.join_cons_cons]
      exact h.1.seam hcomma (ih h.2)

end Avoids

end EditorScript
