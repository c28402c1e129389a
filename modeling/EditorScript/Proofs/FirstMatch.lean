import EditorScript.Proofs.CallRun
import EditorScript.Proofs.PatternRun

/-!
# The first match in a text

A search passes over a front of a text when the pattern matches at none of its
places; then it finds what is found behind that front.
-/

namespace EditorScript

namespace Pattern

variable {pattern : Pattern} {before : Option Char} {front rest : Text}

/-- At no place inside `front`, which stands behind `before` and in front of `rest`,
the pattern matches. -/
def Passes (pattern : Pattern) (before : Option Char) : Text → Text → Prop
  | [], _ => True
  | c :: others, rest =>
    pattern.matchAt before (c :: (others ++ rest)) = none ∧ Passes pattern (some c) others rest

theorem getLast?_cons_or (c : Char) (others : Text) (before : Option Char) :
    (c :: others).getLast?.or before = others.getLast?.or (some c) := by
  rw [List.getLast?_cons]
  cases others.getLast? <;> rfl

theorem Passes.append {second : Text} (h : Passes pattern before front (second ++ rest))
    (h' : Passes pattern (front.getLast?.or before) second rest) :
    Passes pattern before (front ++ second) rest := by
  induction front generalizing before with
  | nil => exact h'
  | cons c others ih =>
    obtain ⟨hhere, hothers⟩ := h
    rw [getLast?_cons_or] at h'
    rw [← List.append_assoc] at hhere
    exact ⟨hhere, ih hothers h'⟩

/-- A front is passed over when the pattern matches at none of its ends, whatever
stands before them. -/
theorem passes_of_forall
    (h : ∀ skipped c others, front = skipped ++ c :: others → ∀ before,
      pattern.matchAt before (c :: (others ++ rest)) = none) (before : Option Char) :
    Passes pattern before front rest := by
  induction front generalizing before with
  | nil => trivial
  | cons c others ih =>
    refine ⟨h [] c others rfl before, ih (fun skipped d more heq => ?_) _⟩
    exact h (c :: skipped) d more (by rw [heq]; rfl)

/-- Characters that the pattern does not begin with are passed over. -/
theorem passes_of_notMem {first : Char}
    (hpattern : ∀ c rest before, c ≠ first → pattern.matchAt before (c :: rest) = none)
    (h : first ∉ front) (before : Option Char) : Passes pattern before front rest := by
  refine passes_of_forall (fun skipped c others heq before => hpattern c _ before ?_) before
  rintro rfl
  exact h (heq ▸ List.mem_append_right _ List.mem_cons_self)

/-- A front is passed over that does not hold the word which every match begins with and
ends in a character that the word does not use. -/
theorem passes_of_word {word : Text}
    (hword : ∀ place later, Reaches pattern place later → word <+: place.after)
    (h : ¬ word <:+: front) (hlast : ∀ c ∈ front.getLast?, c ∉ word) (before : Option Char) :
    Passes pattern before front rest := by
  refine passes_of_forall (fun skipped c others heq before => ?_) before
  refine run_eq_none (fun later hlater => ?_) some
  have hprefix : word <+: (c :: others) ++ rest := hword _ _ hlater
  have hsuffix : c :: others <:+ front := ⟨skipped, heq.symm⟩
  rcases Nat.le_total word.length (c :: others).length with hshort | hlong
  · have hinside := List.prefix_of_prefix_length_le hprefix (List.prefix_append _ _) hshort
    exact h (hinside.isInfix.trans hsuffix.isInfix)
  · have hinside := List.prefix_of_prefix_length_le (List.prefix_append _ rest) hprefix hlong
    obtain ⟨last, hmem⟩ := Option.isSome_iff_exists.mp
      (List.getLast?_isSome.mpr (List.cons_ne_nil c others))
    refine hlast last ?_ (hinside.subset (List.mem_of_getLast? hmem))
    rw [heq, List.getLast?_append, hmem]
    rfl

/-- A search finds what is found behind a front that is passed over. -/
theorem searchFrom_append (h : Passes pattern before front rest) :
    pattern.searchFrom before (front ++ rest) =
      (pattern.searchFrom (front.getLast?.or before) rest).map
        fun (skipped, place) => (front ++ skipped, place) := by
  induction front generalizing before with
  | nil =>
    cases hfound : pattern.searchFrom before rest <;> simp [hfound]
  | cons c others ih =>
    obtain ⟨hhere, hothers⟩ := h
    rw [List.cons_append, searchFrom, hhere, ih hothers, getLast?_cons_or]
    simp only [Option.map_map]
    rfl

/-- The first match stands behind a front that is passed over. -/
theorem gives_search? {good : Position → Prop} (h : Passes pattern none front rest)
    (hrest : Gives (pattern.matchAt (front.getLast?.or none) rest) good) :
    Gives (pattern.search? (front ++ rest)) good := by
  obtain ⟨place, hplace, hgood⟩ := hrest
  have hfound : pattern.searchFrom (front.getLast?.or none) rest = some ([], place) := by
    cases rest <;> rw [searchFrom, hplace]
  refine ⟨place, ?_, hgood⟩
  rw [search?, searchFrom_append h, hfound]
  rfl

/-- Nothing is found behind a front that is passed over when nothing is found in the rest. -/
theorem search?_eq_none (h : Passes pattern none front rest)
    (hrest : ∀ before, pattern.searchFrom before rest = none) :
    pattern.search? (front ++ rest) = none := by
  rw [search?, searchFrom_append h, hrest]
  rfl

/-- Nothing is found in a text that does not hold what every match holds. -/
theorem searchFrom_eq_none {pattern : Pattern} {word : Text}
    (hword : ∀ place later, Reaches pattern place later → word <:+: place.after) {text : Text}
    (h : ¬ word <:+: text) (before : Option Char) : pattern.searchFrom before text = none := by
  have hnone : pattern.matchAt before text = none :=
    run_eq_none (fun later hlater => h (hword _ later hlater)) some
  induction text generalizing before with
  | nil => rw [searchFrom, hnone]
  | cons c rest ih =>
    have hrest : ¬ word <:+: rest := fun hinside => h (List.infix_cons hinside)
    have hbehind : pattern.matchAt (some c) rest = none :=
      run_eq_none (fun later hlater => hrest (hword _ later hlater)) some
    rw [searchFrom, hnone]
    simp only [ih hrest (some c) hbehind, Option.map_none]

/-- Inside a line nothing is found that begins at the start of one. -/
theorem passes_line (hstart : ∀ c rest, c ≠ '\n' → pattern.matchAt (some c) rest = none)
    {c : Char} {others : Text}
    (hhere : pattern.matchAt before (c :: (others ++ '\n' :: rest)) = none) (hc : c ≠ '\n')
    (hothers : '\n' ∉ others) :
    Passes pattern before (c :: (others ++ ['\n'])) rest := by
  have hinside : ∀ {others : Text}, '\n' ∉ others → ∀ {c : Char}, c ≠ '\n' →
      Passes pattern (some c) (others ++ ['\n']) rest := by
    intro others hothers
    induction others with
    | nil => exact fun hc => ⟨hstart _ _ hc, trivial⟩
    | cons d more ih =>
      rw [List.mem_cons, not_or] at hothers
      exact fun hc => ⟨hstart _ _ hc, ih hothers.2 (Ne.symm hothers.1)⟩
  refine ⟨?_, hinside hothers hc⟩
  rwa [List.append_assoc]

end Pattern

end EditorScript
