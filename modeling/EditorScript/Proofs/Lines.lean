import EditorScript.Text.Indentation
import Mathlib.Tactic.Common

/-!
# Lines of texts put together

Putting texts together with newlines puts their lines one behind the other, and
trimming newlines at the ends of a text drops its empty lines there.  With this
the lines of a fragment that is moved to another margin are known one by one.
-/

namespace EditorScript

namespace Text

@[simp]
theorem lines_nil : lines [] = [[]] := rfl

@[simp]
theorem lines_newline_cons (text : Text) : lines ('\n' :: text) = [] :: text.lines := by
  simp [lines, piecesAt]

/-- A character other than a newline stands on the first line. -/
theorem lines_cons {c : Char} (hc : c ≠ '\n') {text first : Text} {others : List Text}
    (h : text.lines = first :: others) : lines (c :: text) = (c :: first) :: others := by
  simp only [lines] at h ⊢
  rw [piecesAt, if_neg hc, h]

/-- A newline between two texts keeps their lines apart. -/
theorem lines_append_newline (first second : Text) :
    lines (first ++ '\n' :: second) = first.lines ++ second.lines := by
  induction first with
  | nil => simp
  | cons c rest ih =>
    by_cases hc : c = '\n'
    · subst hc
      simp [ih]
    · obtain ⟨line, others, h⟩ := List.exists_cons_of_ne_nil (lines_ne_nil rest)
      have hrest : lines (rest ++ '\n' :: second) = line :: (others ++ second.lines) := by
        simp [ih, h]
      rw [lines_cons hc h, List.cons_append, lines_cons hc hrest]
      rfl

@[simp]
theorem join_nil (separator : Text) : join separator [] = [] := rfl

@[simp]
theorem join_singleton (separator piece : Text) : join separator [piece] = piece := by
  simp [join]

@[simp]
theorem join_cons_cons (separator piece next : Text) (others : List Text) :
    join separator (piece :: next :: others) =
      piece ++ (separator ++ join separator (next :: others)) := by
  simp [join]

/-- What is put together around one piece. -/
theorem join_append_cons (separator piece : Text) (before behind : List Text) :
    join separator (before ++ piece :: behind) =
      before.flatMap (· ++ separator) ++ (piece ++ behind.flatMap (separator ++ ·)) := by
  induction before with
  | nil =>
    induction behind generalizing piece with
    | nil => simp
    | cons next others ih =>
      simp only [List.nil_append, List.flatMap_nil, List.flatMap_cons] at ih ⊢
      rw [join_cons_cons, ih, List.append_assoc]
  | cons first rest ih =>
    rw [List.flatMap_cons, List.append_assoc, ← ih, List.append_assoc]
    cases rest with
    | nil => rw [List.nil_append, List.cons_append, List.nil_append, join_cons_cons]
    | cons second others => rw [List.cons_append, List.cons_append, join_cons_cons]

theorem notMem_join {c : Char} {separator : Text} {pieces : List Text} (h : c ∉ separator)
    (hpieces : ∀ piece ∈ pieces, c ∉ piece) : c ∉ join separator pieces := by
  induction pieces with
  | nil => exact List.not_mem_nil
  | cons piece rest ih =>
    rw [List.forall_mem_cons] at hpieces
    cases rest with
    | nil => simpa using hpieces.1
    | cons next others =>
      rw [join_cons_cons, List.mem_append, List.mem_append, not_or, not_or]
      exact ⟨hpieces.1, h, ih hpieces.2⟩

@[simp]
theorem unlines_singleton (piece : Text) : unlines [piece] = piece := join_singleton _ _

theorem unlines_cons_cons (piece next : Text) (others : List Text) :
    unlines (piece :: next :: others) = piece ++ '\n' :: unlines (next :: others) := by
  simp [unlines]

/-- Putting texts together puts their lines one behind the other. -/
theorem lines_unlines {pieces : List Text} (h : pieces ≠ []) :
    (unlines pieces).lines = pieces.flatMap lines := by
  induction pieces with
  | nil => exact absurd rfl h
  | cons piece rest ih =>
    cases rest with
    | nil => simp
    | cons next others =>
      rw [unlines_cons_cons, lines_append_newline, ih (by simp)]
      rfl

/-- Lines put together are the lines of the text. -/
theorem lines_unlines_of_noNewline {pieces : List Text} (hne : pieces ≠ [])
    (h : ∀ piece ∈ pieces, '\n' ∉ piece) : (unlines pieces).lines = pieces := by
  rw [lines_unlines hne]
  clear hne
  induction pieces with
  | nil => rfl
  | cons piece rest ih =>
    rw [List.flatMap_cons, lines_eq_singleton (h piece List.mem_cons_self),
      ih fun other hother => h other (List.mem_cons_of_mem _ hother)]
    rfl

theorem unlines_append {first second : List Text} (h : first ≠ []) (h' : second ≠ []) :
    unlines (first ++ second) = unlines first ++ '\n' :: unlines second := by
  induction first with
  | nil => exact absurd rfl h
  | cons piece rest ih =>
    obtain ⟨head, tail, rfl⟩ := List.exists_cons_of_ne_nil h'
    cases rest with
    | nil => simp [unlines_cons_cons]
    | cons next others =>
      have := ih (by simp)
      simp only [List.cons_append] at this ⊢
      rw [unlines_cons_cons, this, unlines_cons_cons]
      simp

/-- The lines of a text, of which there is at least one. -/
def orBlank : List Text → List Text
  | [] => [[]]
  | pieces => pieces

@[simp]
theorem orBlank_nil : orBlank [] = [[]] := rfl

@[simp]
theorem orBlank_cons (line : Text) (others : List Text) :
    orBlank (line :: others) = line :: others := rfl

/-- The lines without empty ones at the two ends. -/
def trimEmpty (pieces : List Text) : List Text :=
  ((pieces.dropWhile (·.isEmpty)).reverse.dropWhile (·.isEmpty)).reverse

theorem lines_dropWhile_newline (text : Text) :
    lines (text.dropWhile (· == '\n')) = orBlank (text.lines.dropWhile (·.isEmpty)) := by
  induction text with
  | nil => rfl
  | cons c rest ih =>
    by_cases hc : c = '\n'
    · subst hc
      simpa using ih
    · obtain ⟨line, others, h⟩ := List.exists_cons_of_ne_nil (lines_ne_nil rest)
      rw [List.dropWhile_cons_of_neg (by simp [hc]), lines_cons hc h,
        List.dropWhile_cons_of_neg (by simp)]
      rfl

/-- Read backwards, the lines come in the opposite order. -/
theorem reverse_unlines (pieces : List Text) :
    (unlines pieces).reverse = unlines (pieces.map List.reverse).reverse := by
  induction pieces with
  | nil => rfl
  | cons piece rest ih =>
    cases rest with
    | nil => simp
    | cons next others =>
      have hne : ((next :: others).map List.reverse).reverse ≠ [] := by simp
      rw [unlines_cons_cons, List.reverse_append, List.reverse_cons, ih,
        List.map_cons (l := next :: others), List.reverse_cons (a := piece.reverse),
        unlines_append hne (by simp)]
      simp only [unlines_singleton, List.append_assoc, List.cons_append, List.nil_append]

theorem lines_reverse (text : Text) :
    lines text.reverse = (text.lines.map List.reverse).reverse := by
  conv_lhs => rw [← unlines_lines text, reverse_unlines]
  apply lines_unlines_of_noNewline
  · simpa using lines_ne_nil text
  · intro piece hpiece
    obtain ⟨line, hline, rfl⟩ := List.mem_map.mp (List.mem_reverse.mp hpiece)
    simpa using newline_notMem_of_mem_lines hline

theorem lines_trimNewlines (text : Text) :
    (trimNewlines text).lines = orBlank (trimEmpty text.lines) := by
  have hfront := lines_dropWhile_newline text
  have hback := lines_dropWhile_newline (List.reverse (text.dropWhile (· == '\n')))
  rw [lines_reverse, hfront] at hback
  rw [trimNewlines, dropRightWhile, lines_reverse, hback, trimEmpty]
  cases text.lines.dropWhile (·.isEmpty) with
  | nil => rfl
  | cons line others =>
    have hmap : ((line :: others).map List.reverse).reverse.dropWhile (·.isEmpty) =
        ((line :: others).reverse.dropWhile (·.isEmpty)).map List.reverse := by
      rw [← List.map_reverse, List.dropWhile_map]
      congr 2
      funext piece
      simp
    rw [orBlank_cons, hmap]
    cases (line :: others).reverse.dropWhile (·.isEmpty) with
    | nil => rfl
    | cons head tail =>
      rw [List.map_cons, orBlank_cons, ← List.map_cons, List.map_map]
      obtain ⟨first, more, hmore⟩ := List.exists_cons_of_ne_nil
        (l := (head :: tail).reverse) (by simp)
      rw [hmore, orBlank_cons, ← hmore]
      simp [Function.comp_def]

/-! ## Line ends -/

/-- A text without carriage returns is left as it is. -/
theorem withoutReturns_eq {text : Text} (h : '\r' ∉ text) : text.withoutReturns = text := by
  fun_induction withoutReturns text with
  | case1 => rfl
  | case2 rest ih => exact absurd List.mem_cons_self h
  | case3 c rest hother ih => rw [ih fun hmem => h (List.mem_cons_of_mem c hmem)]

/-- Line ends are cleaned above a newline and below it on their own. -/
theorem exists_withoutReturns (front : Text) : ∃ kept, ∀ behind,
    withoutReturns (front ++ '\n' :: behind) = kept ++ '\n' :: withoutReturns behind := by
  fun_induction withoutReturns front with
  | case1 => exact ⟨[], fun _ => rfl⟩
  | case2 rest ih =>
    obtain ⟨kept, hkept⟩ := ih
    exact ⟨'\n' :: kept, fun behind => congrArg ('\n' :: ·) (hkept behind)⟩
  | case3 c rest hnext ih =>
    by_cases hreturn : c = '\r' ∧ rest = []
    · obtain ⟨rfl, rfl⟩ := hreturn
      exact ⟨[], fun _ => rfl⟩
    · obtain ⟨kept, hkept⟩ := ih
      refine ⟨c :: kept, fun behind => ?_⟩
      rw [List.cons_append, List.cons_append, ← hkept, withoutReturns]
      rintro others rfl heq
      cases rest with
      | nil => exact hreturn ⟨rfl, rfl⟩
      | cons d more =>
        rw [List.cons_append, List.cons.injEq] at heq
        exact hnext more rfl (by rw [heq.1])

end Text

end EditorScript
