import EditorScript.Proofs.Margin
import Mathlib.Data.List.TakeWhile

/-!
# Margins dropped and given back

A fragment without a common margin and without empty lines at its ends gets each of
its lines moved by the same number of blanks when it is written, and loses exactly
those when its margin is dropped again.  So dropping the margin undoes writing at a
margin, and dropping it twice is dropping it once.
-/

namespace EditorScript

/-- Text whose white space is spaces and newlines only. -/
def PlainBlanks (text : Text) : Prop :=
  ∀ c ∈ text, isBlank c → c = ' ' ∨ c = '\n'

instance (text : Text) : Decidable (PlainBlanks text) :=
  inferInstanceAs (Decidable (∀ c ∈ text, isBlank c → c = ' ' ∨ c = '\n'))

theorem PlainBlanks.of_subset {text part : Text} (h : PlainBlanks text) (hsubset : part ⊆ text) :
    PlainBlanks part :=
  fun c hc => h c (hsubset hc)

theorem PlainBlanks.append {first second : Text} (h : PlainBlanks first)
    (h' : PlainBlanks second) : PlainBlanks (first ++ second) :=
  List.forall_mem_append.mpr ⟨h, h'⟩

theorem PlainBlanks.tab_notMem {text : Text} (h : PlainBlanks text) : '\t' ∉ text := fun hmem => by
  rcases h _ hmem (by decide) with heq | heq <;> revert heq <;> decide

theorem PlainBlanks.return_notMem {text : Text} (h : PlainBlanks text) : '\r' ∉ text :=
  fun hmem => by
    rcases h _ hmem (by decide) with heq | heq <;> revert heq <;> decide

namespace Text

/-! ## Characters that stay -/

theorem mem_expandTabsFrom {c : Char} {text : Text} (h : c ∈ text) (hc : c ≠ '\t') (column : Nat) :
    c ∈ expandTabsFrom column text := by
  induction text generalizing column with
  | nil => cases h
  | cons first rest ih =>
    rw [expandTabsFrom]
    rcases List.mem_cons.mp h with rfl | h
    · rw [if_neg hc]
      split <;> exact List.mem_cons_self
    · split
      · exact List.mem_append_right _ (ih h _)
      · split <;> exact List.mem_cons_of_mem _ (ih h _)

theorem mem_dropWhile {accepts : Char → Bool} {c : Char} {text : Text} (h : c ∈ text)
    (hc : accepts c = false) : c ∈ text.dropWhile accepts := by
  rw [← List.takeWhile_append_dropWhile (p := accepts) (l := text)] at h
  rcases List.mem_append.mp h with h | h
  · rw [List.mem_takeWhile_imp h] at hc
    cases hc
  · exact h

theorem mem_removeMargin {c : Char} {line : Text} (h : c ∈ line) (hc : c ≠ ' ') {width : Nat}
    (hwidth : !onlySpaces line → width ≤ margin line) : c ∈ removeMargin width line := by
  unfold removeMargin
  split
  · rename_i hspaces
    exact absurd (by simpa using List.all_eq_true.mp hspaces c h) hc
  · rename_i hspaces
    have hmargin := hwidth (by simpa using hspaces)
    rw [← List.take_append_drop width line] at h
    rcases List.mem_append.mp h with h | h
    · have hstart : line.take width <+: line.takeWhile (· == ' ') := by
        rw [List.prefix_iff_eq_take.mp (List.takeWhile_prefix (· == ' ') (l := line))]
        exact List.take_prefix_take_left hmargin
      exact absurd (by simpa using List.mem_takeWhile_imp (hstart.subset h)) hc
    · exact h

theorem mem_unlines {c : Char} {line : Text} {pieces : List Text} (hc : c ∈ line)
    (hline : line ∈ pieces) : c ∈ unlines pieces := by
  induction pieces with
  | nil => cases hline
  | cons piece rest ih =>
    cases rest with
    | nil =>
      obtain rfl := List.mem_singleton.mp hline
      rwa [unlines_singleton]
    | cons next others =>
      rw [unlines_cons_cons]
      rcases List.mem_cons.mp hline with rfl | hline
      · exact List.mem_append_left _ hc
      · exact List.mem_append_right _ (List.mem_cons_of_mem _ (ih hline))

theorem exists_mem_lines {c : Char} {text : Text} (h : c ∈ text) (hc : c ≠ '\n') :
    ∃ line ∈ text.lines, c ∈ line := by
  by_contra hnone
  rw [← unlines_lines text] at h
  exact notMem_join (by simpa using hc) (by simpa using hnone) h

/-- A fragment keeps every character but white space when its margin is dropped. -/
theorem mem_dedent {c : Char} {text : Text} (h : c ∈ text) (hc : isBlank c = false) :
    c ∈ text.dedent := by
  have hne : ∀ blank, isBlank blank → c ≠ blank := by
    rintro blank hblank rfl
    rw [hblank] at hc
    cases hc
  have hnewline : (c == '\n') = false := beq_eq_false_iff_ne.mpr (hne _ (by decide))
  obtain ⟨line, hline, hmem⟩ := exists_mem_lines (mem_expandTabsFrom h (hne _ (by decide)) 0)
    (hne _ (by decide))
  have hpiece := mem_removeMargin hmem (hne _ (by decide)) fun hspaces =>
    commonMargin_le hline hspaces
  have hjoined := mem_unlines hpiece (List.mem_map_of_mem hline)
  rw [dedent, trimNewlines, dropRightWhile]
  exact List.mem_reverse.mpr (mem_dropWhile (List.mem_reverse.mpr (mem_dropWhile hjoined hnewline))
    hnewline)

/-- What is more than white space stays so without its margin. -/
theorem blank_dedent {text : Text} (h : text.blank = false) : text.dedent.blank = false := by
  rw [blank, List.all_eq_false] at h ⊢
  obtain ⟨c, hmem, hc⟩ := h
  exact ⟨c, mem_dedent hmem (by simpa using hc), hc⟩

/-- Every character of a line stands in its text. -/
theorem subset_of_mem_lines {text line : Text} (h : line ∈ text.lines) : line ⊆ text := by
  intro c hc
  rw [← unlines_lines text]
  exact mem_unlines hc h

/-! ## Margins of lines -/

theorem onlySpaces_spaces_append (count : Nat) (line : Text) :
    onlySpaces (spaces count ++ line) = onlySpaces line := by
  simp [onlySpaces, spaces]

theorem margin_spaces_append (count : Nat) (line : Text) :
    margin (spaces count ++ line) = count + line.margin := by
  induction count with
  | zero => rw [Nat.zero_add]; rfl
  | succ count ih =>
    have hshape : spaces (count + 1) ++ line = ' ' :: (spaces count ++ line) := rfl
    rw [margin] at ih ⊢
    rw [hshape, List.takeWhile_cons_of_pos rfl, List.length_cons, ih, Nat.add_right_comm]

/-- A line with other characters than blanks, its margin cut down. -/
theorem drop_margin {line : Text} {count : Nat} (h : count ≤ line.margin) :
    line.drop count = spaces (line.margin - count) ++ line.drop line.margin := by
  conv_lhs => rw [← spaces_margin_append line]
  rw [spaces, List.drop_append, List.drop_replicate, List.length_replicate,
    Nat.sub_eq_zero_of_le h]
  rfl

theorem onlySpaces_drop {line : Text} {count : Nat} (h : count ≤ line.margin) :
    onlySpaces (line.drop count) = onlySpaces line := by
  rw [drop_margin h, onlySpaces_spaces_append, ← onlySpaces_spaces_append line.margin,
    spaces_margin_append]

theorem margin_drop {line : Text} {count : Nat} (h : count ≤ line.margin) :
    margin (line.drop count) = line.margin - count := by
  have hline := margin_spaces_append line.margin (line.drop line.margin)
  rw [spaces_margin_append] at hline
  rw [drop_margin h, margin_spaces_append]
  omega

/-- Without other white space a blank line holds spaces only. -/
theorem blank_eq_onlySpaces {line : Text} (h : PlainBlanks line) (hline : '\n' ∉ line) :
    line.blank = line.onlySpaces := by
  rw [Bool.eq_iff_iff, Text.blank, onlySpaces, List.all_eq_true, List.all_eq_true]
  refine forall_congr' fun c => forall_congr' fun hc => ⟨fun hblank => ?_, fun hspace => ?_⟩
  · rcases h c hc hblank with rfl | rfl
    · rfl
    · exact absurd hc hline
  · rw [beq_iff_eq.mp hspace]
    exact isBlank_space

/-- Some line stands at the common margin, when there is one to look at. -/
theorem exists_margin_eq {pieces : List Text} {line : Text} (hmem : line ∈ pieces)
    (hline : onlySpaces line = false) :
    ∃ least ∈ pieces, onlySpaces least = false ∧ least.margin = commonMargin pieces := by
  have hne : ((pieces.filter fun line => !onlySpaces line).map margin) ≠ [] := by
    refine List.ne_nil_of_mem (List.mem_map_of_mem (a := line) (List.mem_filter.mpr ⟨hmem, ?_⟩))
    rw [hline]
    rfl
  obtain ⟨least, hleast⟩ := Option.isSome_iff_exists.mp (List.isSome_min?_of_ne_nil hne)
  obtain ⟨found, hfound, rfl⟩ := List.mem_map.mp (List.min?_eq_some_iff.mp hleast).1
  obtain ⟨hfoundMem, hfoundBlank⟩ := List.mem_filter.mp hfound
  refine ⟨found, hfoundMem, by simpa using hfoundBlank, ?_⟩
  rw [commonMargin, hleast]
  rfl

end Text

/-! ## Tight lines -/

open Text

/-- Lines without a common margin and without empty lines at their two ends. -/
structure Tight (pieces : List Text) : Prop where
  spaces : ∀ line ∈ pieces, onlySpaces line → line = []
  margin : ∃ line ∈ pieces, onlySpaces line = false ∧ line.margin = 0
  first : pieces.head? ≠ some []
  last : pieces.getLast? ≠ some []

theorem trimEmpty_eq_self {pieces : List Text} (hfirst : pieces.head? ≠ some [])
    (hlast : pieces.getLast? ≠ some []) : trimEmpty pieces = pieces := by
  have hdrop : ∀ {items : List Text}, items.head? ≠ some [] →
      items.dropWhile (·.isEmpty) = items := by
    intro items hhead
    cases items with
    | nil => rfl
    | cons line rest =>
      refine List.dropWhile_cons_of_neg fun hempty => hhead ?_
      rw [List.isEmpty_iff.mp hempty]
      rfl
  rw [trimEmpty, hdrop hfirst, hdrop (by rwa [List.head?_reverse]), List.reverse_reverse]

/-- What is left without the empty lines at the two ends begins and ends with others. -/
theorem ends_trimEmpty (pieces : List Text) :
    (trimEmpty pieces).head? ≠ some [] ∧ (trimEmpty pieces).getLast? ≠ some [] := by
  have hhead : ∀ items : List Text, (items.dropWhile (·.isEmpty)).head? ≠ some [] := by
    intro items heq
    have hnot := List.head?_dropWhile_not (fun line : Text => line.isEmpty) items
    rw [heq] at hnot
    exact absurd hnot (by decide)
  constructor
  · intro heq
    rw [trimEmpty, List.head?_reverse] at heq
    have hsuffix := List.dropWhile_suffix (fun line : Text => line.isEmpty)
      (l := (pieces.dropWhile (·.isEmpty)).reverse)
    obtain ⟨front, hfront⟩ := hsuffix
    have hends := congrArg List.getLast? hfront
    rw [List.getLast?_append, heq, List.getLast?_reverse] at hends
    exact hhead pieces hends.symm
  · rw [trimEmpty, List.getLast?_reverse]
    exact hhead _

theorem mem_trimEmpty {pieces : List Text} {line : Text} (h : line ∈ pieces) (hne : line ≠ []) :
    line ∈ trimEmpty pieces := by
  have hdrop : ∀ {items : List Text}, line ∈ items → line ∈ items.dropWhile (·.isEmpty) := by
    intro items hmem
    rw [← List.takeWhile_append_dropWhile (p := (·.isEmpty)) (l := items)] at hmem
    rcases List.mem_append.mp hmem with hmem | hmem
    · exact absurd (List.isEmpty_iff.mp (List.mem_takeWhile_imp hmem)) hne
    · exact hmem
  rw [trimEmpty, List.mem_reverse]
  exact hdrop (List.mem_reverse.mpr (hdrop h))

theorem mem_of_mem_trimEmpty {pieces : List Text} {line : Text} (h : line ∈ trimEmpty pieces) :
    line ∈ pieces := by
  rw [trimEmpty, List.mem_reverse] at h
  have hinner := (List.dropWhile_suffix fun line : Text => line.isEmpty).subset h
  exact (List.dropWhile_suffix fun line : Text => line.isEmpty).subset
    (List.mem_reverse.mp hinner)

namespace Text

theorem tab_notMem_unlines {pieces : List Text} (h : ∀ piece ∈ pieces, '\t' ∉ piece) :
    '\t' ∉ unlines pieces :=
  notMem_join (by decide) h

/-- A fragment without its margin has no tabs. -/
theorem tab_notMem_dedent (text : Text) : '\t' ∉ text.dedent := by
  have hjoined : '\t' ∉ unlines (text.expandTabs.lines.map
      (removeMargin (commonMargin text.expandTabs.lines))) := by
    refine tab_notMem_unlines fun piece hpiece hmem => ?_
    obtain ⟨line, hline, rfl⟩ := List.mem_map.mp hpiece
    unfold removeMargin at hmem
    split at hmem
    · cases hmem
    · exact tab_notMem_expandTabsFrom 0 text
        (subset_of_mem_lines hline (List.mem_of_mem_drop hmem))
  intro hmem
  have hinner := List.mem_reverse.mp ((List.dropWhile_sublist _).subset (List.mem_reverse.mp hmem))
  exact hjoined ((List.dropWhile_sublist _).subset hinner)

/-- Tight lines are what is left without their margin. -/
theorem dedent_of_tight {text : Text} (htab : '\t' ∉ text) (h : Tight text.lines) :
    text.dedent = text := by
  obtain ⟨line, hline, hspaces, hmargin⟩ := h.margin
  have hcommon : commonMargin text.lines = 0 := by
    have hle := commonMargin_le hline (by rw [hspaces]; rfl)
    omega
  have hkept : text.lines.map (removeMargin 0) = text.lines := by
    refine (List.map_congr_left fun line hline => ?_).trans (List.map_id _)
    unfold removeMargin
    split
    · rename_i hspaces
      exact (h.spaces line hline hspaces).symm
    · rfl
  rw [← unlines_lines text.dedent, lines_dedent htab, hcommon, hkept,
    trimEmpty_eq_self h.first h.last]
  obtain ⟨first, rest, hfirst⟩ := List.exists_cons_of_ne_nil (lines_ne_nil text)
  rw [hfirst, orBlank_cons, ← hfirst, unlines_lines]

/-- Dropping the margin leaves tight lines, or nothing. -/
theorem tight_dedent {text : Text} (h : '\t' ∉ text) :
    text.dedent.lines = [[]] ∨ Tight text.dedent.lines := by
  rw [lines_dedent h]
  by_cases hall : ∀ line ∈ text.lines, onlySpaces line = true
  · have hnil : trimEmpty (text.lines.map (removeMargin (commonMargin text.lines))) = [] := by
      refine List.eq_nil_iff_forall_not_mem.mpr fun line hline => ?_
      have hempty : ∀ line ∈ text.lines.map (removeMargin (commonMargin text.lines)),
          line = [] := by
        intro line hline
        obtain ⟨other, hother, rfl⟩ := List.mem_map.mp hline
        rw [removeMargin, if_pos (hall other hother)]
      obtain ⟨first, rest, hfirst⟩ := List.exists_cons_of_ne_nil (List.ne_nil_of_mem hline)
      refine (ends_trimEmpty
        (text.lines.map (removeMargin (commonMargin text.lines)))).1 ?_
      rw [hfirst, List.head?_cons,
        hempty first (mem_of_mem_trimEmpty (hfirst ▸ List.mem_cons_self))]
    left
    rw [hnil, orBlank_nil]
  · right
    simp only [not_forall, Bool.not_eq_true] at hall
    obtain ⟨line, hmem, hline⟩ := hall
    obtain ⟨least, hleast, hleastLine, hmargin⟩ := exists_margin_eq hmem hline
    have hkept : removeMargin (commonMargin text.lines) least =
        least.drop (commonMargin text.lines) := by
      rw [removeMargin, hleastLine, if_neg (by decide)]
    have hspaces : onlySpaces (least.drop (commonMargin text.lines)) = false := by
      rw [onlySpaces_drop (Nat.le_of_eq hmargin.symm), hleastLine]
    have hin : least.drop (commonMargin text.lines) ∈
        trimEmpty (text.lines.map (removeMargin (commonMargin text.lines))) := by
      refine mem_trimEmpty (hkept ▸ List.mem_map_of_mem hleast) fun heq => ?_
      rw [heq] at hspaces
      cases hspaces
    have horBlank : orBlank (trimEmpty (text.lines.map (removeMargin (commonMargin text.lines)))) =
        trimEmpty (text.lines.map (removeMargin (commonMargin text.lines))) := by
      obtain ⟨first, rest, hfirst⟩ := List.exists_cons_of_ne_nil (List.ne_nil_of_mem hin)
      rw [hfirst, orBlank_cons]
    obtain ⟨hfirst, hlast⟩ := ends_trimEmpty
      (text.lines.map (removeMargin (commonMargin text.lines)))
    rw [horBlank]
    refine ⟨fun piece hpiece hblank => ?_, ⟨_, hin, hspaces, ?_⟩, hfirst, hlast⟩
    · obtain ⟨other, hother, rfl⟩ := List.mem_map.mp (mem_of_mem_trimEmpty hpiece)
      unfold removeMargin at hblank ⊢
      by_cases hspaces : onlySpaces other
      · rw [if_pos hspaces]
      · rw [if_neg hspaces,
          onlySpaces_drop (commonMargin_le hother (by simpa using hspaces))] at hblank
        exact absurd hblank hspaces
    · rw [margin_drop (Nat.le_of_eq hmargin.symm), hmargin, Nat.sub_self]

/-- Lines moved by the same number of blanks come back when their margin is dropped. -/
theorem dedent_indented {pieces : List Text} (h : pieces = [[]] ∨ Tight pieces)
    (hpieces : ∀ line ∈ pieces, '\n' ∉ line ∧ PlainBlanks line) (count : Nat) :
    dedent (unlines (pieces.map (indentLine count))) = unlines pieces := by
  have hindented : ∀ line ∈ pieces, indentLine count line =
      if onlySpaces line then [] else spaces count ++ line := fun line hline => by
    rw [indentLine, blank_eq_onlySpaces (hpieces line hline).2 (hpieces line hline).1]
  have hlines : (unlines (pieces.map (indentLine count))).lines = pieces.map (indentLine count) := by
    refine lines_unlines_of_noNewline ?_ fun line hline hmem => ?_
    · rcases h with rfl | h
      · simp
      · obtain ⟨line, hline, -⟩ := h.margin
        simpa using List.ne_nil_of_mem hline
    · obtain ⟨other, hother, rfl⟩ := List.mem_map.mp hline
      rw [hindented other hother] at hmem
      split at hmem
      · cases hmem
      · refine (hpieces other hother).1 ?_
        simpa [spaces] using hmem
  have htab : '\t' ∉ unlines (pieces.map (indentLine count)) := by
    refine notMem_join (by decide) fun line hline hmem => ?_
    obtain ⟨other, hother, rfl⟩ := List.mem_map.mp hline
    rw [hindented other hother] at hmem
    split at hmem
    · cases hmem
    · refine (hpieces other hother).2.tab_notMem ?_
      simpa [spaces] using hmem
  rw [← unlines_lines (dedent _), lines_dedent htab, hlines]
  congr 1
  rcases h with rfl | h
  · rfl
  have hmargin : commonMargin (pieces.map (indentLine count)) = count := by
    obtain ⟨line, hline, hspaces, hzero⟩ := h.margin
    have hmem : spaces count ++ line ∈ pieces.map (indentLine count) := by
      refine List.mem_map.mpr ⟨line, hline, ?_⟩
      rw [hindented line hline, hspaces, if_neg (by decide)]
    have hnotSpaces : onlySpaces (spaces count ++ line) = false := by
      rw [onlySpaces_spaces_append, hspaces]
    refine Nat.le_antisymm ?_ ?_
    · refine (commonMargin_le hmem (by rw [hnotSpaces]; rfl)).trans ?_
      rw [margin_spaces_append, hzero, Nat.add_zero]
    · obtain ⟨least, hleast, hleastLine, heq⟩ := exists_margin_eq hmem hnotSpaces
      obtain ⟨other, hother, rfl⟩ := List.mem_map.mp hleast
      rw [← heq]
      rw [hindented other hother] at hleastLine ⊢
      split at hleastLine
      · cases hleastLine
      · rename_i hother'
        rw [if_neg hother', margin_spaces_append]
        exact Nat.le_add_right _ _
  have hback : (pieces.map (indentLine count)).map (removeMargin count) = pieces := by
    rw [List.map_map]
    refine (List.map_congr_left fun line hline => ?_).trans (List.map_id pieces)
    rw [Function.comp, hindented line hline]
    split
    · rename_i hspaces
      rw [h.spaces line hline hspaces]
      rfl
    · rename_i hspaces
      rw [removeMargin, onlySpaces_spaces_append, if_neg hspaces]
      exact List.drop_left' List.length_replicate
  rw [hmargin, hback, trimEmpty_eq_self h.first h.last]
  obtain ⟨line, hline, -⟩ := h.margin
  obtain ⟨first, rest, rfl⟩ := List.exists_cons_of_ne_nil (List.ne_nil_of_mem hline)
  rfl

/-- Dropping the margin brings no white space in. -/
theorem plain_of_mem_dedent {text line : Text} (h : PlainBlanks text)
    (hline : line ∈ text.dedent.lines) : '\n' ∉ line ∧ PlainBlanks line := by
  refine ⟨newline_notMem_of_mem_lines hline, ?_⟩
  rw [lines_dedent h.tab_notMem] at hline
  have hpiece : line = [] ∨ line ∈ trimEmpty
      (text.lines.map (removeMargin (commonMargin text.lines))) := by
    revert hline
    cases trimEmpty (text.lines.map (removeMargin (commonMargin text.lines))) with
    | nil => exact fun hline => .inl (List.mem_singleton.mp hline)
    | cons first rest => exact .inr
  rcases hpiece with rfl | hpiece
  · exact List.forall_mem_nil _
  · obtain ⟨other, hother, rfl⟩ := List.mem_map.mp (mem_of_mem_trimEmpty hpiece)
    refine h.of_subset (List.Subset.trans ?_ (subset_of_mem_lines hother))
    unfold removeMargin
    split
    · exact List.nil_subset _
    · exact List.drop_subset _ _

/-- Neither does writing at a margin. -/
theorem plain_of_mem_reindent {text line : Text} (h : PlainBlanks text) {count : Nat}
    (hline : line ∈ (reindent count text).lines) : PlainBlanks line := by
  rw [lines_reindent] at hline
  obtain ⟨piece, hpiece, rfl⟩ := List.mem_map.mp hline
  have hspaces : PlainBlanks (spaces count) := fun c hc _ => .inl (List.mem_replicate.mp hc).2
  unfold indentLine
  split
  · exact List.forall_mem_nil _
  · exact hspaces.append (plain_of_mem_dedent h hpiece).2

/-- Dropping the margin undoes writing at a margin. -/
theorem dedent_reindent {text : Text} (h : PlainBlanks text) (count : Nat) :
    dedent (reindent count text) = text.dedent := by
  rw [reindent, dedent_indented (tight_dedent h.tab_notMem) (fun line hline =>
    plain_of_mem_dedent h hline), unlines_lines]

/-- Dropping the margin twice is dropping it once. -/
theorem dedent_dedent {text : Text} (h : PlainBlanks text) : text.dedent.dedent = text.dedent := by
  rcases tight_dedent h.tab_notMem with hempty | htight
  · have hnil : text.dedent = [] := by rw [← unlines_lines text.dedent, hempty, unlines_singleton]
    rw [hnil]
    rfl
  · exact dedent_of_tight (tab_notMem_dedent text) htight

/-- A fragment is written alike with and without its own margin. -/
theorem reindent_dedent {text : Text} (h : PlainBlanks text) (count : Nat) :
    reindent count text.dedent = reindent count text := by
  rw [reindent, dedent_dedent h]
  rfl

end Text

end EditorScript
