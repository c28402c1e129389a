import EditorScript.Proofs.BlockText
import EditorScript.Proofs.OuterTypes

/-!
# Code around the class

The lines around the class are cut into fragments, and each fragment loses its margin and
the blanks at its ends.  That changes no code: a fragment is read like its lines, in every
mode a line can start in, so also where a cut falls into a comment or a literal.  Code is
lost only with a line that holds one closing brace and stands outside braces, where depth
is counted by reading each line alone.
-/

namespace EditorScript

variable {lines others rest : List Text} {line : Text} {mode : Mode}

/-! ## Lines with the same code -/

/-- Lines that lead from any mode a line can start in to the same mode, with the same solid
code. -/
def SameCode (lines others : List Text) : Prop :=
  ∀ mode : Mode, mode.atLineBreak = mode →
    modeBehind mode lines = modeBehind mode others ∧
      solid (codeText mode lines) = solid (codeText mode others)

namespace SameCode

theorem refl (lines : List Text) : SameCode lines lines :=
  fun _ _ => ⟨rfl, rfl⟩

theorem symm (h : SameCode lines others) : SameCode others lines := fun mode hmode =>
  ⟨(h mode hmode).1.symm, (h mode hmode).2.symm⟩

theorem trans {third : List Text} (h : SameCode lines others) (h' : SameCode others third) :
    SameCode lines third := fun mode hmode =>
  ⟨(h mode hmode).1.trans (h' mode hmode).1, (h mode hmode).2.trans (h' mode hmode).2⟩

theorem append {below below' : List Text} (h : SameCode lines others)
    (h' : SameCode below below') : SameCode (lines ++ below) (others ++ below') := by
  intro mode hmode
  obtain ⟨hend, hcode⟩ := h mode hmode
  obtain ⟨hend', hcode'⟩ := h' _ (modeBehind_atLineBreak hmode lines)
  rw [modeBehind_append, modeBehind_append, codeText_append, codeText_append, solid_append,
    solid_append, ← hend, hcode]
  exact ⟨hend', congrArg _ hcode'⟩

/-- A line with the same code in front of others with the same code. -/
theorem cons {other : Text} (h : SameCode [line] [other]) (h' : SameCode lines others) :
    SameCode (line :: lines) (other :: others) :=
  h.append h'

theorem flatMap {α : Type} {items : List α} {first second : α → List Text}
    (h : ∀ item ∈ items, SameCode (first item) (second item)) :
    SameCode (items.flatMap first) (items.flatMap second) := by
  induction items with
  | nil => exact refl []
  | cons item rest ih =>
    rw [List.forall_mem_cons] at h
    exact h.1.append (ih h.2)

theorem map {moved : Text → Text} (h : ∀ line ∈ lines, SameCode [moved line] [line]) :
    SameCode (lines.map moved) lines := by
  induction lines with
  | nil => exact refl []
  | cons line rest ih =>
    rw [List.forall_mem_cons] at h
    exact h.1.cons (ih h.2)

/-- Two lines are the same code where they are so in every mode. -/
theorem of_line {other : Text} (hend : ∀ mode : Mode, mode.atLineBreak = mode →
      lineEnd mode line = lineEnd mode other)
    (hcode : ∀ mode : Mode, mode.atLineBreak = mode →
      solid (lineChars mode line) = solid (lineChars mode other)) :
    SameCode [line] [other] := by
  intro mode hmode
  rw [modeBehind_cons, modeBehind_cons, codeText_cons, codeText_cons, hend mode hmode,
    solid_append, solid_append, hcode mode hmode]
  exact ⟨rfl, rfl⟩

theorem of_margin {other : Text} (h : SameButMargin line other) : SameCode [line] [other] :=
  of_line (fun _ => h.lineEnd_eq) fun _ => h.solid_lineChars_eq

/-- Blanks in front of a line are no code. -/
theorem blanks_line {blanks : Text} (h : blanks.all isBlank) (line : Text) :
    SameCode [blanks ++ line] [line] := by
  refine of_line (fun mode hmode => lineEnd_blanks hmode h line) fun mode hmode => ?_
  rw [lineChars_blanks hmode h]
  split
  · rw [solid_append, solid_of_blank h, List.nil_append]
  · rfl

/-- An empty line is no code. -/
theorem empty : SameCode [[]] [] :=
  fun _ hmode => ⟨hmode, rfl⟩

end SameCode

/-! ## Blanks along a line -/

/-- What becomes of a mode behind a blank. -/
def Mode.pastBlank (mode : Mode) : Mode := mode.next [] ' ' none

theorem Mode.next_eq_pastBlank {c : Char} (h : isBlank c) (mode : Mode) (passed : Text)
    (following : Option Char) : mode.next passed c following = mode.pastBlank := by
  have hplain : c ≠ '/' ∧ c ≠ '*' ∧ c ≠ '"' ∧ c ≠ '\'' ∧ c ≠ '\\' := by
    refine ⟨?_, ?_, ?_, ?_, ?_⟩ <;> rintro rfl <;> revert h <;> decide
  cases mode <;> simp [next, pastBlank, hplain]

/-- A second blank changes nothing. -/
@[simp]
theorem Mode.pastBlank_pastBlank (mode : Mode) : mode.pastBlank.pastBlank = mode.pastBlank := by
  cases mode <;> rfl

/-! ## Blanks at the end of a line -/

/-- A blank is as good as none behind another character. -/
theorem Mode.next_following {c : Char} (h : isBlank c) (mode : Mode) (passed : Text)
    (before : Char) : mode.next passed before (some c) = mode.next passed before none := by
  have hplain : c ≠ '/' ∧ c ≠ '*' ∧ c ≠ '"' := by
    refine ⟨?_, ?_, ?_⟩ <;> rintro rfl <;> revert h <;> decide
  cases mode <;> simp [next, hplain]

/-- Behind the last character of a line neither the opening of a comment nor a doubled quote
is half read, so a blank there changes nothing for the next line. -/
theorem Mode.atLineBreak_pastBlank_next (mode : Mode) (passed : Text) (c : Char) :
    (mode.next passed c none).pastBlank.atLineBreak = (mode.next passed c none).atLineBreak := by
  cases mode <;> simp only [next] <;> repeat' split
  all_goals simp_all [pastBlank, next, atLineBreak]

theorem Mode.pastBlank_of_atLineBreak {mode : Mode} (h : mode.atLineBreak = mode) :
    mode.pastBlank = mode := by
  cases mode <;> simp_all [pastBlank, next, atLineBreak]

theorem modeAfter_append_blank {c : Char} (h : isBlank c) {mode : Mode} {text : Text}
    (hmode : text = [] → mode.pastBlank.atLineBreak = mode.atLineBreak) (passed : Text) :
    (modeAfter mode passed (text ++ [c])).atLineBreak = (modeAfter mode passed text).atLineBreak ∧
      solidChars mode passed (text ++ [c]) = solidChars mode passed text := by
  induction text generalizing mode passed with
  | nil =>
    rw [List.nil_append, modeAfter, modeAfter, modeAfter, Mode.next_eq_pastBlank h,
      solidChars_cons_blank h]
    exact ⟨hmode rfl, rfl⟩
  | cons d rest ih =>
    have hnext : mode.next passed d (rest ++ [c]).head? = mode.next passed d rest.head? := by
      cases rest with
      | nil => exact Mode.next_following h mode passed d
      | cons => rfl
    have hready : rest = [] → (mode.next passed d rest.head?).pastBlank.atLineBreak =
        (mode.next passed d rest.head?).atLineBreak := by
      rintro rfl
      exact Mode.atLineBreak_pastBlank_next mode passed d
    obtain ⟨hend, hcode⟩ := ih hready (d :: passed)
    rw [List.cons_append, modeAfter, modeAfter, solidChars_cons, solidChars_cons, hnext, hcode]
    exact ⟨hend, rfl⟩

/-- A character at the end of a text stands at the end of its last line. -/
theorem Text.exists_lines_concat {c : Char} (h : c ≠ '\n') (text : Text) :
    ∃ above last, text.lines = above ++ [last] ∧
      Text.lines (text ++ [c]) = above ++ [last ++ [c]] := by
  induction text with
  | nil => exact ⟨[], [], rfl, lines_cons h lines_nil⟩
  | cons d rest ih =>
    obtain ⟨above, last, hlines, hconcat⟩ := ih
    by_cases hd : d = '\n'
    · rw [hd, List.cons_append, lines_newline_cons, lines_newline_cons, hlines, hconcat]
      exact ⟨[] :: above, last, rfl, rfl⟩
    · cases above with
      | nil => exact ⟨[], d :: last, lines_cons hd hlines, lines_cons hd hconcat⟩
      | cons first between =>
        exact ⟨(d :: first) :: between, last, lines_cons hd hlines, lines_cons hd hconcat⟩

namespace SameCode

theorem line_blank {c : Char} (h : isBlank c) (line : Text) : SameCode [line ++ [c]] [line] := by
  have hready : ∀ {mode : Mode}, mode.atLineBreak = mode → line = [] →
      mode.pastBlank.atLineBreak = mode.atLineBreak := fun hmode _ =>
    congrArg _ (Mode.pastBlank_of_atLineBreak hmode)
  exact of_line (fun mode hmode => (modeAfter_append_blank h (hready hmode) []).1)
    fun mode hmode => (modeAfter_append_blank h (hready hmode) []).2

/-! ## Blanks around a text -/

theorem blanks_append {blanks : Text} (h : blanks.all isBlank) (text : Text) :
    SameCode (Text.lines (blanks ++ text)) text.lines := by
  induction blanks with
  | nil => exact refl _
  | cons c rest ih =>
    rw [List.all_cons, Bool.and_eq_true] at h
    refine .trans ?_ (ih h.2)
    by_cases hc : c = '\n'
    · rw [hc, List.cons_append, Text.lines_newline_cons]
      exact empty.append (refl _)
    · obtain ⟨line, below, hlines⟩ :=
        List.exists_cons_of_ne_nil (Text.lines_ne_nil (rest ++ text))
      rw [List.cons_append, Text.lines_cons hc hlines, hlines]
      have hblank : [c].all isBlank := by simpa using h.1
      exact (blanks_line hblank line).cons (refl below)

theorem append_blanks {blanks : Text} (h : blanks.all isBlank) (text : Text) :
    SameCode (Text.lines (text ++ blanks)) text.lines := by
  induction blanks using List.reverseRecOn with
  | nil => rw [List.append_nil]; exact refl _
  | append_singleton rest c ih =>
    rw [List.all_append, Bool.and_eq_true, List.all_cons, List.all_nil, Bool.and_true] at h
    rw [← List.append_assoc]
    refine .trans ?_ (ih h.1)
    by_cases hc : c = '\n'
    · rw [hc, Text.lines_append_newline]
      simpa using (refl (Text.lines (text ++ rest))).append empty
    · obtain ⟨above, last, hlines, hconcat⟩ := Text.exists_lines_concat hc (text ++ rest)
      rw [hconcat, hlines]
      exact (refl above).append (line_blank h.2 last)

/-- Trimming a text at its ends drops no code. -/
theorem of_trimmed {text kept : Text} (front back : Text) (h : text = front ++ (kept ++ back))
    (hfront : front.all isBlank) (hback : back.all isBlank) : SameCode kept.lines text.lines := by
  rw [h]
  exact ((blanks_append hfront _).trans (append_blanks hback kept)).symm

theorem trim (text : Text) : SameCode text.trim.lines text.lines := by
  obtain ⟨front, back, htext, hfront, hback⟩ := Text.exists_trim text
  rw [List.append_assoc] at htext
  exact of_trimmed front back htext (List.all_eq_true.mpr hfront) (List.all_eq_true.mpr hback)

theorem trimNewlines (text : Text) : SameCode text.trimNewlines.lines text.lines := by
  have hblank : ∀ {run : Text}, (∀ c ∈ run, (c == '\n') = true) → run.all isBlank := by
    intro run hrun
    refine List.all_eq_true.mpr fun c hc => ?_
    have hnewline : c = '\n' := by simpa using hrun c hc
    rw [hnewline]
    decide
  have hfront := List.takeWhile_append_dropWhile (p := (· == '\n')) (l := text)
  have hback := List.takeWhile_append_dropWhile (p := (· == '\n'))
    (l := (text.dropWhile (· == '\n')).reverse)
  refine of_trimmed (text.takeWhile (· == '\n'))
    ((text.dropWhile (· == '\n')).reverse.takeWhile (· == '\n')).reverse ?_
    (hblank fun _ => List.mem_takeWhile_imp) ?_
  · conv_lhs => rw [← hfront, ← List.reverse_reverse (text.dropWhile _), ← hback]
    rw [List.reverse_append]
    rfl
  · rw [List.all_reverse]
    exact hblank fun _ => List.mem_takeWhile_imp

end SameCode

/-! ## Tabs -/

/-- A tab is expanded to one blank or more. -/
theorem Text.tabWidth_sub_ne_zero (column : Nat) : tabWidth - column % tabWidth ≠ 0 :=
  Nat.sub_ne_zero_of_lt (Nat.mod_lt _ (by decide))

/-- A run of blanks is read like one blank. -/
theorem modeAfter_run {run : Text} (h : run.all isBlank) (hne : run ≠ []) (mode : Mode)
    (passed text : Text) :
    modeAfter mode passed (run ++ text) =
        modeAfter mode.pastBlank (run.reverse ++ passed) text ∧
      solidChars mode passed (run ++ text) =
        solidChars mode.pastBlank (run.reverse ++ passed) text := by
  induction run generalizing mode passed with
  | nil => exact absurd rfl hne
  | cons c rest ih =>
    rw [List.all_cons, Bool.and_eq_true] at h
    rw [List.cons_append, modeAfter, solidChars_cons_blank h.1, Mode.next_eq_pastBlank h.1]
    cases rest with
    | nil => exact ⟨rfl, rfl⟩
    | cons d others =>
      have hrest := ih h.2 (List.cons_ne_nil _ _) mode.pastBlank (c :: passed)
      rw [Mode.pastBlank_pastBlank] at hrest
      simpa using hrest

theorem Text.head?_expandTabsFrom (column : Nat) (text : Text) :
    (expandTabsFrom column text).head? =
      if text.head? = some '\t' then some ' ' else text.head? := by
  cases text with
  | nil => rfl
  | cons c rest =>
    by_cases hc : c = '\t'
    · obtain ⟨count, hcount⟩ := Nat.exists_eq_succ_of_ne_zero (tabWidth_sub_ne_zero column)
      subst hc
      rw [expandTabsFrom, if_pos rfl, hcount]
      rfl
    · rw [if_neg (by simpa using hc), expandTabsFrom, if_neg hc]
      split <;> rfl

/-- A tab is read like the blanks it becomes, but for one between an `@` and a quote: so many
blanks keep the quote from opening a verbatim literal. -/
theorem modeAfter_expandTabsFrom {text : Text} (column : Nat) (mode : Mode) (passed shown : Text)
    (hfirst : (passed.head? == some '@') = (shown.head? == some '@'))
    (hquote : text.head? = some '"' →
      (passed.take 2).contains '@' = (shown.take 2).contains '@')
    (htab : ¬ "@\t\"".toList <:+: passed.head?.toList ++ text) :
    modeAfter mode shown (Text.expandTabsFrom column text) = modeAfter mode passed text ∧
      solidChars mode shown (Text.expandTabsFrom column text) = solidChars mode passed text := by
  induction text generalizing column mode passed shown with
  | nil => exact ⟨rfl, rfl⟩
  | cons c rest ih =>
    have hbelow : ¬ "@\t\"".toList <:+: (c :: passed).head?.toList ++ rest := fun hoccurs =>
      htab (hoccurs.trans (List.suffix_append passed.head?.toList (c :: rest)).isInfix)
    by_cases hc : c = '\t'
    · subst hc
      obtain ⟨count, hcount⟩ := Nat.exists_eq_succ_of_ne_zero (Text.tabWidth_sub_ne_zero column)
      have hrun : List.replicate (count + 1) ' ' ≠ [] := List.cons_ne_nil _ _
      have hblank : (List.replicate (count + 1) ' ').all isBlank := spaces_all_isBlank _
      have hat : rest.head? = some '"' → (passed.head? == some '@') = false := by
        intro hhead
        obtain ⟨below, rfl⟩ := List.head?_eq_some_iff.mp hhead
        refine Bool.eq_false_iff.mpr fun hpassed => htab ?_
        rw [beq_iff_eq.mp hpassed]
        exact ⟨[], below, rfl⟩
      have hspaces := modeAfter_run hblank hrun mode shown
        (Text.expandTabsFrom (column + (count + 1)) rest)
      have htabbed := modeAfter_run (by decide) (List.cons_ne_nil '\t' []) mode passed rest
      have hshown : rest.head? = some '"' → (('\t' :: passed).take 2).contains '@' =
          ((List.replicate (count + 1) ' ' ++ shown).take 2).contains '@' := by
        intro hhead
        rw [contains_take_two, hat hhead, List.replicate_succ, List.cons_append, contains_take_two]
        cases count with
        | zero =>
          rw [List.replicate_zero, List.nil_append, ← hfirst, hat hhead]
          rfl
        | succ more => rfl
      obtain ⟨hmode, hcode⟩ := ih (column + (count + 1)) mode.pastBlank ('\t' :: passed)
        (List.replicate (count + 1) ' ' ++ shown) rfl hshown hbelow
      rw [Text.expandTabsFrom, if_pos rfl]
      dsimp only
      rw [hcount, hspaces.1, hspaces.2, List.reverse_replicate, hmode, hcode]
      exact ⟨htabbed.1.symm, htabbed.2.symm⟩
    · obtain ⟨later, hlater⟩ : ∃ later, Text.expandTabsFrom column (c :: rest) =
          c :: Text.expandTabsFrom later rest := by
        rw [Text.expandTabsFrom, if_neg hc]
        split
        · exact ⟨0, rfl⟩
        · exact ⟨column + 1, rfl⟩
      have hfollowing : mode.next shown c (Text.expandTabsFrom later rest).head? =
          mode.next passed c rest.head? := by
        rw [Mode.next_passed fun hc => hquote (congrArg some hc), Text.head?_expandTabsFrom]
        split
        · rename_i hhead
          rw [hhead, Mode.next_following isBlank_space, Mode.next_following (by decide)]
        · rfl
      obtain ⟨hmode, hcode⟩ := ih later (mode.next passed c rest.head?) (c :: passed) (c :: shown)
        rfl (fun _ => by rw [contains_take_two, contains_take_two, hfirst]) hbelow
      rw [hlater, modeAfter, modeAfter, solidChars_cons, solidChars_cons, hfollowing, hmode, hcode]
      exact ⟨rfl, rfl⟩

/-- No tab stands between an `@` and a quote. -/
def NoTabbedQuote (line : Text) : Prop := ¬ "@\t\"".toList <:+: line

instance (line : Text) : Decidable (NoTabbedQuote line) :=
  inferInstanceAs (Decidable ¬ "@\t\"".toList <:+: line)

namespace SameCode

theorem expandTabsFrom_line (h : NoTabbedQuote line) (column : Nat) :
    SameCode [Text.expandTabsFrom column line] [line] := by
  have hread := fun mode => modeAfter_expandTabsFrom column mode [] [] rfl (fun _ => rfl) h
  exact of_line (fun mode _ => congrArg Mode.atLineBreak (hread mode).1) fun mode _ =>
    (hread mode).2

end SameCode

/-- The first line of a text is expanded from the column where the text starts, and the others
are expanded from the first column on. -/
theorem Text.lines_expandTabsFrom {text first : Text} {below : List Text}
    (h : text.lines = first :: below) (column : Nat) :
    (expandTabsFrom column text).lines =
      expandTabsFrom column first :: below.map (expandTabsFrom 0) := by
  induction text generalizing first below column with
  | nil =>
    obtain ⟨rfl, rfl⟩ := List.cons.inj h
    rfl
  | cons c rest ih =>
    obtain ⟨line, others, hrest⟩ := List.exists_cons_of_ne_nil (lines_ne_nil rest)
    by_cases hnewline : c = '\n'
    · subst hnewline
      rw [lines_newline_cons] at h
      obtain ⟨rfl, rfl⟩ := List.cons.inj h
      have hexpand : expandTabsFrom column ('\n' :: rest) = '\n' :: expandTabsFrom 0 rest := rfl
      rw [hexpand, lines_newline_cons, ih hrest, hrest]
      rfl
    · rw [lines_cons hnewline hrest] at h
      obtain ⟨rfl, rfl⟩ := List.cons.inj h
      rw [expandTabsFrom, expandTabsFrom]
      split
      · have hspaces : '\n' ∉ List.replicate (tabWidth - column % tabWidth) ' ' := by simp
        exact lines_append_of_noNewline hspaces (ih hrest _)
      · split
        · exact lines_cons hnewline (ih hrest 0)
        · exact lines_cons hnewline (ih hrest (column + 1))

namespace SameCode

theorem expandTabs {text : Text} (h : ∀ line ∈ text.lines, NoTabbedQuote line) :
    SameCode text.expandTabs.lines text.lines := by
  obtain ⟨first, below, hlines⟩ := List.exists_cons_of_ne_nil (Text.lines_ne_nil text)
  rw [hlines, List.forall_mem_cons] at h
  rw [Text.expandTabs, Text.lines_expandTabsFrom hlines, hlines]
  exact (expandTabsFrom_line h.1 0).cons
    (map fun line hline => expandTabsFrom_line (h.2 line hline) 0)

/-- Moving a text to the left margin changes no code. -/
theorem dedent {text : Text} (h : ∀ line ∈ text.lines, NoTabbedQuote line) :
    SameCode text.dedent.lines text.lines := by
  have hmoved : SameCode (text.expandTabs.lines.map
      (Text.removeMargin (Text.commonMargin text.expandTabs.lines))) text.expandTabs.lines :=
    map fun line hline => .symm (of_margin
      (Text.sameButMargin_removeMargin fun hspaces => Text.commonMargin_le hline hspaces))
  refine (trimNewlines _).trans ?_
  rw [Text.lines_unlines_removeMargin]
  exact hmoved.trans (expandTabs h)

end SameCode

/-! ## Fragments -/

/-- A chunk of lines is kept as a fragment with the same code. -/
theorem SameCode.fragmentOf {chunk : List Text}
    (h : ∀ line ∈ chunk, '\n' ∉ line ∧ NoTabbedQuote line) :
    SameCode (fragmentOf chunk).lines chunk := by
  have hlines : SameCode (Text.unlines chunk).lines chunk := by
    by_cases hne : chunk = []
    · rw [hne]
      exact .empty
    · rw [Text.lines_unlines_of_noNewline hne fun line hline => (h line hline).1]
      exact .refl chunk
  refine (SameCode.trim _).trans ((SameCode.dedent fun line hline => ?_).trans hlines)
  by_cases hne : chunk = []
  · rw [hne] at hline
    obtain rfl : line = [] := List.mem_singleton.mp hline
    decide
  · rw [Text.lines_unlines_of_noNewline hne fun line hline => (h line hline).1] at hline
    exact (h line hline).2

/-- Every line is in a chunk, in the order of the lines. -/
theorem flatten_typeChunks (depth : Nat) (current lines : List Text) :
    (typeChunks depth current lines).flatten = current ++ lines := by
  induction lines generalizing depth current with
  | nil => rw [typeChunks, List.flatten_singleton, List.append_nil]
  | cons line rest ih =>
    rw [typeChunks]
    split
    · rw [List.flatten_cons, ih, List.append_assoc, ← List.append_assoc, List.take_append_drop]
      rfl
    · rw [ih, List.append_assoc]
      rfl

/-- Fragments one below the other have the code of all of them, also without the empty ones. -/
theorem SameCode.unlines_fragments (fragments : List Text) :
    SameCode (Text.unlines (fragments.filter (!·.isEmpty))).lines
      (fragments.flatMap Text.lines) := by
  have hkept : SameCode ((fragments.filter (!·.isEmpty)).flatMap Text.lines)
      (fragments.flatMap Text.lines) := by
    induction fragments with
    | nil => exact .refl []
    | cons fragment rest ih =>
      cases fragment with
      | nil => exact (SameCode.empty.append ih.symm).symm
      | cons c text => exact (SameCode.refl (Text.lines (c :: text))).append ih
  by_cases hne : fragments.filter (!·.isEmpty) = []
  · rw [hne] at hkept ⊢
    exact SameCode.empty.trans hkept
  · rwa [Text.lines_unlines hne]

theorem ownLines_sublist (depth : Nat) (lines : List Text) :
    (ownLines depth lines).Sublist lines := by
  induction lines generalizing depth with
  | nil => exact .slnil
  | cons line rest ih =>
    rw [ownLines]
    split
    · exact (ih depth).cons line
    · split
      · exact (ih depth).cons line
      · exact (ih _).cons_cons line

/-- The fragments have the code of the lines that are not dropped. -/
theorem SameCode.splitOuterCode (h : ∀ line ∈ lines, '\n' ∉ line ∧ NoTabbedQuote line) :
    SameCode (Text.unlines (splitOuterCode lines)).lines (ownLines 0 lines) := by
  have hchunks := flatten_typeChunks 0 [] (ownLines 0 lines)
  rw [List.nil_append] at hchunks
  have hlines : ∀ chunk ∈ typeChunks 0 [] (ownLines 0 lines), ∀ line ∈ chunk,
      '\n' ∉ line ∧ NoTabbedQuote line := fun chunk hchunk line hline =>
    h line ((ownLines_sublist 0 lines).subset
      (hchunks ▸ List.mem_flatten.mpr ⟨chunk, hchunk, hline⟩))
  rw [splitOuterCode_eq]
  refine (SameCode.unlines_fragments _).trans ?_
  conv_rhs => rw [← hchunks]
  rw [List.flatMap_map, ← List.flatMap_id]
  exact .flatMap fun chunk hchunk => .fragmentOf (hlines chunk hchunk)

/-! ## Lines that are kept -/

/-- The braces of a text. -/
def bracesOf (text : Text) : Text :=
  text.filter fun c => c == '\x7b' || c == '\x7d'

/-- Each line has the same braces when it is read alone as behind the lines above it: no comment
and no literal that goes on to another line holds or hides a brace. -/
def BracesAlone (mode : Mode) : List Text → Prop
  | [] => True
  | line :: rest =>
    bracesOf (lineChars mode line) = bracesOf (lineChars .code line) ∧
      BracesAlone (lineEnd mode line) rest

instance decidableBracesAlone (mode : Mode) :
    (lines : List Text) → Decidable (BracesAlone mode lines)
  | [] => inferInstanceAs (Decidable True)
  | line :: rest =>
    haveI := decidableBracesAlone (lineEnd mode line) rest
    inferInstanceAs (Decidable (_ ∧ _))

/-- Only braces nest. -/
theorem nesting?_bracesOf (depth : Nat) (text : Text) :
    nesting? depth (bracesOf text) = nesting? depth text := by
  fun_induction nesting? depth text with
  | case1 => rfl
  | case2 depth rest ih => simpa [bracesOf, nesting?] using ih
  | case3 => simp [bracesOf, nesting?]
  | case4 rest hopen outer ih => simpa [bracesOf, nesting?] using ih
  | case5 depth c rest hopen hclose ih => simpa [bracesOf, hopen, hclose] using ih

/-- Where braces nest and each line is read alone as behind the others, no line is dropped. -/
theorem ownLines_eq_self {depth later : Nat} (hbraces : BracesAlone mode lines)
    (hmarkers : ∀ line ∈ lines, line.trim ∉ generatedMarkers)
    (h : nesting? depth (codeText mode lines) = some later) : ownLines depth lines = lines := by
  induction lines generalizing mode depth with
  | nil => rfl
  | cons line rest ih =>
    rw [List.forall_mem_cons] at hmarkers
    rw [codeText_cons, nesting?_append] at h
    obtain ⟨middle, hline, hrest⟩ := Option.bind_eq_some_iff.mp h
    rw [← nesting?_bracesOf, hbraces.1, nesting?_bracesOf] at hline
    rw [ownLines_cons hmarkers.1 hline, ih hbraces.2 hmarkers.2 hrest]

/-- The fragments around the class have the solid code of their lines, one below the other:
where the lines are closed, hold no marker, and no comment and no literal over several lines
has braces that a line by itself shows otherwise. -/
theorem solid_splitOuterCode (hclosed : Nests 0 lines 0)
    (hmarkers : ∀ line ∈ lines, line.trim ∉ generatedMarkers)
    (hlines : ∀ line ∈ lines, '\n' ∉ line) (htabs : ∀ line ∈ lines, NoTabbedQuote line)
    (hbraces : BracesAlone .code lines) :
    solid (codeText .code (Text.unlines (splitOuterCode lines)).lines) =
      solid (codeText .code lines) := by
  have hsame := SameCode.splitOuterCode fun line hline => ⟨hlines line hline, htabs line hline⟩
  rw [ownLines_eq_self hbraces hmarkers hclosed.depth] at hsame
  exact (hsame .code rfl).2

/-- A type with another one in it, a comment and a literal over several lines, and an
attribute above the next type. -/
theorem solid_splitOuterCode_nestedTypes :
    let lines : List Text := ["class A /* one \x7b", "two */ \x7b",
      "\tclass B \x7b string s = @\"one", "two\";", "\t\x7d", "\x7d", "", "[Serializable]",
      "enum C \x7b D \x7d"]
    (Nests 0 lines 0 ∧ (∀ line ∈ lines, line.trim ∉ generatedMarkers) ∧
      (∀ line ∈ lines, '\n' ∉ line) ∧ (∀ line ∈ lines, NoTabbedQuote line) ∧
      BracesAlone .code lines) ∧
    solid (codeText .code (Text.unlines (splitOuterCode lines)).lines) =
      solid (codeText .code lines) := by
  intro lines
  have hclosed : Nests 0 lines 0 := by decide +kernel
  have hmarkers : ∀ line ∈ lines, line.trim ∉ generatedMarkers := by decide +kernel
  have hlines : ∀ line ∈ lines, '\n' ∉ line := by decide +kernel
  have htabs : ∀ line ∈ lines, NoTabbedQuote line := by decide +kernel
  have hbraces : BracesAlone .code lines := by decide +kernel
  exact ⟨⟨hclosed, hmarkers, hlines, htabs, hbraces⟩,
    solid_splitOuterCode hclosed hmarkers hlines htabs hbraces⟩

/-- A brace in a comment closes the type where lines are read alone, and the brace that does
close it is dropped. -/
theorem splitOuterCode_commentedBrace :
    let lines : List Text := ["class A", "\x7b", "/*", "\x7d", "*/", "\x7d"]
    Nests 0 lines 0 ∧ (∀ line ∈ lines, line.trim ∉ generatedMarkers) ∧
      splitOuterCode lines = ["class A\n\x7b\n/*\n\x7d\n*/".toList] ∧
      solid (codeText .code (Text.unlines (splitOuterCode lines)).lines) = "classA\x7b".toList ∧
      solid (codeText .code lines) = "classA\x7b\x7d".toList := by
  decide +kernel

end EditorScript
