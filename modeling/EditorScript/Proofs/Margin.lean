import EditorScript.Proofs.Lines
import EditorScript.Proofs.Nesting

/-!
# Fragments at another margin

Moving a fragment to another margin changes blanks at the start of its lines and
blank lines only.  Neither matters to the automaton that reads the code, so a
lexically closed fragment stays so at every margin.
-/

namespace EditorScript

/-- Two lines that differ in blanks at their start only, or are both blank. -/
def SameButMargin (line other : Text) : Prop :=
  (∃ m n core, line = Text.spaces m ++ core ∧ other = Text.spaces n ++ core) ∨
    (line.blank ∧ other.blank)

/-- Lines that lead from any mode a line can start in to the same mode, with the
same braces. -/
def SameBraces (lines others : List Text) : Prop :=
  ∀ mode : Mode, mode.atLineBreak = mode →
    modeBehind mode lines = modeBehind mode others ∧
      ∀ depth, nesting? depth (codeText mode lines) = nesting? depth (codeText mode others)

theorem SameBraces.nests_iff {lines others : List Text} (h : SameBraces lines others)
    (depth later : Nat) : Nests depth lines later ↔ Nests depth others later := by
  obtain ⟨hmode, hdepth⟩ := h .code rfl
  exact ⟨fun hn => ⟨hmode ▸ hn.mode, hdepth depth ▸ hn.depth⟩,
    fun hn => ⟨hmode ▸ hn.mode, hdepth depth ▸ hn.depth⟩⟩

theorem SameBraces.refl (lines : List Text) : SameBraces lines lines :=
  fun _ _ => ⟨rfl, fun _ => rfl⟩

theorem SameBraces.trans {first second third : List Text} (h : SameBraces first second)
    (h' : SameBraces second third) : SameBraces first third := fun mode hmode =>
  ⟨(h mode hmode).1.trans (h' mode hmode).1,
    fun depth => ((h mode hmode).2 depth).trans ((h' mode hmode).2 depth)⟩

theorem SameBraces.symm {first second : List Text} (h : SameBraces first second) :
    SameBraces second first := fun mode hmode =>
  ⟨(h mode hmode).1.symm, fun depth => ((h mode hmode).2 depth).symm⟩

theorem Mode.atLineBreak_atLineBreak (mode : Mode) :
    mode.atLineBreak.atLineBreak = mode.atLineBreak := by
  cases mode <;> rfl

theorem lineEnd_atLineBreak (mode : Mode) (line : Text) :
    (lineEnd mode line).atLineBreak = lineEnd mode line :=
  Mode.atLineBreak_atLineBreak _

theorem modeBehind_atLineBreak {mode : Mode} (h : mode.atLineBreak = mode) (lines : List Text) :
    (modeBehind mode lines).atLineBreak = modeBehind mode lines := by
  induction lines generalizing mode with
  | nil => exact h
  | cons line rest ih => exact ih (lineEnd_atLineBreak mode line)

/-- A blank is code in code mode and changes no mode that a line starts in. -/
theorem Mode.next_blank {mode : Mode} (hmode : mode.atLineBreak = mode) {c : Char}
    (hc : isBlank c) (passed : Text) (following : Option Char) :
    mode.next passed c following = mode := by
  have hplain : c ≠ '/' ∧ c ≠ '"' ∧ c ≠ '\'' ∧ c ≠ '*' := by
    refine ⟨?_, ?_, ?_, ?_⟩ <;> rintro rfl <;> revert hc <;> decide
  cases mode <;> simp_all [Mode.next, Mode.atLineBreak]

/-- Characters in front of a piece count only for the `@` among them. -/
private theorem contains_take_append {front passed passed' : Text} (h : '@' ∉ passed)
    (h' : '@' ∉ passed') :
    ((front ++ passed).take 2).contains '@' = ((front ++ passed').take 2).contains '@' := by
  have hne : ∀ {text : Text}, '@' ∉ text → ∀ n, '@' ∉ text.take n :=
    fun htext n hmem => htext (List.mem_of_mem_take hmem)
  match front with
  | [] => simp [hne h, hne h']
  | [a] => simp [hne h, hne h']
  | a :: b :: rest => simp [List.take]

private theorem next_append {front passed passed' : Text} (h : '@' ∉ passed) (h' : '@' ∉ passed')
    (mode : Mode) (c : Char) (following : Option Char) :
    mode.next (front ++ passed) c following = mode.next (front ++ passed') c following := by
  cases mode <;> simp only [Mode.next, contains_take_append h h']

private theorem modeAfter_append_passed {passed passed' : Text} (h : '@' ∉ passed)
    (h' : '@' ∉ passed') (mode : Mode) (front text : Text) :
    modeAfter mode (front ++ passed) text = modeAfter mode (front ++ passed') text := by
  induction text generalizing mode front with
  | nil => rfl
  | cons c rest ih =>
    simp only [modeAfter, next_append h h', ← List.cons_append]
    exact ih _ _

/-- Behind other characters a piece is read in the same way, at columns that are
moved like its first one. -/
private theorem codeColumnsFrom_append_passed {passed passed' : Text} (h : '@' ∉ passed)
    (h' : '@' ∉ passed') (mode : Mode) (front text : Text) (column count : Nat) :
    codeColumnsFrom mode (front ++ passed) (column + count) text =
      (codeColumnsFrom mode (front ++ passed') column text).map fun (i, c) => (i + count, c) := by
  induction text generalizing mode front column with
  | nil => rfl
  | cons c rest ih =>
    have hrest := ih (mode.next (front ++ passed') c rest.head?) (c :: front) (column + 1)
    rw [Nat.add_right_comm] at hrest
    simp only [codeColumnsFrom, next_append h h']
    split
    · exact congrArg ((column + count, c) :: ·) hrest
    · exact hrest

private theorem modeAfter_blanks {mode : Mode} (hmode : mode.atLineBreak = mode) {blanks : Text}
    (hblank : blanks.all isBlank) (passed text : Text) :
    modeAfter mode passed (blanks ++ text) = modeAfter mode (blanks.reverse ++ passed) text := by
  induction blanks generalizing passed with
  | nil => rfl
  | cons c rest ih =>
    simp only [List.all_cons, Bool.and_eq_true] at hblank
    simp [modeAfter, Mode.next_blank hmode hblank.1, ih hblank.2]

private theorem codeColumnsFrom_blanks {mode : Mode} (hmode : mode.atLineBreak = mode)
    {blanks : Text} (hblank : blanks.all isBlank) (passed text : Text) (column : Nat) :
    codeColumnsFrom mode passed column (blanks ++ text) =
      (if mode = .code then (blanks.zipIdx column).map fun (c, i) => (i, c) else []) ++
        codeColumnsFrom mode (blanks.reverse ++ passed) (column + blanks.length) text := by
  induction blanks generalizing passed column with
  | nil => simp
  | cons c rest ih =>
    simp only [List.all_cons, Bool.and_eq_true] at hblank
    simp only [List.cons_append, codeColumnsFrom, Mode.next_blank hmode hblank.1, and_self]
    split <;> simp_all [Nat.add_comm 1, Nat.add_assoc]

theorem at_notMem_of_blank {blanks : Text} (h : blanks.all isBlank) : '@' ∉ blanks := by
  intro hmem
  have := List.all_eq_true.mp h _ hmem
  revert this
  decide

/-- Blanks in front of a line do not change the mode behind it. -/
theorem lineEnd_blanks {mode : Mode} (hmode : mode.atLineBreak = mode) {blanks : Text}
    (hblank : blanks.all isBlank) (line : Text) :
    lineEnd mode (blanks ++ line) = lineEnd mode line := by
  have hat : '@' ∉ blanks.reverse := by simpa using at_notMem_of_blank hblank
  rw [lineEnd, lineEnd, modeAfter_blanks hmode hblank, List.append_nil]
  exact congrArg Mode.atLineBreak
    (modeAfter_append_passed hat List.not_mem_nil mode [] line)

/-- Blanks in front of a line are code where the line starts in code, and move the
columns behind them. -/
theorem codeColumns_blanks {mode : Mode} (hmode : mode.atLineBreak = mode) {blanks : Text}
    (hblank : blanks.all isBlank) (line : Text) :
    codeColumns mode (blanks ++ line) =
      (if mode = .code then blanks.zipIdx.map fun (c, i) => (i, c) else []) ++
        (codeColumns mode line).map fun (i, c) => (i + blanks.length, c) := by
  have hat : '@' ∉ blanks.reverse := by simpa using at_notMem_of_blank hblank
  rw [codeColumns, codeColumnsFrom_blanks hmode hblank, List.append_nil]
  exact congrArg₂ (· ++ ·) rfl
    (codeColumnsFrom_append_passed hat List.not_mem_nil mode [] line 0 blanks.length)

/-- Blanks in front of a line are code where the line starts in code. -/
theorem lineChars_blanks {mode : Mode} (hmode : mode.atLineBreak = mode) {blanks : Text}
    (hblank : blanks.all isBlank) (line : Text) :
    lineChars mode (blanks ++ line) =
      (if mode = .code then blanks else []) ++ lineChars mode line := by
  rw [lineChars, codeColumns_blanks hmode hblank]
  split <;> simp [lineChars, Function.comp_def]

theorem nesting?_blanks {blanks : Text} (h : blanks.all isBlank) (depth : Nat) :
    nesting? depth blanks = some depth := by
  refine nesting?_of_noBrace (fun c hc => ⟨?_, ?_⟩) depth <;> rintro rfl <;>
    exact absurd (List.all_eq_true.mp h _ hc) (by decide)

theorem nesting?_lineChars_blanks {mode : Mode} (hmode : mode.atLineBreak = mode) {blanks : Text}
    (hblank : blanks.all isBlank) (line : Text) (depth : Nat) :
    nesting? depth (lineChars mode (blanks ++ line)) = nesting? depth (lineChars mode line) := by
  rw [lineChars_blanks hmode hblank]
  split
  · rw [nesting?_append, nesting?_blanks hblank]
    rfl
  · rfl

theorem isBlank_space : isBlank ' ' = true := by decide

theorem spaces_all_isBlank (count : Nat) : (Text.spaces count).all isBlank := by
  simp [Text.spaces, isBlank_space]

theorem SameButMargin.lineEnd_eq {line other : Text} (h : SameButMargin line other) {mode : Mode}
    (hmode : mode.atLineBreak = mode) : lineEnd mode line = lineEnd mode other := by
  obtain ⟨m, n, core, rfl, rfl⟩ | ⟨hline, hother⟩ := h
  · rw [lineEnd_blanks hmode (spaces_all_isBlank m), lineEnd_blanks hmode (spaces_all_isBlank n)]
  · have h1 := lineEnd_blanks hmode hline []
    have h2 := lineEnd_blanks hmode hother []
    rw [List.append_nil] at h1 h2
    rw [h1, h2]

theorem SameButMargin.nesting?_eq {line other : Text} (h : SameButMargin line other) {mode : Mode}
    (hmode : mode.atLineBreak = mode) (depth : Nat) :
    nesting? depth (lineChars mode line) = nesting? depth (lineChars mode other) := by
  obtain ⟨m, n, core, rfl, rfl⟩ | ⟨hline, hother⟩ := h
  · rw [nesting?_lineChars_blanks hmode (spaces_all_isBlank m),
      nesting?_lineChars_blanks hmode (spaces_all_isBlank n)]
  · have h1 := nesting?_lineChars_blanks hmode hline [] depth
    have h2 := nesting?_lineChars_blanks hmode hother [] depth
    rw [List.append_nil] at h1 h2
    rw [h1, h2]

/-- Lines that are moved to other margins have the same braces. -/
theorem SameBraces.map {lines : List Text} {moved : Text → Text}
    (h : ∀ line ∈ lines, SameButMargin line (moved line)) :
    SameBraces (lines.map moved) lines := by
  induction lines with
  | nil => exact .refl []
  | cons line rest ih =>
    intro mode hmode
    have hline := h line List.mem_cons_self
    have hend := hline.lineEnd_eq hmode
    obtain ⟨ihmode, ihdepth⟩ := ih (fun other hother => h other (List.mem_cons_of_mem _ hother)) _
      (lineEnd_atLineBreak mode line)
    rw [List.map_cons]
    refine ⟨by rw [modeBehind_cons, modeBehind_cons, ← hend, ihmode], fun depth => ?_⟩
    rw [codeText_cons, codeText_cons, nesting?_append, nesting?_append, ← hline.nesting?_eq hmode,
      ← hend]
    exact congrArg _ (funext ihdepth)

/-- An empty line more or less makes no difference. -/
theorem sameBraces_blank_cons (lines : List Text) : SameBraces ([] :: lines) lines := by
  intro mode hmode
  have hend : lineEnd mode [] = mode := hmode
  refine ⟨by rw [modeBehind_cons, hend], fun depth => ?_⟩
  rw [codeText_cons, hend]
  rfl

theorem SameBraces.append_left (front : List Text) {lines others : List Text}
    (h : SameBraces lines others) : SameBraces (front ++ lines) (front ++ others) := by
  intro mode hmode
  obtain ⟨hm, hd⟩ := h _ (modeBehind_atLineBreak hmode front)
  refine ⟨by rw [modeBehind_append, modeBehind_append, hm], fun depth => ?_⟩
  rw [codeText_append, codeText_append, nesting?_append, nesting?_append]
  exact congrArg _ (funext hd)

theorem sameBraces_append_blank (lines : List Text) : SameBraces (lines ++ [[]]) lines := by
  simpa using SameBraces.append_left lines (sameBraces_blank_cons [])

theorem sameBraces_dropWhile (lines : List Text) :
    SameBraces (lines.dropWhile (·.isEmpty)) lines := by
  induction lines with
  | nil => exact .refl []
  | cons line rest ih =>
    cases line with
    | nil => simpa using ih.trans (sameBraces_blank_cons rest).symm
    | cons c line =>
      rw [List.dropWhile_cons_of_neg (by simp)]
      exact .refl _

theorem sameBraces_dropRightWhile (lines : List Text) :
    SameBraces (lines.dropWhile (·.isEmpty)).reverse lines.reverse := by
  induction lines with
  | nil => exact .refl []
  | cons line rest ih =>
    cases line with
    | nil =>
      rw [List.reverse_cons]
      simpa using ih.trans (sameBraces_append_blank rest.reverse).symm
    | cons c line =>
      rw [List.dropWhile_cons_of_neg (by simp)]
      exact .refl _

/-- Empty lines at the ends make no difference. -/
theorem sameBraces_orBlank_trimEmpty (lines : List Text) :
    SameBraces (Text.orBlank (Text.trimEmpty lines)) lines := by
  have htrim : SameBraces (Text.trimEmpty lines) lines := by
    refine (sameBraces_dropRightWhile _).trans ?_
    rw [List.reverse_reverse]
    exact sameBraces_dropWhile lines
  cases h : Text.trimEmpty lines with
  | nil =>
    rw [h] at htrim
    exact (sameBraces_blank_cons []).trans htrim
  | cons line others =>
    rw [h] at htrim
    exact htrim

namespace Text

/-- A line is its margin and what stands behind it. -/
theorem spaces_margin_append (line : Text) :
    spaces line.margin ++ line.drop line.margin = line := by
  induction line with
  | nil => rfl
  | cons c rest ih =>
    by_cases hc : c = ' '
    · subst hc
      simpa [margin, spaces, List.replicate_succ] using ih
    · simp [margin, spaces, hc]

theorem sameButMargin_removeMargin {width : Nat} {line : Text}
    (h : !onlySpaces line → width ≤ line.margin) :
    SameButMargin line (removeMargin width line) := by
  unfold removeMargin
  split
  · rename_i hspaces
    refine .inr ⟨?_, rfl⟩
    refine List.all_eq_true.mpr fun c hc => ?_
    have : c = ' ' := by simpa using List.all_eq_true.mp hspaces c hc
    exact this ▸ isBlank_space
  · rename_i hspaces
    have hle := h (by simpa using hspaces)
    refine .inl ⟨line.margin, line.margin - width, line.drop line.margin,
      (spaces_margin_append line).symm, ?_⟩
    conv_lhs => rw [← spaces_margin_append line]
    rw [spaces, List.drop_append, List.drop_replicate, List.length_replicate,
      Nat.sub_eq_zero_of_le hle]
    rfl

theorem commonMargin_le {pieces : List Text} {line : Text} (hmem : line ∈ pieces)
    (h : !onlySpaces line) : commonMargin pieces ≤ line.margin := by
  have hin : line.margin ∈ (pieces.filter fun line => !onlySpaces line).map margin :=
    List.mem_map_of_mem (List.mem_filter.mpr ⟨hmem, h⟩)
  unfold commonMargin
  cases hmin : ((pieces.filter fun line => !onlySpaces line).map margin).min? with
  | none => simp
  | some least => simpa using (List.min?_eq_some_iff.mp hmin).2 _ hin

/-- Lines without their margin are lines. -/
theorem lines_unlines_removeMargin (width : Nat) (text : Text) :
    (unlines (text.lines.map (removeMargin width))).lines =
      text.lines.map (removeMargin width) := by
  refine lines_unlines_of_noNewline (by simpa using lines_ne_nil text) fun piece hpiece hmem => ?_
  obtain ⟨line, hline, rfl⟩ := List.mem_map.mp hpiece
  refine newline_notMem_of_mem_lines hline ?_
  unfold removeMargin at hmem
  split at hmem
  · simp at hmem
  · exact List.mem_of_mem_drop hmem

/-- Without tabs a fragment keeps its lines but for their margins. -/
theorem lines_dedent {text : Text} (h : '\t' ∉ text) :
    text.dedent.lines =
      orBlank (trimEmpty (text.lines.map (removeMargin (commonMargin text.lines)))) := by
  have hexpand : text.expandTabs = text := expandTabsFrom_eq_self h 0
  rw [dedent, hexpand, lines_trimNewlines, lines_unlines_removeMargin]

theorem sameBraces_dedent {text : Text} (h : '\t' ∉ text) :
    SameBraces text.dedent.lines text.lines := by
  rw [lines_dedent h]
  exact (sameBraces_orBlank_trimEmpty _).trans (.map fun line hline =>
    sameButMargin_removeMargin fun hspaces => commonMargin_le hline hspaces)

theorem sameButMargin_indentLine (count : Nat) (line : Text) :
    SameButMargin line (indentLine count line) := by
  unfold indentLine
  split
  · rename_i hblank
    exact .inr ⟨hblank, rfl⟩
  · exact .inl ⟨0, count, line, rfl, rfl⟩

/-- The text with each of its lines moved behind a margin of `count` blanks. -/
def moveRight (count : Nat) (text : Text) : Text :=
  unlines (text.lines.map (indentLine count))

theorem lines_moveRight (count : Nat) (text : Text) :
    (moveRight count text).lines = text.lines.map (indentLine count) := by
  rw [moveRight, lines_unlines_of_noNewline]
  · simpa using lines_ne_nil text
  · intro piece hpiece hmem
    obtain ⟨line, hline, rfl⟩ := List.mem_map.mp hpiece
    refine newline_notMem_of_mem_lines hline ?_
    unfold indentLine at hmem
    split at hmem
    · simp at hmem
    · simpa [spaces] using hmem

/-- A fragment is written at a margin by moving what is left without its own. -/
theorem reindent_eq_moveRight (count : Nat) (text : Text) :
    reindent count text = moveRight count text.dedent :=
  rfl

theorem lines_reindent (count : Nat) (text : Text) :
    (reindent count text).lines = text.dedent.lines.map (indentLine count) :=
  lines_moveRight count text.dedent

/-- A fragment without tabs has the same braces at every margin. -/
theorem sameBraces_reindent (count : Nat) {text : Text} (h : '\t' ∉ text) :
    SameBraces (reindent count text).lines text.lines := by
  rw [lines_reindent]
  exact (SameBraces.map fun line _ => sameButMargin_indentLine count line).trans
    (sameBraces_dedent h)

end Text

/-- A lexically closed fragment is so at every margin. -/
theorem LexicallyClosed.reindent {text : Text} (h : LexicallyClosed text) (htab : '\t' ∉ text)
    (count : Nat) : LexicallyClosed (Text.reindent count text) :=
  ((Text.sameBraces_reindent count htab).nests_iff 0 0).mpr h

end EditorScript
