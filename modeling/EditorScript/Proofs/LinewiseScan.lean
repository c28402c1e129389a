import EditorScript.Proofs.BalancedBlocks
import EditorScript.Proofs.MovedLines
import EditorScript.Proofs.QuotedInLine

/-!
# Lines read alone

The automaton carries its mode from line to line, while the depth of braces is also counted line by
line, each line being read from code mode on.  Both ways see the same code on lines that leave no
block comment and no verbatim literal open.  Then the depths of the lines of a block add up: they
stay positive up to the line that closes the block and come to zero with it.
-/

namespace EditorScript

variable {lines : List Text} {line : Text} {start stop number : Nat} {block : Block}
  {chars opened inside behind part : List CodeChar} {opening closing c : CodeChar}

/-! ## Code of lines read alone -/

/-- A block comment or a verbatim literal that begins on a line goes on below it. -/
def LeavesOpen (line : Text) : Prop :=
  lineEnd .code line = .comment ∨ lineEnd .code line = .verbatim

instance (line : Text) : Decidable (LeavesOpen line) :=
  inferInstanceAs (Decidable (lineEnd .code line = .comment ∨ lineEnd .code line = .verbatim))

theorem lineEnd_of_not_leavesOpen (h : ¬ LeavesOpen line) : lineEnd .code line = .code := by
  have hbreak := lineEnd_atLineBreak .code line
  rw [LeavesOpen, not_or] at h
  cases hmode : lineEnd .code line <;> simp_all [Mode.atLineBreak]

theorem modeBehind_of_not_leavesOpen (h : ∀ line ∈ lines, ¬ LeavesOpen line) :
    modeBehind .code lines = .code := by
  induction lines with
  | nil => rfl
  | cons line rest ih =>
    rw [List.forall_mem_cons] at h
    rw [modeBehind_cons, lineEnd_of_not_leavesOpen h.1, ih h.2]

/-- A code character of the same column on the line of a number. -/
def CodeChar.onLine (number : Nat) (c : CodeChar) : CodeChar :=
  { c with line := number }

theorem map_onLine_codeChars (number : Nat) (line : Text) :
    (codeChars [line] 0).map (·.onLine number) =
      (codeColumns .code line).map fun (column, c) => ⟨number, column, c⟩ := by
  rw [codeChars_singleton, List.map_map]
  rfl

theorem codeCharsFrom_linewise (h : ∀ line ∈ lines, ¬ LeavesOpen line) (number : Nat) :
    codeCharsFrom .code number lines = (lines.zipIdx number).flatMap fun (line, i) =>
      (codeChars [line] 0).map (·.onLine i) := by
  induction lines generalizing number with
  | nil => rfl
  | cons line rest ih =>
    rw [List.forall_mem_cons] at h
    rw [codeCharsFrom, lineEnd_of_not_leavesOpen h.1, ih h.2, List.zipIdx_cons, List.flatMap_cons,
      ← map_onLine_codeChars]

/-! ## Braces of lines read alone -/

theorem balance_codeColumns (number : Nat) (line : Text) :
    balance ((codeColumns .code line).map fun (column, c) => ⟨number, column, c⟩) =
      braceDelta line := by
  simp only [balance, braceDelta, List.count, List.countP_map]
  rfl

theorem balance_codeCharsFrom (h : ∀ line ∈ lines, ¬ LeavesOpen line) (number : Nat) :
    balance (codeCharsFrom .code number lines) = (lines.map braceDelta).sum := by
  induction lines generalizing number with
  | nil => rfl
  | cons line rest ih =>
    rw [List.forall_mem_cons] at h
    rw [codeCharsFrom, balance_append, balance_codeColumns, lineEnd_of_not_leavesOpen h.1, ih h.2,
      List.map_cons, List.sum_cons]

theorem balance_of_noBrace (h : ∀ c ∈ chars, c.isBrace = false) : balance chars = 0 := by
  induction chars with
  | nil => rfl
  | cons c rest ih =>
    rw [List.forall_mem_cons] at h
    obtain ⟨hopen, hclose⟩ : c.char ≠ '\x7b' ∧ c.char ≠ '\x7d' := by
      simpa [CodeChar.isBrace] using h.1
    rw [← List.singleton_append, balance_append, balance_other hopen hclose, ih h.2]
    rfl

theorem neg_one_le_balance (c : CodeChar) : -1 ≤ balance [c] := by
  by_cases hopen : c.char = '\x7b'
  · rw [balance_opening hopen]
    decide
  by_cases hclose : c.char = '\x7d'
  · rw [balance_closing hclose]
  · rw [balance_other hopen hclose]
    decide

/-- Inside of a block more braces open than close. -/
theorem ClosesFirst.balance_pos (h : ClosesFirst opened chars inside closing behind)
    (hopened : 0 < balance opened) (hpart : part <+: inside) : 0 < balance (opened ++ part) := by
  induction part using List.reverseRecOn with
  | nil => rwa [List.append_nil]
  | append_singleton others c ih =>
    have hothers := ih ((List.prefix_append others [c]).trans hpart)
    have hne := h.first _ hpart
    have hone := neg_one_le_balance c
    rw [← List.append_assoc, balance_append] at hne ⊢
    omega

/-! ## Lines of a block -/

/-- A member of two lists put together that is not in the first one stands in the second. -/
theorem exists_append_right_of_notMem {α : Type} {first second front rest : List α} {a : α}
    (h : first ++ second = front ++ a :: rest) (ha : a ∉ first) :
    ∃ between, front = first ++ between ∧ second = between ++ a :: rest := by
  rcases List.append_eq_append_iff.mp h with hright | ⟨between, rfl, hbetween⟩
  · exact hright
  · cases between with
    | nil => exact ⟨[], by simp, hbetween.symm⟩
    | cons b others =>
      obtain ⟨rfl, -⟩ := List.cons.inj hbetween
      exact absurd (List.mem_append_right front List.mem_cons_self) ha

/-- One that is not in the second one stands in the first. -/
theorem exists_append_left_of_notMem {α : Type} {first second front rest : List α} {a : α}
    (h : first ++ second = front ++ a :: rest) (ha : a ∉ second) :
    ∃ between, first = front ++ a :: between ∧ rest = between ++ second := by
  rcases List.append_eq_append_iff.mp h with ⟨between, -, hsecond⟩ | ⟨between, rfl, hbetween⟩
  · exact absurd (hsecond ▸ List.mem_append_right between List.mem_cons_self) ha
  · cases between with
    | nil =>
      rw [List.nil_append] at hbetween
      exact absurd (hbetween ▸ List.mem_cons_self) ha
    | cons b others =>
      obtain ⟨rfl, hrest⟩ := List.cons.inj hbetween
      exact ⟨others, rfl, hrest⟩

theorem line_lt_of_mem_codeCharsFrom {mode : Mode} (h : c ∈ codeCharsFrom mode number lines) :
    c.line < number + lines.length := by
  obtain ⟨above, front, back, below, rfl, hline, -⟩ := mem_codeCharsFrom h
  rw [hline, List.length_append, List.length_cons]
  omega

theorem line_lt_of_mem_codeChars (h : c ∈ codeChars lines start) : c.line < lines.length := by
  have hlt := line_lt_of_mem_codeCharsFrom h
  have hle := le_line_of_mem_codeCharsFrom h
  rw [List.length_drop] at hlt
  omega

theorem length_slice {first last : Nat} (h : last ≤ lines.length) :
    (slice lines first last).length = last - first := by
  rw [slice, List.length_drop, List.length_take_of_le h]

/-- When no brace stands in front of an opening one on its line, the depths of the lines from there
up to some line add up to the balance of that brace and of what follows it on these lines. -/
theorem exists_sum_braceDelta {front rest : List CodeChar} (h : ∀ line ∈ lines, ¬ LeavesOpen line)
    (hopens : OpensFirst (codeChars lines start) front opening rest)
    (hfront : ∀ c ∈ front, c.line = opening.line → c.isBrace = false)
    (hlt : opening.line < stop) (hstop : stop ≤ lines.length) :
    ∃ own below, rest = own ++ below ∧ (∀ c ∈ own, c.line < stop) ∧ (∀ c ∈ below, stop ≤ c.line) ∧
      ((slice lines opening.line stop).map braceDelta).sum = balance ([opening] ++ own) := by
  have hclosed : ∀ first last, ∀ line ∈ slice lines first last, ¬ LeavesOpen line :=
    fun _ _ line hline => h line (List.mem_of_mem_take (List.mem_of_mem_drop hline))
  have hmode : ∀ first last, modeBehind .code (slice lines first last) = .code :=
    fun first last => modeBehind_of_not_leavesOpen (hclosed first last)
  have horder := codeCharsFrom_pairwise .code start (lines.drop start)
  rw [← codeChars, hopens.split, List.pairwise_append] at horder
  have hsplit := hopens.split
  have hstart : start ≤ opening.line := by
    have hmem : opening ∈ codeChars lines start := by rw [hsplit]; simp
    exact le_line_of_mem_codeCharsFrom hmem
  have habove : opening ∉ codeCharsFrom .code start (slice lines start opening.line) := by
    intro hmem
    have hline := line_lt_of_mem_codeCharsFrom hmem
    rw [length_slice (by omega)] at hline
    omega
  have hbelow : ∀ c ∈ codeChars lines stop, stop ≤ c.line :=
    fun c hc => le_line_of_mem_codeCharsFrom hc
  have hnotBelow : opening ∉ codeChars lines stop := by
    intro hmem
    have hline := hbelow opening hmem
    omega
  rw [codeChars_eq_append hstart (by omega) (hmode start _),
    codeChars_eq_append hlt.le hstop (hmode _ stop)] at hsplit
  obtain ⟨before, hbefore, hown⟩ := exists_append_right_of_notMem hsplit habove
  obtain ⟨own, hlines, hrest⟩ := exists_append_left_of_notMem hown hnotBelow
  have hbounds : ∀ c ∈ before ++ opening :: own, opening.line ≤ c.line ∧ c.line < stop := by
    intro c hc
    rw [← hlines] at hc
    have hline := line_lt_of_mem_codeCharsFrom hc
    rw [length_slice hstop] at hline
    exact ⟨le_line_of_mem_codeCharsFrom hc, by omega⟩
  have hzero : balance before = 0 := by
    apply balance_of_noBrace
    intro c hc
    have hmem : c ∈ front := by rw [hbefore]; exact List.mem_append_right _ hc
    have hle := horder.2.2 c hmem opening List.mem_cons_self
    exact hfront c hmem (Nat.le_antisymm hle (hbounds c (List.mem_append_left _ hc)).1)
  refine ⟨own, codeChars lines stop, hrest, fun c hc => ?_, hbelow, ?_⟩
  · exact (hbounds c (List.mem_append_right _ (List.mem_cons_of_mem _ hc))).2
  · calc ((slice lines opening.line stop).map braceDelta).sum
        = balance (codeCharsFrom .code opening.line (slice lines opening.line stop)) :=
          (balance_codeCharsFrom (hclosed _ _) _).symm
      _ = balance before + balance ([opening] ++ own) := by
          rw [hlines, balance_append, List.singleton_append]
      _ = balance ([opening] ++ own) := by rw [hzero, zero_add]

section Block

variable {front rest : List CodeChar} (h : ∀ line ∈ lines, ¬ LeavesOpen line)
  (hopens : OpensFirst (codeChars lines start) front opening rest)
  (hfront : ∀ c ∈ front, c.line = opening.line → c.isBrace = false)
  (hcloses : ClosesFirst [opening] rest inside closing behind)

include h hopens hfront hcloses

/-- Up to a line in front of the closing brace, more braces open than close. -/
theorem sum_braceDelta_pos (hlt : opening.line < stop) (hle : stop ≤ closing.line) :
    0 < ((slice lines opening.line stop).map braceDelta).sum := by
  have hmem : closing ∈ codeChars lines start := by rw [hopens.split, hcloses.split]; simp
  obtain ⟨own, below, hrest, hown, -, hsum⟩ :=
    exists_sum_braceDelta h hopens hfront hlt (hle.trans (line_lt_of_mem_codeChars hmem).le)
  have hnotOwn : closing ∉ own := fun hmem => by
    have hline := hown closing hmem
    omega
  rw [hcloses.split] at hrest
  obtain ⟨between, rfl, -⟩ := exists_append_right_of_notMem hrest.symm hnotOwn
  have hone : 0 < balance [opening] := by
    rw [balance_opening hopens.opens]
    decide
  rw [hsum]
  exact hcloses.balance_pos hone (List.prefix_append own between)

/-- Up to the line of the closing brace, behind which no brace follows there, as many close. -/
theorem sum_braceDelta_eq_zero (hbehind : ∀ c ∈ behind, c.line = closing.line → c.isBrace = false)
    (hlt : opening.line < closing.line) :
    ((slice lines opening.line (closing.line + 1)).map braceDelta).sum = 0 := by
  have hmem : closing ∈ codeChars lines start := by rw [hopens.split, hcloses.split]; simp
  obtain ⟨own, below, hrest, hown, hbelow, hsum⟩ :=
    exists_sum_braceDelta h hopens hfront (Nat.lt_succ_of_lt hlt) (line_lt_of_mem_codeChars hmem)
  have hnotBelow : closing ∉ below := fun hmem => by
    have hline := hbelow closing hmem
    omega
  have horder := codeCharsFrom_pairwise .code start (lines.drop start)
  rw [← codeChars, hopens.split, hcloses.split, List.pairwise_append, List.pairwise_cons,
    List.pairwise_append, List.pairwise_cons] at horder
  obtain ⟨-, ⟨-, -, ⟨hlater, -⟩, -⟩, -⟩ := horder
  rw [hcloses.split] at hrest
  obtain ⟨between, rfl, rfl⟩ := exists_append_left_of_notMem hrest.symm hnotBelow
  have hzero : balance between = 0 := by
    apply balance_of_noBrace
    intro c hc
    have hline := hown c (by simp [hc])
    have hle := hlater c (List.mem_append_left _ hc)
    exact hbehind c (List.mem_append_left _ hc) (by omega)
  calc ((slice lines opening.line (closing.line + 1)).map braceDelta).sum
      = balance ([opening] ++ (inside ++ closing :: between)) := hsum
    _ = balance ([opening] ++ (inside ++ [closing]) ++ between) := by simp
    _ = 0 := by rw [balance_append, hcloses.balanced, hzero, add_zero]

end Block

/-- A block that begins with the first brace on its first line and ends with the last brace on its
last line, which is another one. -/
structure Block.StandsApart (lines : List Text) (block : Block) : Prop where
  spans : block.openLine < block.endLine
  before : ∀ c ∈ codeChars lines block.startLine, c.line = block.openLine →
    c.column < block.openColumn → c.isBrace = false
  behind : ∀ c ∈ codeChars lines block.startLine, c.line = block.endLine →
    block.closeColumn < c.column → c.isBrace = false

instance (lines : List Text) (block : Block) : Decidable (block.StandsApart lines) :=
  decidable_of_iff (block.openLine < block.endLine ∧
    (∀ c ∈ codeChars lines block.startLine, c.line = block.openLine →
      c.column < block.openColumn → c.isBrace = false) ∧
    ∀ c ∈ codeChars lines block.startLine, c.line = block.endLine →
      block.closeColumn < c.column → c.isBrace = false)
    ⟨fun h => ⟨h.1, h.2.1, h.2.2⟩, fun h => ⟨h.spans, h.before, h.behind⟩⟩

/-- Of the code on the lines of the two braces none in front of them and behind them is a brace. -/
theorem Block.StandsApart.noBrace {front : List CodeChar}
    (hsplit : codeChars lines start = front ++ opening :: (inside ++ closing :: behind))
    (h : Block.StandsApart lines
      ⟨start, opening.line, opening.column, closing.line, closing.column⟩) :
    (∀ c ∈ front, c.line = opening.line → c.isBrace = false) ∧
      ∀ c ∈ behind, c.line = closing.line → c.isBrace = false := by
  have horder := codeCharsFrom_before .code start (lines.drop start)
  rw [← codeChars, hsplit, List.pairwise_append, List.pairwise_cons, List.pairwise_append,
    List.pairwise_cons] at horder
  obtain ⟨-, ⟨-, -, ⟨hlater, -⟩, -⟩, hearlier⟩ := horder
  constructor
  · intro c hc hline
    rcases hearlier c hc opening List.mem_cons_self with hlt | ⟨-, hcolumn⟩
    · omega
    · exact h.before c (by rw [hsplit]; simp [hc]) hline hcolumn
  · intro c hc hline
    rcases hlater c hc with hlt | ⟨-, hcolumn⟩
    · omega
    · exact h.behind c (by rw [hsplit]; simp [hc]) hline hcolumn

/-- Lines that leave nothing open are read together as they are read alone, each with its number.
For a block on several of them that has no further brace in front of it on its first line and none
behind it on its last line, the depths of its lines come to zero, and those of its first lines up to
any earlier one are positive. -/
theorem codeChars_linewise (h : ∀ line ∈ lines, ¬ LeavesOpen line) :
    (∀ start, codeChars lines start = ((lines.drop start).zipIdx start).flatMap
      fun (line, i) => (codeChars [line] 0).map (·.onLine i)) ∧
    ∀ start block, findBlock? lines start = some block → block.StandsApart lines →
      ((slice lines block.openLine (block.endLine + 1)).map braceDelta).sum = 0 ∧
      ∀ stop, block.openLine < stop → stop ≤ block.endLine →
        0 < ((slice lines block.openLine stop).map braceDelta).sum := by
  constructor
  · intro start
    exact codeCharsFrom_linewise (fun line hline => h line (List.mem_of_mem_drop hline)) start
  · intro start block hblock hapart
    obtain ⟨front, opening, rest, inside, closing, behind, hopens, hcloses, rfl⟩ :=
      findBlock?_eq_some_iff.mp hblock
    have hsplit := hopens.split
    rw [hcloses.split] at hsplit
    obtain ⟨hfront, hbehind⟩ := hapart.noBrace hsplit
    constructor
    · exact sum_braceDelta_eq_zero h hopens hfront hcloses hbehind hapart.spans
    · exact fun stop => sum_braceDelta_pos h hopens hfront hcloses

/-- A class with a verbatim literal, a comment and a literal that its line ends. -/
def closedLines : List Text :=
  ["using A;", "class B \x7b // \x7d", "    string a = @\"\x7b\";", "    void C() \x7b /* \x7d */",
    "        Label(\"\x7b", "    \x7d", "\x7d // \x7d"]

/-- The depths of the lines of the class. -/
theorem codeChars_linewise_closedLines :
    (∀ line ∈ closedLines, ¬ LeavesOpen line) ∧ findBlock? closedLines 0 = some ⟨0, 1, 8, 6, 0⟩ ∧
    Block.StandsApart closedLines ⟨0, 1, 8, 6, 0⟩ ∧
    ((slice closedLines 1 7).map braceDelta).sum = 0 ∧
    0 < ((slice closedLines 1 6).map braceDelta).sum := by
  have hclosed : ∀ line ∈ closedLines, ¬ LeavesOpen line := by decide
  have hblock : findBlock? closedLines 0 = some ⟨0, 1, 8, 6, 0⟩ := by decide
  have hapart : Block.StandsApart closedLines ⟨0, 1, 8, 6, 0⟩ := by decide
  obtain ⟨hsum, hpositive⟩ := (codeChars_linewise hclosed).2 0 _ hblock hapart
  exact ⟨hclosed, hblock, hapart, hsum, hpositive 6 (by decide) (by decide)⟩

end EditorScript
