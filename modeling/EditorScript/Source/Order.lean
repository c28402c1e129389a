import EditorScript.Source.Block

/-!
# Order and size of blocks

Code characters come in the order of their lines, so a block closes on the line
on which it opens or on a later one, and its body is not larger than the lines
it is taken from.
-/

namespace EditorScript

/-- Number of characters of some lines, each one counted with its line break. -/
def weight : List Text → Nat
  | [] => 0
  | line :: rest => line.length + 1 + weight rest

@[simp]
theorem weight_nil : weight [] = 0 := rfl

@[simp]
theorem weight_cons (line : Text) (lines : List Text) :
    weight (line :: lines) = line.length + 1 + weight lines := rfl

@[simp]
theorem weight_append (first second : List Text) :
    weight (first ++ second) = weight first + weight second := by
  induction first with
  | nil => simp
  | cons line rest ih => simp only [List.cons_append, weight_cons, ih, Nat.add_assoc]

theorem weight_drop_le (count : Nat) (lines : List Text) :
    weight (lines.drop count) ≤ weight lines := by
  have h := weight_append (lines.take count) (lines.drop count)
  rw [List.take_append_drop] at h
  omega

theorem weight_take_le (count : Nat) (lines : List Text) :
    weight (lines.take count) ≤ weight lines := by
  have h := weight_append (lines.take count) (lines.drop count)
  rw [List.take_append_drop] at h
  omega

/-- Code characters stand on lines from the first one on. -/
theorem le_line_of_mem_codeCharsFrom {mode : Mode} {number : Nat} {lines : List Text}
    {c : CodeChar} (h : c ∈ codeCharsFrom mode number lines) : number ≤ c.line := by
  induction lines generalizing mode number with
  | nil => simp [codeCharsFrom] at h
  | cons line rest ih =>
    simp only [codeCharsFrom, List.mem_append, List.mem_map] at h
    rcases h with ⟨_, _, rfl⟩ | h
    · exact Nat.le_refl _
    · have := ih h
      omega

/-- Code characters come in the order of their lines. -/
theorem codeCharsFrom_pairwise (mode : Mode) (number : Nat) (lines : List Text) :
    (codeCharsFrom mode number lines).Pairwise fun first second => first.line ≤ second.line := by
  induction lines generalizing mode number with
  | nil => simp [codeCharsFrom]
  | cons line rest ih =>
    rw [codeCharsFrom, List.pairwise_append]
    refine ⟨?_, ih _ _, ?_⟩
    · rw [List.pairwise_map]
      exact List.pairwise_of_forall fun _ _ => Nat.le_refl _
    · intro first hfirst second hsecond
      simp only [List.mem_map] at hfirst
      obtain ⟨_, _, rfl⟩ := hfirst
      have := le_line_of_mem_codeCharsFrom hsecond
      simp only
      omega

/-- The closing brace is one of the characters that were read. -/
theorem mem_of_closingBrace?_eq_some {depth : Nat} {chars : List CodeChar} {c : CodeChar}
    (h : closingBrace? depth chars = some c) : c ∈ chars := by
  fun_induction closingBrace? depth chars with
  | case1 => simp at h
  | case2 _ _ _ _ ih => exact List.mem_cons_of_mem _ (ih h)
  | case3 =>
    cases h
    exact List.mem_cons_self
  | case4 _ _ _ _ _ ih => exact List.mem_cons_of_mem _ (ih h)
  | case5 _ _ _ _ _ ih => exact List.mem_cons_of_mem _ (ih h)

theorem char_of_closingBrace?_eq_some {depth : Nat} {chars : List CodeChar} {c : CodeChar}
    (h : closingBrace? depth chars = some c) : c.char = '\x7d' := by
  fun_induction closingBrace? depth chars with
  | case1 => cases h
  | case2 _ _ _ _ ih => exact ih h
  | case3 _ _ _ hclose =>
    cases h
    exact hclose
  | case4 _ _ _ _ _ ih => exact ih h
  | case5 _ _ _ _ _ ih => exact ih h

/-- A block is that of two braces among the code characters, the opening one in front. -/
theorem findBlock?_eq_some {lines : List Text} {start : Nat} {block : Block}
    (h : findBlock? lines start = some block) :
    ∃ opening closing, [opening, closing].Sublist (codeChars lines start) ∧
      opening.char = '\x7b' ∧ closing.char = '\x7d' ∧
        block = ⟨start, opening.line, opening.column, closing.line, closing.column⟩ := by
  unfold findBlock? at h
  split at h
  · cases h
  rename_i opening rest hchars
  obtain ⟨closing, hclose, rfl⟩ := Option.map_eq_some_iff.mp h
  have hsublist := List.dropWhile_sublist (l := codeChars lines start) (·.char != '\x7b')
  have hhead := List.head?_dropWhile_not (·.char != '\x7b') (codeChars lines start)
  rw [hchars] at hsublist hhead
  have hbraces : [opening, closing].Sublist (opening :: rest) :=
    (List.singleton_sublist.mpr (mem_of_closingBrace?_eq_some hclose)).cons_cons opening
  exact ⟨opening, closing, hbraces.trans hsublist, by simpa using hhead,
    char_of_closingBrace?_eq_some hclose, rfl⟩

/-- A block does not close before it opens. -/
theorem openLine_le_endLine {lines : List Text} {start : Nat} {block : Block}
    (h : findBlock? lines start = some block) : block.openLine ≤ block.endLine := by
  obtain ⟨opening, closing, hsublist, -, -, rfl⟩ := findBlock?_eq_some h
  exact List.rel_of_pairwise_cons
    ((codeCharsFrom_pairwise .code start (lines.drop start)).sublist hsublist) List.mem_cons_self

/-- Lines without any character have no block. -/
theorem ne_nil_of_findBlock?_eq_some {lines : List Text} {start : Nat} {block : Block}
    (h : findBlock? lines start = some block) : lines ≠ [] := by
  rintro rfl
  simp [findBlock?, codeChars, codeCharsFrom] at h

theorem length_dropWhile_le (accepts : Char → Bool) (text : Text) :
    (text.dropWhile accepts).length ≤ text.length :=
  (List.dropWhile_sublist _).length_le

/-- Trimming does not make a text longer. -/
theorem length_trim_le (text : Text) : (Text.trim text).length ≤ text.length := by
  simp only [Text.trim, Text.trimRight, Text.trimLeft, Text.dropRightWhile, List.length_reverse]
  refine Nat.le_trans (length_dropWhile_le _ _) ?_
  rw [List.length_reverse]
  exact length_dropWhile_le _ _

theorem weight_piece_le (part shown : Text) :
    weight (Block.piece part shown) ≤ shown.length + 1 := by
  unfold Block.piece
  split <;> simp

/-- What stands behind the opening brace weighs at most as much as its line. -/
theorem weight_open_piece_le (line : Text) (column : Nat) :
    weight (Block.piece (line.drop (column + 1)) (Text.trim (line.drop (column + 1)))) ≤
      line.length := by
  by_cases h : line.drop (column + 1) = []
  · simp [h, Block.piece, Text.blank]
  · have hpiece := weight_piece_le (line.drop (column + 1)) (Text.trim (line.drop (column + 1)))
    have htrim := length_trim_le (line.drop (column + 1))
    have hlen : 0 < (line.drop (column + 1)).length := List.length_pos_iff.mpr h
    simp only [List.length_drop] at htrim hlen
    omega

/-- One line weighs at most as much as all of them. -/
theorem length_getD_lt_weight {lines : List Text} (h : lines ≠ []) (i : Nat) :
    (lines.getD i []).length + 1 ≤ weight lines := by
  induction lines generalizing i with
  | nil => exact absurd rfl h
  | cons line rest ih =>
    cases i with
    | zero => simp
    | succ i =>
      rw [List.getD_cons_succ, weight_cons]
      cases rest with
      | nil => simp
      | cons next others =>
        have := ih (by simp) i
        omega

/-- Two lines and those between them weigh at most as much as all of them. -/
theorem weight_between_le {lines : List Text} (h : lines ≠ []) {first last : Nat}
    (hlt : first < last) :
    (lines.getD first []).length + 1 + weight (slice lines (first + 1) last) +
      (lines.getD last []).length ≤ weight lines := by
  induction lines generalizing first last with
  | nil => exact absurd rfl h
  | cons line rest ih =>
    obtain ⟨last, rfl⟩ : ∃ n, last = n + 1 := ⟨last - 1, by omega⟩
    simp only [slice, List.take_succ_cons, List.drop_succ_cons, List.getD_cons_succ, weight_cons]
    cases first with
    | zero =>
      simp only [List.getD_cons_zero, List.drop_zero]
      have hsplit := weight_append (rest.take last) (rest.drop last)
      rw [List.take_append_drop] at hsplit
      by_cases hempty : rest.drop last = []
      · have hge : rest.length ≤ last := by simpa using hempty
        have hget : rest.getD last [] = [] := by simp [List.getD, hge]
        rw [hget]
        simp only [List.length_nil]
        omega
      · have := length_getD_lt_weight hempty 0
        have hget : (rest.drop last).getD 0 [] = rest.getD last [] := by simp [List.getD]
        rw [hget] at this
        omega
    | succ first =>
      rw [List.getD_cons_succ]
      cases rest with
      | nil => simp
      | cons next others =>
        have := @ih (by simp) first last (by omega)
        simp only [slice] at this
        omega

/-- The body of a block weighs at most as much as the lines it is taken from. -/
theorem weight_bodyLines_le {lines : List Text} {start : Nat} {block : Block}
    (h : findBlock? lines start = some block) : weight (block.bodyLines lines) ≤ weight lines := by
  have hne := ne_nil_of_findBlock?_eq_some h
  have hle := openLine_le_endLine h
  unfold Block.bodyLines
  simp only
  split
  · have hline := length_getD_lt_weight hne block.openLine
    have htrim := length_trim_le (((lines.getD block.openLine []).drop (block.openColumn + 1)).take
      (block.closeColumn - (block.openColumn + 1)))
    simp only [List.length_take, List.length_drop] at htrim
    simp only [weight_cons, weight_nil]
    omega
  · have hbetween := @weight_between_le lines hne block.openLine block.endLine (by omega)
    have hopen := weight_open_piece_le (lines.getD block.openLine []) block.openColumn
    have hclose := weight_piece_le ((lines.getD block.endLine []).take block.closeColumn)
      ((lines.getD block.endLine []).take block.closeColumn)
    simp only [List.length_take] at hclose
    simp only [weight_append]
    omega

end EditorScript
