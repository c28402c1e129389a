import EditorScript.Proofs.Dedenting
import EditorScript.Proofs.SolidCode
import EditorScript.Proofs.Trimming
import EditorScript.Source.Order

/-!
# The text around the braces of a block

A block is found at the places of its two braces.  Of the text of the lines up to its
closing brace its body keeps everything solid between the braces and nothing else, so
what is lost with a block is what stands in front of it and what follows its closing
brace on the same line.
-/

namespace EditorScript

/-! ## Places of code characters -/

/-- One code character comes before another one. -/
def CodeChar.Before (first second : CodeChar) : Prop :=
  first.line < second.line ∨ first.line = second.line ∧ first.column < second.column

theorem mem_codeColumnsFrom {mode : Mode} {passed text : Text} {column : Nat} {entry : Nat × Char}
    (h : entry ∈ codeColumnsFrom mode passed column text) :
    ∃ front back, text = front ++ entry.2 :: back ∧ entry.1 = column + front.length := by
  induction text generalizing mode passed column with
  | nil => cases h
  | cons c rest ih =>
    have hrest : ∀ {mode : Mode} {passed : Text},
        entry ∈ codeColumnsFrom mode passed (column + 1) rest →
        ∃ front back, c :: rest = front ++ entry.2 :: back ∧ entry.1 = column + front.length := by
      intro mode passed h
      obtain ⟨front, back, rfl, hcolumn⟩ := ih h
      exact ⟨c :: front, back, rfl, by rw [hcolumn, List.length_cons]; omega⟩
    rw [codeColumnsFrom] at h
    split at h
    · rcases List.mem_cons.mp h with rfl | h
      · exact ⟨[], rest, rfl, rfl⟩
      · exact hrest h
    · exact hrest h

/-- Code characters come in the order of their columns. -/
theorem codeColumnsFrom_pairwise (mode : Mode) (passed : Text) (column : Nat) (text : Text) :
    (codeColumnsFrom mode passed column text).Pairwise fun first second => first.1 < second.1 := by
  induction text generalizing mode passed column with
  | nil => exact .nil
  | cons c rest ih =>
    rw [codeColumnsFrom]
    split
    · refine List.pairwise_cons.mpr ⟨fun entry hentry => ?_, ih _ _ _⟩
      obtain ⟨front, _, _, hcolumn⟩ := mem_codeColumnsFrom hentry
      dsimp only
      omega
    · exact ih _ _ _

theorem codeCharsFrom_before (mode : Mode) (number : Nat) (lines : List Text) :
    (codeCharsFrom mode number lines).Pairwise CodeChar.Before := by
  induction lines generalizing mode number with
  | nil => exact .nil
  | cons line rest ih =>
    rw [codeCharsFrom, List.pairwise_append]
    refine ⟨?_, ih _ _, fun first hfirst second hsecond => ?_⟩
    · rw [List.pairwise_map]
      exact (codeColumnsFrom_pairwise mode [] 0 line).imp fun h => .inr ⟨rfl, h⟩
    · obtain ⟨_, _, rfl⟩ := List.mem_map.mp hfirst
      have hline := le_line_of_mem_codeCharsFrom hsecond
      exact .inl (by dsimp only; omega)

/-- A code character stands at its place. -/
theorem mem_codeCharsFrom {mode : Mode} {number : Nat} {lines : List Text} {c : CodeChar}
    (h : c ∈ codeCharsFrom mode number lines) :
    ∃ above front back below, lines = above ++ (front ++ c.char :: back) :: below ∧
      c.line = number + above.length ∧ c.column = front.length := by
  induction lines generalizing mode number with
  | nil => cases h
  | cons line rest ih =>
    rw [codeCharsFrom, List.mem_append] at h
    rcases h with h | h
    · obtain ⟨entry, hentry, rfl⟩ := List.mem_map.mp h
      obtain ⟨front, back, rfl, hcolumn⟩ := mem_codeColumnsFrom hentry
      exact ⟨[], front, back, rest, rfl, rfl, by simpa using hcolumn⟩
    · obtain ⟨above, front, back, below, rfl, hline, hcolumn⟩ := ih h
      refine ⟨line :: above, front, back, below, rfl, ?_, hcolumn⟩
      rw [hline, List.length_cons]
      omega

/-! ## Both braces of a block -/

private theorem exists_between {α : Type} {above below above' below' : List α} {first second : α}
    (h : above ++ first :: below = above' ++ second :: below')
    (hlt : above.length < above'.length) :
    ∃ between, above' = above ++ first :: between ∧ below = between ++ second :: below' := by
  rcases List.append_eq_append_iff.mp h with ⟨middle, rfl, hmiddle⟩ | ⟨middle, rfl, -⟩
  · cases middle with
    | nil => simp at hlt
    | cons c between =>
      obtain ⟨rfl, rfl⟩ := List.cons.inj hmiddle
      exact ⟨between, rfl, rfl⟩
  · rw [List.length_append] at hlt
    omega

/-- The lines around a block: its braces stand on one line or on two. -/
inductive Block.Stands : Block → List Text → Prop
  | within {above below : List Text} {front inside behind : Text} :
      Stands ⟨0, above.length, front.length, above.length, front.length + 1 + inside.length⟩
        (above ++ (front ++ '\x7b' :: (inside ++ '\x7d' :: behind)) :: below)
  | across {above between below : List Text} {front opened closed behind : Text} :
      Stands ⟨0, above.length, front.length, above.length + 1 + between.length, closed.length⟩
        (above ++ (front ++ '\x7b' :: opened) ::
          (between ++ (closed ++ '\x7d' :: behind) :: below))

/-- A block is found where its braces stand. -/
theorem stands_of_findBlock? {lines : List Text} {block : Block}
    (h : findBlock? lines 0 = some block) : block.Stands lines := by
  obtain ⟨opening, closing, hsublist, hopening, hclosing, rfl⟩ := findBlock?_eq_some h
  have hbefore : opening.Before closing :=
    List.rel_of_pairwise_cons ((codeCharsFrom_before .code 0 lines).sublist hsublist)
      List.mem_cons_self
  obtain ⟨above, front, back, below, hlines, hline, hcolumn⟩ :=
    mem_codeCharsFrom (hsublist.subset List.mem_cons_self)
  obtain ⟨above', front', back', below', hlines', hline', hcolumn'⟩ :=
    mem_codeCharsFrom (hsublist.subset (List.mem_cons_of_mem _ List.mem_cons_self))
  rw [List.drop_zero] at hlines hlines'
  rw [hopening] at hlines
  rw [hclosing] at hlines'
  rw [Nat.zero_add] at hline hline'
  rw [hlines] at hlines'
  rw [hline, hcolumn, hline', hcolumn', hlines]
  rcases hbefore with hlt | ⟨hsame, hlt⟩
  · rw [hline, hline'] at hlt
    obtain ⟨between, rfl, rfl⟩ := exists_between hlines' hlt
    have hlength : (above ++ (front ++ '\x7b' :: back) :: between).length =
        above.length + 1 + between.length := by
      rw [List.length_append, List.length_cons]
      omega
    rw [hlength]
    exact .across
  · rw [hline, hline'] at hsame
    obtain ⟨rfl, hrest⟩ := List.append_inj hlines' hsame
    obtain ⟨hsingle, rfl⟩ := List.cons.inj hrest
    rw [hcolumn, hcolumn'] at hlt
    obtain ⟨inside, rfl, rfl⟩ := exists_between hsingle hlt
    have hlength : (front ++ '\x7b' :: inside).length = front.length + 1 + inside.length := by
      rw [List.length_append, List.length_cons]
      omega
    rw [hlength]
    exact .within

/-! ## Solid text -/

theorem solid_unlines (pieces : List Text) :
    solid (Text.unlines pieces) = pieces.flatMap solid := by
  induction pieces with
  | nil => rfl
  | cons piece rest ih =>
    cases rest with
    | nil => simp
    | cons next others =>
      rw [Text.unlines_cons_cons, solid_append, List.flatMap_cons, ← ih]
      rfl

@[simp]
theorem solid_trim (text : Text) : solid text.trim = solid text := by
  obtain ⟨front, back, heq, hfront, hback⟩ := Text.exists_trim text
  conv_rhs => rw [heq]
  rw [solid_append, solid_append, solid_of_blank (List.all_eq_true.mpr hfront),
    solid_of_blank (List.all_eq_true.mpr hback), List.append_nil, List.nil_append]

theorem SameButMargin.solid_eq {line other : Text} (h : SameButMargin line other) :
    solid line = solid other := by
  obtain ⟨m, n, core, rfl, rfl⟩ | ⟨hline, hother⟩ := h
  · rw [solid_append, solid_append, solid_of_blank (spaces_all_isBlank m),
      solid_of_blank (spaces_all_isBlank n)]
  · rw [solid_of_blank hline, solid_of_blank hother]

namespace Text

theorem solid_expandTabsFrom (column : Nat) (text : Text) :
    solid (expandTabsFrom column text) = solid text := by
  induction text generalizing column with
  | nil => rfl
  | cons c rest ih =>
    have hcons : solid (c :: rest) = solid [c] ++ solid rest := solid_append [c] rest
    rw [expandTabsFrom, hcons]
    split
    · rename_i htab
      subst htab
      have hspaces := spaces_all_isBlank (tabWidth - column % tabWidth)
      rw [solid_append, ih]
      exact congrArg (· ++ solid rest) (solid_of_blank hspaces)
    · split
      · rw [← ih 0]
        exact solid_append [c] _
      · rw [← ih (column + 1)]
        exact solid_append [c] _

theorem solid_dropWhile_newline (text : Text) :
    solid (text.dropWhile (· == '\n')) = solid text := by
  have hfront : solid (text.takeWhile (· == '\n')) = [] := by
    refine solid_of_blank (List.all_eq_true.mpr fun c hc => ?_)
    have hnewline : c = '\n' := by simpa using List.mem_takeWhile_imp hc
    rw [hnewline]
    decide
  conv_rhs => rw [← List.takeWhile_append_dropWhile (p := (· == '\n')) (l := text)]
  rw [solid_append, hfront, List.nil_append]

theorem solid_reverse (text : Text) : solid text.reverse = (solid text).reverse :=
  List.filter_reverse

theorem solid_trimNewlines (text : Text) : solid text.trimNewlines = solid text := by
  rw [trimNewlines, dropRightWhile, solid_reverse, solid_dropWhile_newline, solid_reverse,
    List.reverse_reverse, solid_dropWhile_newline]

/-- Dropping the common margin drops white space only. -/
@[simp]
theorem solid_dedent (text : Text) : solid text.dedent = solid text := by
  have hmargins : ∀ line ∈ text.expandTabs.lines,
      solid (removeMargin (commonMargin text.expandTabs.lines) line) = solid line :=
    fun line hline =>
      (sameButMargin_removeMargin fun hspaces => commonMargin_le hline hspaces).solid_eq.symm
  calc solid text.dedent
      = (text.expandTabs.lines.map
          (removeMargin (commonMargin text.expandTabs.lines))).flatMap solid := by
        rw [dedent, solid_trimNewlines, solid_unlines]
    _ = text.expandTabs.lines.flatMap solid := by
        rw [List.flatMap_map, List.flatMap_def, List.flatMap_def]
        exact congrArg List.flatten (List.map_congr_left hmargins)
    _ = solid text.expandTabs := by rw [← solid_unlines, unlines_lines]
    _ = solid text := solid_expandTabsFrom 0 text

end Text

/-! ## The text of a block -/

namespace Block

/-- What stands in front of the opening brace. -/
def front (block : Block) (lines : List Text) : Text :=
  Text.unlines (lines.take block.openLine ++ [(lines.getD block.openLine []).take block.openColumn])

/-- What stands behind the closing brace on its line. -/
def behind (block : Block) (lines : List Text) : Text :=
  (lines.getD block.endLine []).drop (block.closeColumn + 1)

theorem flatMap_solid_piece {part shown : Text} (h : solid shown = solid part) :
    (piece part shown).flatMap solid = solid part := by
  unfold piece
  split
  · rename_i hblank
    exact (solid_of_blank hblank).symm
  · rw [List.flatMap_singleton, h]

private theorem getD_length (above below : List Text) (line : Text) :
    (above ++ line :: below).getD above.length [] = line := by
  simp [List.getD]

private theorem take_length_succ (above below : List Text) (line : Text) :
    (above ++ line :: below).take (above.length + 1) = above ++ [line] := by
  rw [List.take_length_add_append]
  rfl

private theorem drop_length_succ {α : Type} (front behind : List α) (c : α) :
    (front ++ c :: behind).drop (front.length + 1) = behind := by
  rw [List.drop_length_add_append]
  rfl

private theorem lines_between (above between below : List Text) (first last : Text) :
    let lines := above ++ first :: (between ++ last :: below)
    let place := above.length + 1 + between.length
    lines.getD place [] = last ∧ lines.take (place + 1) = above ++ first :: (between ++ [last]) ∧
      slice lines (above.length + 1) place = between := by
  intro lines place
  have hlines : lines = (above ++ first :: between) ++ last :: below := by simp [lines]
  have hplace : place = (above ++ first :: between).length := by
    simp only [place, List.length_append, List.length_cons]
    omega
  rw [slice, hlines, hplace]
  refine ⟨getD_length _ _ _, ?_, ?_⟩
  · rw [take_length_succ]
    simp
  · rw [List.take_left, drop_length_succ]

/-- The body of a block keeps what is solid between its braces. -/
theorem Stands.solid_eq {block : Block} {lines : List Text} (h : block.Stands lines) :
    solid (Text.unlines (lines.take (block.endLine + 1))) =
      solid (block.front lines) ++
        '\x7b' :: (solid (block.body lines) ++ '\x7d' :: solid (block.behind lines)) := by
  have hopen : ∀ rest, solid ('\x7b' :: rest) = '\x7b' :: solid rest := solid_cons (by decide)
  have hclose : ∀ rest, solid ('\x7d' :: rest) = '\x7d' :: solid rest := solid_cons (by decide)
  rw [body, solid_unlines, solid_unlines, front, solid_unlines]
  cases h with
  | @within above below before inside after =>
    have hcolumn : before.length + 1 + inside.length - (before.length + 1) = inside.length :=
      Nat.add_sub_cancel_left _ _
    have hclosing : (before ++ '\x7b' :: (inside ++ '\x7d' :: after)).drop
        (before.length + 1 + inside.length + 1) = after := by
      have hshape : before ++ '\x7b' :: (inside ++ '\x7d' :: after) =
          (before ++ '\x7b' :: inside) ++ '\x7d' :: after := by simp
      have hlength : before.length + 1 + inside.length = (before ++ '\x7b' :: inside).length := by
        simp only [List.length_append, List.length_cons]
        omega
      rw [hshape, hlength, drop_length_succ]
    simp only [behind, bodyLines, if_true, getD_length, take_length_succ, drop_length_succ,
      List.take_left, hcolumn, hclosing]
    simp [hopen, hclose]
  | @across above between below before opened closed after =>
    have hlines : above.length ≠ above.length + 1 + between.length := by omega
    obtain ⟨hlast, htake, hslice⟩ :=
      lines_between above between below (before ++ '\x7b' :: opened) (closed ++ '\x7d' :: after)
    simp only [behind, bodyLines, if_neg hlines, getD_length, List.take_left, drop_length_succ,
      hlast, htake, hslice, List.flatMap_append, flatMap_solid_piece (solid_trim opened),
      flatMap_solid_piece (rfl : solid closed = solid closed)]
    simp [hopen, hclose]

end Block

end EditorScript
