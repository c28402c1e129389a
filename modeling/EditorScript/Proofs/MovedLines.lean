import EditorScript.Proofs.CodeLine
import EditorScript.Recovery.Body
import EditorScript.Recovery.Gate
import Mathlib.Data.List.Forall2

/-!
# Recovery at another margin

Code is read line by line without its margin, and braces are counted among the
code characters only.  So a body that is moved to another margin, or gets other
blank lines at its end, is cut into the same statements: as many roots are
recovered from it, and the same ones of them stand for code.
-/

namespace EditorScript

/-- Lines that are the same but for their margins and for blank lines at the end. -/
inductive Moved : List Text → List Text → Prop
  | ended {lines others : List Text} (h : ∀ line ∈ lines, line.blank)
      (h' : ∀ line ∈ others, line.blank) : Moved lines others
  | cons {line other : Text} {lines others : List Text} (h : SameButMargin line other)
      (hrest : Moved lines others) : Moved (line :: lines) (other :: others)

namespace Moved

variable {line other : Text} {lines others rest behind : List Text}

theorem refl (lines : List Text) : Moved lines lines := by
  induction lines with
  | nil => exact .ended (List.forall_mem_nil _) (List.forall_mem_nil _)
  | cons line rest ih => exact .cons (.inl ⟨0, 0, line, rfl, rfl⟩) ih

theorem symm (h : Moved lines others) : Moved others lines := by
  induction h with
  | ended h h' => exact .ended h' h
  | cons h _ ih =>
    refine .cons ?_ ih
    obtain ⟨m, n, core, hline, hother⟩ | ⟨hline, hother⟩ := h
    · exact .inl ⟨n, m, core, hother, hline⟩
    · exact .inr ⟨hother, hline⟩

theorem blank_of_nil (h : Moved [] others) : ∀ line ∈ others, line.blank := by
  cases h with
  | ended _ h' => exact h'

theorem drop (h : Moved lines others) (count : Nat) :
    Moved (lines.drop count) (others.drop count) := by
  induction h generalizing count with
  | ended h h' =>
    exact .ended (fun line hline => h line (List.mem_of_mem_drop hline))
      fun line hline => h' line (List.mem_of_mem_drop hline)
  | cons h hrest ih =>
    cases count with
    | zero => exact .cons h hrest
    | succ count => exact ih count

theorem take (h : Moved lines others) (count : Nat) :
    Moved (lines.take count) (others.take count) := by
  induction h generalizing count with
  | ended h h' =>
    exact .ended (fun line hline => h line (List.mem_of_mem_take hline))
      fun line hline => h' line (List.mem_of_mem_take hline)
  | cons h _ ih =>
    cases count with
    | zero => exact .refl []
    | succ count => exact .cons h (ih count)

/-! ## Code of moved lines -/

theorem all_codeOf (h : Moved lines others) {test : Text → Bool} (htest : test []) :
    (lines.all fun line => test (codeOf line)) = others.all fun line => test (codeOf line) := by
  induction h with
  | ended h h' =>
    have hall : ∀ {lines : List Text}, (∀ line ∈ lines, line.blank) →
        (lines.all fun line => test (codeOf line)) = true := fun hblank =>
      List.all_eq_true.mpr fun line hline => by rw [codeOf_of_blank (hblank line hline), htest]
    rw [hall h, hall h']
  | cons h _ ih => rw [List.all_cons, List.all_cons, h.codeOf_eq, ih]

theorem firstCode?_of_blank (h : ∀ line ∈ lines, line.blank) : firstCode? lines = none := by
  induction lines with
  | nil => rfl
  | cons line rest ih =>
    rw [List.forall_mem_cons] at h
    rw [firstCode?, codeOf_of_blank h.1, ih h.2]
    rfl

theorem firstCode?_eq (h : Moved lines others) : firstCode? lines = firstCode? others := by
  induction h with
  | ended h h' => rw [firstCode?_of_blank h, firstCode?_of_blank h']
  | cons h _ ih => rw [firstCode?, firstCode?, h.codeOf_eq, ih]

end Moved

/-! ## Braces of moved lines -/

/-- Whether a code character is a brace. -/
def CodeChar.isBrace (c : CodeChar) : Bool :=
  c.char == '\x7b' || c.char == '\x7d'

theorem closingBrace?_filter (depth : Nat) (chars : List CodeChar) :
    closingBrace? depth (chars.filter CodeChar.isBrace) = closingBrace? depth chars := by
  fun_induction closingBrace? depth chars <;> simp_all [closingBrace?, CodeChar.isBrace]

/-- Blocks are found by their braces alone. -/
theorem findBlock?_eq_braces (lines : List Text) (start : Nat) :
    findBlock? lines start =
      match ((codeChars lines start).filter CodeChar.isBrace).dropWhile (·.char != '\x7b') with
      | [] => none
      | opening :: rest =>
        (closingBrace? 0 rest).map fun closing =>
          ⟨start, opening.line, opening.column, closing.line, closing.column⟩ := by
  have hfilter : ∀ chars : List CodeChar,
      (chars.filter CodeChar.isBrace).dropWhile (·.char != '\x7b') =
        (chars.dropWhile (·.char != '\x7b')).filter CodeChar.isBrace := by
    intro chars
    induction chars with
    | nil => rfl
    | cons c rest ih =>
      by_cases hopen : c.char = '\x7b'
      · simp [CodeChar.isBrace, hopen]
      · by_cases hclose : c.char = '\x7d' <;> simp [CodeChar.isBrace, hopen, hclose, ih]
  have hopening : ∀ opening rest,
      (codeChars lines start).dropWhile (·.char != '\x7b') = opening :: rest →
        opening.char = '\x7b' := by
    intro opening rest heq
    have := List.head?_dropWhile_not (·.char != '\x7b') (codeChars lines start)
    simpa [heq] using this
  rw [hfilter, findBlock?]
  cases hchars : (codeChars lines start).dropWhile (·.char != '\x7b') with
  | nil => rfl
  | cons opening rest =>
    rw [List.filter_cons_of_pos (by simp [CodeChar.isBrace, hopening _ _ hchars])]
    dsimp only
    rw [closingBrace?_filter]

/-- The same code character in two lists of lines that are numbered from `number` on:
it stands at the same place behind the margins of its line. -/
structure SameSpot (number : Nat) (lines others : List Text) (c c' : CodeChar) : Prop where
  le : number ≤ c.line
  line : c'.line = c.line
  char : c'.char = c.char
  place : ∃ m n core place, lines.getD (c.line - number) [] = Text.spaces m ++ core ∧
    others.getD (c.line - number) [] = Text.spaces n ++ core ∧
    c.column = m + place ∧ c'.column = n + place

theorem SameSpot.cons {number : Nat} {lines others : List Text} {c c' : CodeChar}
    (h : SameSpot (number + 1) lines others c c') (line other : Text) :
    SameSpot number (line :: lines) (other :: others) c c' := by
  obtain ⟨m, n, core, place, hline, hother, hcolumn, hcolumn'⟩ := h.place
  have hle := h.le
  have hindex : c.line - number = c.line - (number + 1) + 1 := by omega
  exact ⟨by omega, h.line, h.char, m, n, core, place, by rw [hindex]; exact hline,
    by rw [hindex]; exact hother, hcolumn, hcolumn'⟩

theorem filter_codeColumns_blanks {mode : Mode} (hmode : mode.atLineBreak = mode) {blanks : Text}
    (hblank : blanks.all isBlank) (number : Nat) (line : Text) :
    ((codeColumns mode (blanks ++ line)).map fun (column, c) =>
      (⟨number, column, c⟩ : CodeChar)).filter CodeChar.isBrace =
    ((codeColumns mode line).map fun (column, c) =>
      (⟨number, column + blanks.length, c⟩ : CodeChar)).filter CodeChar.isBrace := by
  rw [codeColumns_blanks hmode hblank, List.map_append, List.filter_append, List.map_map]
  refine (congrArg (· ++ _) (List.filter_eq_nil_iff.mpr fun shown hshown hbrace => ?_)).trans rfl
  obtain ⟨⟨column, c⟩, hmem, rfl⟩ := List.mem_map.mp hshown
  have hc : c ∈ blanks := by
    split at hmem
    · obtain ⟨⟨c', i⟩, hzip, heq⟩ := List.mem_map.mp hmem
      obtain rfl := (Prod.mk.inj heq).2
      exact List.fst_mem_of_mem_zipIdx hzip
    · simp at hmem
  have hblankChar := List.all_eq_true.mp hblank c hc
  have hchar : c = '\x7b' ∨ c = '\x7d' := by simpa [CodeChar.isBrace] using hbrace
  rcases hchar with rfl | rfl <;> exact absurd hblankChar (by decide)

theorem filter_codeColumns_of_blank {mode : Mode} (hmode : mode.atLineBreak = mode) {line : Text}
    (h : line.blank) (number : Nat) :
    ((codeColumns mode line).map fun (column, c) =>
      (⟨number, column, c⟩ : CodeChar)).filter CodeChar.isBrace = [] := by
  have hline := filter_codeColumns_blanks hmode h number []
  rwa [List.append_nil] at hline

theorem filter_codeCharsFrom_of_blank {mode : Mode} (hmode : mode.atLineBreak = mode)
    {lines : List Text} (h : ∀ line ∈ lines, line.blank) (number : Nat) :
    (codeCharsFrom mode number lines).filter CodeChar.isBrace = [] := by
  induction lines generalizing mode number with
  | nil => rfl
  | cons line rest ih =>
    rw [List.forall_mem_cons] at h
    rw [codeCharsFrom, List.filter_append, filter_codeColumns_of_blank hmode h.1,
      ih (lineEnd_atLineBreak mode line) h.2]
    rfl

/-- Moved lines have the same braces at the same places behind their margins. -/
theorem Moved.sameSpot {lines others : List Text} (h : Moved lines others) {mode : Mode}
    (hmode : mode.atLineBreak = mode) (number : Nat) :
    List.Forall₂ (SameSpot number lines others)
      ((codeCharsFrom mode number lines).filter CodeChar.isBrace)
      ((codeCharsFrom mode number others).filter CodeChar.isBrace) := by
  induction h generalizing mode number with
  | ended h h' =>
    rw [filter_codeCharsFrom_of_blank hmode h, filter_codeCharsFrom_of_blank hmode h']
    exact .nil
  | @cons line other lines others h hrest ih =>
    rw [codeCharsFrom, codeCharsFrom, List.filter_append, List.filter_append]
    refine List.rel_append ?_ ?_
    · obtain ⟨m, n, core, rfl, rfl⟩ | ⟨hline, hother⟩ := h
      · rw [filter_codeColumns_blanks hmode (spaces_all_isBlank m),
          filter_codeColumns_blanks hmode (spaces_all_isBlank n), List.filter_map,
          List.filter_map, List.forall₂_map_left_iff, List.forall₂_map_right_iff]
        refine List.forall₂_same.mpr fun spot _ => ?_
        exact ⟨Nat.le_refl number, rfl, rfl, m, n, core, spot.1, by simp, by simp,
          by simp [Text.spaces, Nat.add_comm], by simp [Text.spaces, Nat.add_comm]⟩
      · rw [filter_codeColumns_of_blank hmode hline, filter_codeColumns_of_blank hmode hother]
        exact .nil
    · rw [h.lineEnd_eq hmode]
      exact (ih (lineEnd_atLineBreak mode other) (number + 1)).imp fun c c' hspot =>
        hspot.cons line other

/-- The same block in two lists of lines: its braces stand on the same lines, and the
lines of its body have the same code. -/
structure SameBlock (lines others : List Text) (block block' : Block) : Prop where
  openLine : block'.openLine = block.openLine
  endLine : block'.endLine = block.endLine
  body : ∀ test : Text → Bool, test [] →
    (block'.bodyLines others).all (fun line => test (codeOf line)) =
      (block.bodyLines lines).all fun line => test (codeOf line)

theorem Forall₂.dropWhile {α : Type} {related : α → α → Prop} {test : α → Bool}
    {first second : List α} (h : List.Forall₂ related first second)
    (htest : ∀ a b, related a b → test b = test a) :
    List.Forall₂ related (first.dropWhile test) (second.dropWhile test) := by
  induction h with
  | nil => exact .nil
  | @cons a b first second hab hrest ih =>
    rw [List.dropWhile_cons, List.dropWhile_cons, htest a b hab]
    split
    · exact ih
    · exact .cons hab hrest

theorem closingBrace?_rel {related : CodeChar → CodeChar → Prop}
    (hchar : ∀ c c', related c c' → c'.char = c.char) {chars chars' : List CodeChar}
    (h : List.Forall₂ related chars chars') (depth : Nat) :
    Option.Rel related (closingBrace? depth chars) (closingBrace? depth chars') := by
  induction h generalizing depth with
  | nil => exact .none
  | @cons c c' rest rest' hc _ ih =>
    have hsame := hchar c c' hc
    cases depth with
    | zero =>
      simp only [closingBrace?, hsame]
      split_ifs
      · exact ih 1
      · exact .some hc
      · exact ih 0
    | succ outer =>
      simp only [closingBrace?, hsame]
      split_ifs
      · exact ih (outer + 2)
      · exact ih outer
      · exact ih (outer + 1)

/-- A piece of a line counts by its code. -/
theorem all_piece {test : Text → Bool} (htest : test []) (part : Text) :
    ((Block.piece part part).all fun line => test (codeOf line)) = test (codeOf part) := by
  unfold Block.piece
  split
  · rename_i hblank
    rw [codeOf_of_blank hblank, htest]
    rfl
  · simp

/-- What stands behind the opening brace and what stands in front of the closing one
is the same in both lists of lines but for its margin. -/
theorem sameBlock_of_sameSpot {lines others : List Text} (h : Moved lines others)
    {opening opening' closing closing' : CodeChar}
    (hopening : SameSpot 0 lines others opening opening')
    (hclosing : SameSpot 0 lines others closing closing') :
    SameBlock lines others ⟨0, opening.line, opening.column, closing.line, closing.column⟩
      ⟨0, opening'.line, opening'.column, closing'.line, closing'.column⟩ := by
  refine ⟨hopening.line, hclosing.line, fun test htest => ?_⟩
  obtain ⟨m, n, core, i, hline, hother, hi, hi'⟩ := hopening.place
  obtain ⟨m', n', core', j, hline', hother', hj, hj'⟩ := hclosing.place
  have hlength : ∀ count, (Text.spaces count).length = count := fun _ => List.length_replicate
  have hbehind : ∀ count (line : Text) place,
      (Text.spaces count ++ line).drop (count + place + 1) = line.drop (place + 1) := by
    intro count line place
    have hdrop := @List.drop_length_add_append _ (Text.spaces count) line (place + 1)
    rwa [hlength] at hdrop
  have hfront : ∀ count (line : Text) place,
      (Text.spaces count ++ line).take (count + place) = Text.spaces count ++ line.take place := by
    intro count line place
    have htake := @List.take_length_add_append _ (Text.spaces count) line place
    rwa [hlength] at htake
  simp only [Nat.sub_zero] at hline hother hline' hother'
  unfold Block.bodyLines
  dsimp only
  rw [hopening.line, hclosing.line, hline, hother, hline', hother', hi, hi', hj, hj', hbehind,
    hbehind, hfront, hfront]
  by_cases hsame : opening.line = closing.line
  · rw [if_pos hsame, if_pos hsame]
    -- both braces stand on one line, so their margins are the same in each list
    have hwidth : m + core.length = m' + core'.length := by
      have := congrArg List.length (hline.symm.trans (hsame ▸ hline'))
      simpa [hlength] using this
    have hwidth' : n + core.length = n' + core'.length := by
      have := congrArg List.length (hother.symm.trans (hsame ▸ hother'))
      simpa [hlength] using this
    have hcount : n' + j - (n + i + 1) = m' + j - (m + i + 1) := by omega
    rw [hcount]
  · rw [if_neg hsame, if_neg hsame]
    have hinside := ((h.take closing.line).drop (opening.line + 1)).all_codeOf htest
    rw [List.all_append, List.all_append, List.all_append, List.all_append, all_piece htest,
      all_piece htest, codeOf_blanks (spaces_all_isBlank m'), codeOf_blanks (spaces_all_isBlank n'),
      slice, slice, hinside]

/-- Moved lines have the same first block. -/
theorem Moved.findBlock?_rel {lines others : List Text} (h : Moved lines others) :
    Option.Rel (SameBlock lines others) (findBlock? lines 0) (findBlock? others 0) := by
  rw [findBlock?_eq_braces, findBlock?_eq_braces, codeChars, codeChars, List.drop_zero,
    List.drop_zero]
  have hspots := @Forall₂.dropWhile _ _ (·.char != '\x7b') _ _
    (@Moved.sameSpot _ _ h .code rfl 0) fun c c' hspot => by rw [hspot.char]
  revert hspots
  generalize ((codeCharsFrom .code 0 lines).filter CodeChar.isBrace).dropWhile _ = chars
  generalize ((codeCharsFrom .code 0 others).filter CodeChar.isBrace).dropWhile _ = chars'
  intro hspots
  cases hspots with
  | nil => exact .none
  | @cons opening opening' rest rest' hopening hrest =>
    have hclosing := closingBrace?_rel (fun c c' hspot => hspot.char) hrest 0
    dsimp only
    revert hclosing
    generalize closingBrace? 0 rest = closing?
    generalize closingBrace? 0 rest' = closing'?
    intro hclosing
    cases hclosing with
    | none => exact .none
    | some hclosing => exact .some (sameBlock_of_sameSpot h hopening hclosing)

/-! ## Statements of moved lines -/

namespace Moved

variable {line other : Text} {lines others rest behind : List Text}

/-- Of moved lines either nothing but blank lines is left behind the first ones, or both
lists go on. -/
theorem tail_cases (h : Moved (line :: rest) others) :
    ((∀ line ∈ rest, line.blank) ∧ ∀ line ∈ others.tail, line.blank) ∨
      ∃ other next behind, others = other :: next :: behind ∧ SameButMargin line other ∧
        Moved rest (next :: behind) := by
  cases h with
  | ended h h' =>
    exact .inl ⟨(List.forall_mem_cons.mp h).2,
      fun line hline => h' line (List.mem_of_mem_tail hline)⟩
  | @cons _ other _ others h hrest =>
    cases others with
    | nil => exact .inl ⟨hrest.symm.blank_of_nil, List.forall_mem_nil _⟩
    | cons next behind => exact .inr ⟨other, next, behind, rfl, h, hrest⟩

theorem drop_succ (h : ∀ line ∈ rest, line.blank) (h' : ∀ line ∈ others.tail, line.blank)
    (line : Text) (count count' : Nat) :
    Moved ((line :: rest).drop (count + 1)) (others.drop (count' + 1)) := by
  rw [List.drop_succ_cons, ← List.drop_tail]
  exact .ended (fun line hline => h line (List.mem_of_mem_drop hline))
    fun line hline => h' line (List.mem_of_mem_drop hline)

theorem drop_linesToSemicolon (line next : Text) (rest : List Text) :
    (line :: next :: rest).drop (linesToSemicolon (line :: next :: rest) + 1) =
      if (codeOf line).endsWith ";" then next :: rest
      else if opensBrace (codeOf line) then
        match findBlock? (line :: next :: rest) 0 with
        | none => next :: rest
        | some block =>
          if block.endLine = 0 then next :: rest
          else ((line :: next :: rest).drop block.endLine).drop
            (linesToSemicolon ((line :: next :: rest).drop block.endLine) + 1)
      else (next :: rest).drop (linesToSemicolon (next :: rest) + 1) := by
  rw [linesToSemicolon]
  split
  · rfl
  · split
    · cases findBlock? (line :: next :: rest) 0 with
      | none => rfl
      | some block =>
        dsimp only
        split
        · rfl
        · rw [List.drop_drop, Nat.add_assoc]
    · rw [Nat.add_comm 1]
      rfl

/-- Behind what ends with a semicolon, moved lines are moved lines. -/
theorem behind_semicolon (h : Moved lines others) :
    Moved (lines.drop (linesToSemicolon lines + 1))
      (others.drop (linesToSemicolon others + 1)) := by
  induction hlength : lines.length using Nat.strong_induction_on generalizing lines others with
  | _ length ih =>
  cases lines with
  | nil =>
    exact .ended (List.forall_mem_nil _) fun line hline =>
      h.blank_of_nil line (List.mem_of_mem_drop hline)
  | cons line rest =>
    obtain ⟨hrest, hothers⟩ | ⟨other, next', behind, rfl, hline, hrest⟩ := h.tail_cases
    · exact drop_succ hrest hothers line _ _
    cases rest with
    | nil =>
      exact @drop_succ (other :: next' :: behind) _ (List.forall_mem_nil _)
        hrest.blank_of_nil line _ _
    | cons next rest =>
      rw [drop_linesToSemicolon, drop_linesToSemicolon, ← hline.codeOf_eq]
      split
      · exact hrest
      split
      · have hsame := h.findBlock?_rel
        generalize findBlock? (line :: next :: rest) 0 = found at hsame
        generalize findBlock? (other :: next' :: behind) 0 = found' at hsame
        cases hsame with
        | none => exact hrest
        | @some block block' hsame =>
          dsimp only
          rw [hsame.endLine]
          split
          · exact hrest
          · rename_i hend
            refine ih _ ?_ (h.drop block.endLine) rfl
            rw [← hlength, List.length_drop, List.length_cons]
            omega
      · exact ih _ (by simp [← hlength]) hrest rfl

/-- The statement at the start of moved lines is found to end in both or in neither, and
behind it moved lines are moved lines. -/
theorem ownExtent?_rel (hline : SameButMargin line other) (hrest : Moved rest behind) :
    Option.Rel (fun own own' => Moved (rest.drop own) (behind.drop own'))
      (ownExtent? line rest) (ownExtent? other behind) := by
  have hwhole : Moved (line :: rest) (other :: behind) := .cons hline hrest
  unfold ownExtent?
  dsimp only
  rw [← hline.codeOf_eq, ← hrest.firstCode?_eq]
  split
  · have hsame := hwhole.findBlock?_rel
    generalize findBlock? (line :: rest) 0 = found at hsame
    generalize findBlock? (other :: behind) 0 = found' at hsame
    cases hsame with
    | none => exact .none
    | some hsame =>
      refine .some ?_
      dsimp only
      rw [hsame.endLine]
      exact hrest.drop _
  · exact .some hwhole.behind_semicolon

theorem drop_extent (line : Text) (rest : List Text) :
    (line :: rest).drop (extent (line :: rest) + 1) =
      match ownExtent? line rest with
      | none => rest
      | some own =>
        match firstCode? (rest.drop own) with
        | none => rest.drop own
        | some (place, following) =>
          if continues (codeOf line) following then
            ((rest.drop own).drop place).drop (extent ((rest.drop own).drop place) + 1)
          else rest.drop own := by
  rw [extent, List.drop_succ_cons]
  cases ownExtent? line rest with
  | none => rfl
  | some own =>
    dsimp only
    cases firstCode? (rest.drop own) with
    | none => rfl
    | some first =>
      dsimp only
      split
      · rw [List.drop_drop, List.drop_drop]
        congr 1
        omega
      · rfl

/-- Behind the statement at their start, moved lines are moved lines. -/
theorem behind_extent (h : Moved lines others) :
    Moved (lines.drop (extent lines + 1)) (others.drop (extent others + 1)) := by
  induction hlength : lines.length using Nat.strong_induction_on generalizing lines others with
  | _ length ih =>
  cases h with
  | ended h h' =>
    exact .ended (fun line hline => h line (List.mem_of_mem_drop hline))
      fun line hline => h' line (List.mem_of_mem_drop hline)
  | @cons line other rest behind hline hrest =>
    rw [drop_extent, drop_extent, ← hline.codeOf_eq]
    have hown := ownExtent?_rel hline hrest
    generalize ownExtent? line rest = own? at hown
    generalize ownExtent? other behind = own'? at hown
    cases hown with
    | none => exact hrest
    | @some own own' hown =>
      dsimp only
      rw [← hown.firstCode?_eq]
      split
      · exact hown
      · split
        · refine ih _ ?_ (hown.drop _) rfl
          simp only [← hlength, List.length_drop, List.length_cons]
          omega
        · exact hown

end Moved

end EditorScript
