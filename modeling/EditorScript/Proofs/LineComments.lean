import EditorScript.Proofs.CodeLine
import EditorScript.Proofs.LiteralScan
import EditorScript.Proofs.WordsInLines

/-!
# Comments at the ends of lines

The automaton meets a comment at two slashes in code mode.  The cut that drops a comment is made at
the first two slashes behind the last code character of the line instead.  Both places are the same
exactly when no two slashes stand in a literal or in a block comment behind the last code
character, so what is cut off a line with code behind its literals is a comment.
-/

namespace EditorScript

variable {mode : Mode} {passed text line shown front rest : Text} {column later : Nat}

/-! ## Where a line is cut -/

/-- Two slashes stand behind the first `column` characters of a line. -/
def SlashesAt (line : Text) (column : Nat) : Prop :=
  ∃ front rest, line = front ++ '/' :: '/' :: rest ∧ front.length = column

theorem slashesAt_iff : SlashesAt line column ↔ "//".toList <+: line.drop column := by
  constructor
  · rintro ⟨front, rest, rfl, rfl⟩
    rw [List.drop_left]
    exact ⟨rest, rfl⟩
  · rintro ⟨rest, hrest⟩
    have hle : column ≤ line.length := by
      by_contra hbeyond
      rw [List.drop_eq_nil_of_le (by omega)] at hrest
      cases hrest
    have hline := List.take_append_drop column line
    rw [← hrest] at hline
    exact ⟨line.take column, rest, hline.symm, List.length_take_of_le hle⟩

instance (line : Text) (column : Nat) : Decidable (SlashesAt line column) :=
  decidable_of_iff _ slashesAt_iff.symm

theorem SlashesAt.lt_length (h : SlashesAt line column) : column + 1 < line.length := by
  obtain ⟨front, rest, rfl, rfl⟩ := h
  simp

/-- A text is cut at the first place at which the given one begins. -/
theorem Text.length_le_of_cutAt? {needle before after : Text}
    (h : Text.cutAt? needle text = some (before, after)) (heq : text = front ++ (needle ++ rest)) :
    before.length ≤ front.length := by
  induction text generalizing before front with
  | nil =>
    rw [cutAt?, Option.ite_none_right_eq_some] at h
    obtain ⟨rfl, -⟩ := Prod.mk.inj (Option.some.inj h.2)
    exact Nat.zero_le _
  | cons c others ih =>
    rw [cutAt?] at h
    split at h
    · obtain ⟨rfl, -⟩ := Prod.mk.inj (Option.some.inj h)
      exact Nat.zero_le _
    · rename_i hstart
      obtain ⟨⟨skipped, behind⟩, hcut, hsome⟩ := Option.map_eq_some_iff.mp h
      obtain ⟨rfl, rfl⟩ := Prod.mk.inj hsome
      cases front with
      | nil => exact absurd (List.isPrefixOf_iff_prefix.mpr ⟨rest, heq.symm⟩) hstart
      | cons d front =>
        have hle := ih hcut (List.cons.inj heq).2
        simpa using hle

/-- The code of a line ends on it. -/
theorem codeEnd_le_length (line : Text) : codeEnd line ≤ line.length := by
  rw [codeEnd]
  cases hlast : (codeColumns .code line).getLast? with
  | none => exact Nat.zero_le _
  | some last =>
    obtain ⟨front, back, heq, hcolumn⟩ :=
      mem_codeColumnsFrom (List.mem_of_getLast? hlast)
    have hlength := congrArg List.length heq
    rw [List.length_append, List.length_cons] at hlength
    rw [Option.map_some, Option.getD_some]
    omega

/-- A line is cut at the first two slashes behind its last code character, or it stays whole because
there are none. -/
theorem stripLineComment_cases (line : Text) :
    (∃ cut, codeEnd line ≤ cut ∧ SlashesAt line cut ∧
      (∀ column, codeEnd line ≤ column → SlashesAt line column → cut ≤ column) ∧
        stripLineComment line = Text.trimRight (line.take cut)) ∨
      (∀ column, codeEnd line ≤ column → ¬ SlashesAt line column) ∧ stripLineComment line = line := by
  have hwhole := List.take_append_drop (codeEnd line) line
  have hlength : (line.take (codeEnd line)).length = codeEnd line :=
    List.length_take_of_le (codeEnd_le_length line)
  -- Behind the code, two slashes of the line are two slashes of its rest.
  have hbehind : ∀ column, codeEnd line ≤ column → SlashesAt line column →
      ∃ front rest, line.drop (codeEnd line) = front ++ ("//".toList ++ rest) ∧
        codeEnd line + front.length = column := by
    rintro column hle ⟨front, rest, heq, rfl⟩
    refine ⟨front.drop (codeEnd line), rest, ?_, ?_⟩
    · calc line.drop (codeEnd line)
          = (front ++ '/' :: '/' :: rest).drop (codeEnd line) := congrArg _ heq
        _ = front.drop (codeEnd line) ++ ("//".toList ++ rest) :=
          List.drop_append_of_le_length hle
    · rw [List.length_drop]
      omega
  rw [stripLineComment]
  cases hcut : Text.cutAt? "//" (line.drop (codeEnd line)) with
  | none =>
    refine .inr ⟨fun column hle hslashes => ?_, rfl⟩
    obtain ⟨front, rest, heq, -⟩ := hbehind column hle hslashes
    exact Text.notInfix_of_cutAt? hcut ⟨front, rest, by rw [heq, List.append_assoc]⟩
  | some pieces =>
    obtain ⟨skipped, after⟩ := pieces
    obtain ⟨heq, -⟩ := Text.cutAt?_eq_some (by decide) hcut
    have hline : line = (line.take (codeEnd line) ++ skipped) ++ '/' :: '/' :: after := by
      rw [List.append_assoc]
      exact hwhole.symm.trans (congrArg _ heq)
    have htake : line.take (line.take (codeEnd line) ++ skipped).length =
        line.take (codeEnd line) ++ skipped :=
      (congrArg _ hline).trans List.take_left
    refine .inl ⟨(line.take (codeEnd line) ++ skipped).length, ?_, ⟨_, after, hline, rfl⟩,
      fun column hle hslashes => ?_, by rw [htake]⟩
    · rw [List.length_append]
      omega
    · obtain ⟨front, rest, hfront, rfl⟩ := hbehind column hle hslashes
      have hfirst := Text.length_le_of_cutAt? hcut hfront
      rw [List.length_append]
      omega

/-! ## Where a comment begins -/

/-- A comment that runs to the end of the line begins at a column: in code mode the automaton meets
two slashes. -/
structure OpensLineComment (line : Text) (column : Nat) : Prop where
  slashes : SlashesAt line column
  code : modeAt .code [] line column = .code

instance (line : Text) (column : Nat) : Decidable (OpensLineComment line column) :=
  decidable_of_iff (SlashesAt line column ∧ modeAt .code [] line column = .code)
    ⟨fun h => ⟨h.1, h.2⟩, fun h => ⟨h.slashes, h.code⟩⟩

/-- Two slashes stand at a column inside a literal or a block comment. -/
structure HidesSlashes (line : Text) (column : Nat) : Prop where
  slashes : SlashesAt line column
  noCode : modeAt .code [] line column ≠ .code
  noComment : modeAt .code [] line column ≠ .lineComment

/-- A text is what the automaton takes for a line without the comment at its end: all in front of
the comment but the blanks there, and the whole line when no comment begins on it. -/
structure IsUncommented (line shown : Text) : Prop where
  cut : ∀ column, OpensLineComment line column → shown = Text.trimRight (line.take column)
  whole : (∀ column, ¬ OpensLineComment line column) → shown = line

theorem Mode.next_eq_lineComment_iff {c : Char} {following : Option Char} :
    mode.next passed c following = .lineComment ↔
      mode = .lineComment ∨ mode = .code ∧ c = '/' ∧ following = some '/' := by
  cases mode <;> simp only [next, reduceCtorEq, false_and, or_false, false_or, true_and] <;>
    split_ifs <;> simp_all

/-- The mode behind a character of a line. -/
theorem modeAt_succ (mode : Mode) (passed : Text) (hlt : column < text.length) :
    modeAt mode passed text (column + 1) =
      (modeAt mode passed text column).next ((text.take column).reverse ++ passed) text[column]
        text[column + 1]? := by
  have hsplit := List.take_append_drop column text
  rw [List.drop_eq_getElem_cons hlt] at hsplit
  have hlength : (text.take column).length = column := List.length_take_of_le (by omega)
  have happend := modeAt_append mode passed (text.take column)
    (text[column] :: text.drop (column + 1)) 1
  rwa [hsplit, hlength, modeAt_cons_succ, modeAt_zero, List.head?_drop] at happend

/-- Behind the line no column changes the mode. -/
theorem modeAt_of_length_le (mode : Mode) (passed : Text) (h : text.length ≤ column) :
    modeAt mode passed text (column + 1) = modeAt mode passed text column := by
  have hbehind : ∀ more, modeAt mode passed text (text.length + more) =
      modeAfter mode passed text := by
    intro more
    have happend := modeAt_append mode passed text [] more
    rwa [List.append_nil, modeAt_nil, modeAt_length] at happend
  obtain ⟨more, rfl⟩ := Nat.exists_eq_add_of_le h
  rw [Nat.add_assoc, hbehind, hbehind]

/-- A comment that runs to the end of the line is not left. -/
theorem modeAt_lineComment (h : modeAt mode passed text column = .lineComment)
    (hle : column ≤ later) : modeAt mode passed text later = .lineComment := by
  induction hle with
  | refl => exact h
  | @step later _ ih =>
    rcases Nat.lt_or_ge later text.length with hlt | hlength
    · rw [modeAt_succ mode passed hlt, ih]
      rfl
    · rw [modeAt_of_length_le mode passed hlength, ih]

theorem OpensLineComment.lineComment (h : OpensLineComment line column) (hlt : column < later) :
    modeAt .code [] line later = .lineComment := by
  refine modeAt_lineComment ?_ (Nat.succ_le_of_lt hlt)
  rw [modeAt_succ .code [] (Nat.lt_of_succ_lt h.slashes.lt_length), h.code,
    Mode.next_eq_lineComment_iff]
  obtain ⟨front, rest, rfl, rfl⟩ := h.slashes
  exact .inr ⟨rfl, by simp, by simp⟩

/-- A comment at a column began in front of it. -/
theorem exists_opensLineComment (h : modeAt .code [] line column = .lineComment) :
    ∃ first < column, OpensLineComment line first := by
  induction column with
  | zero =>
    rw [modeAt_zero] at h
    cases h
  | succ column ih =>
    have hearlier : modeAt .code [] line column = .lineComment →
        ∃ first < column + 1, OpensLineComment line first := by
      intro hcomment
      obtain ⟨first, hlt, hbegins⟩ := ih hcomment
      exact ⟨first, by omega, hbegins⟩
    rcases Nat.lt_or_ge column line.length with hlt | hlength
    · rw [modeAt_succ .code [] hlt, Mode.next_eq_lineComment_iff] at h
      rcases h with hcomment | ⟨hcode, hslash, hfollowing⟩
      · exact hearlier hcomment
      · have hslashes : "//".toList <+: line.drop column := by
          obtain ⟨hlater, hfollowing⟩ := List.getElem?_eq_some_iff.mp hfollowing
          rw [List.drop_eq_getElem_cons hlt, List.drop_eq_getElem_cons hlater, hslash, hfollowing]
          exact ⟨_, rfl⟩
        exact ⟨column, by omega, slashesAt_iff.mpr hslashes, hcode⟩
    · rw [modeAt_of_length_le .code [] hlength] at h
      exact hearlier h

/-- All code of a line stands in front of its comment. -/
theorem OpensLineComment.codeEnd_le (h : OpensLineComment line column) : codeEnd line ≤ column := by
  rw [codeEnd]
  cases hlast : (codeColumns .code line).getLast? with
  | none => exact Nat.zero_le _
  | some last =>
    obtain ⟨place, c⟩ := last
    rw [Option.map_some, Option.getD_some]
    by_contra hbehind
    have hmem := List.mem_of_getLast? hlast
    rw [codeColumns, ← Nat.zero_add place, mem_codeColumnsFrom_iff] at hmem
    have hlt : column < place + 1 := Nat.lt_of_not_le hbehind
    have hcomment := h.lineComment hlt
    rw [hmem.2.2] at hcomment
    cases hcomment

/-- Slashes in a literal or a block comment stand in front of the comment at the end. -/
theorem HidesSlashes.lt (h : HidesSlashes line column) (hbegins : OpensLineComment line later) :
    column < later := by
  by_contra hge
  rcases Nat.eq_or_lt_of_le (Nat.le_of_not_lt hge) with rfl | hbehind
  · exact h.noCode hbegins.code
  · exact h.noComment (hbegins.lineComment hbehind)

/-! ## Cuts that are comments -/

/-- A slash is no blank, so cuts in front of it and behind it are different. -/
theorem SlashesAt.trimRight_take_ne (h : SlashesAt line column) (hlt : column < later) :
    Text.trimRight (line.take column) ≠ Text.trimRight (line.take later) := by
  obtain ⟨front, rest, rfl, rfl⟩ := h
  obtain ⟨more, rfl⟩ := Nat.exists_eq_add_of_lt hlt
  have htake : (front ++ '/' :: '/' :: rest).take (front.length + more + 1) =
      front ++ '/' :: ('/' :: rest).take more := by
    rw [Nat.add_assoc, List.take_length_add_append]
    rfl
  have hslash := Text.trimRight_cons (c := '/') (by decide) (('/' :: rest).take more)
  have hshown : Text.trimRight (front ++ '/' :: ('/' :: rest).take more) =
      front ++ '/' :: Text.trimRight (('/' :: rest).take more) := by
    rw [Text.trimRight_append (by rw [hslash]; exact List.cons_ne_nil _ _), hslash]
  have hlength := (Text.trimRight_prefix front).length_le
  intro hsame
  rw [List.take_left, htake, hshown] at hsame
  rw [hsame, List.length_append, List.length_cons] at hlength
  omega

theorem SlashesAt.trimRight_take_ne_self (h : SlashesAt line column) :
    Text.trimRight (line.take column) ≠ line := by
  intro hsame
  have hlength := (Text.trimRight_prefix (line.take column)).length_le
  have hlt := h.lt_length
  rw [hsame, List.length_take] at hlength
  omega

/-- The cut that drops a comment is made where the automaton meets the comment, and a line without
one stays whole, exactly if behind the last code character no two slashes stand in a literal or in a
block comment. -/
theorem isUncommented_stripLineComment_iff (line : Text) :
    IsUncommented line (stripLineComment line) ↔
      ∀ column, codeEnd line ≤ column → ¬ HidesSlashes line column := by
  constructor
  · intro h column hle hhides
    rcases stripLineComment_cases line with ⟨cut, -, hslashes, hfirst, hstrip⟩ | ⟨hnone, -⟩
    · have hcut := hfirst column hle hhides.slashes
      by_cases hcomment : ∃ first, OpensLineComment line first
      · obtain ⟨first, hbegins⟩ := hcomment
        have hlt : cut < first := Nat.lt_of_le_of_lt hcut (hhides.lt hbegins)
        exact hslashes.trimRight_take_ne hlt (hstrip.symm.trans (h.cut first hbegins))
      · have hwhole := h.whole (not_exists.mp hcomment)
        exact hslashes.trimRight_take_ne_self (hstrip.symm.trans hwhole)
    · exact hnone column hle hhides.slashes
  · intro h
    rcases stripLineComment_cases line with ⟨cut, hle, hslashes, hfirst, hstrip⟩ | ⟨hnone, hstrip⟩
    · -- No comment begins in front of the cut, and the slashes there are not hidden.
      have hcode : modeAt .code [] line cut = .code := by
        by_contra hnoCode
        apply h cut hle ⟨hslashes, hnoCode, fun hcomment => ?_⟩
        obtain ⟨first, hlt, hbegins⟩ := exists_opensLineComment hcomment
        have hcut := hfirst first hbegins.codeEnd_le hbegins.slashes
        omega
      have hbegins : OpensLineComment line cut := ⟨hslashes, hcode⟩
      constructor
      · intro column hcolumn
        have hcut := hfirst column hcolumn.codeEnd_le hcolumn.slashes
        rcases Nat.eq_or_lt_of_le hcut with rfl | hlt
        · exact hstrip
        · have hcomment := hbegins.lineComment hlt
          rw [hcolumn.code] at hcomment
          cases hcomment
      · exact fun hnever => absurd hbegins (hnever cut)
    · constructor
      · exact fun column hcolumn => absurd hcolumn.slashes (hnone column hcolumn.codeEnd_le)
      · exact fun _ => hstrip

/-- The first line of a statement that goes on below an address in a literal. -/
def addressLine : Text := "var url = \"http://host\""

/-- No comment begins on the line, but it is cut inside of the literal. -/
theorem not_isUncommented_addressLine :
    ¬ IsUncommented addressLine (stripLineComment addressLine) := by
  intro h
  have hnever : ∀ column < addressLine.length, ¬ OpensLineComment addressLine column := by decide
  have hwhole := h.whole fun column hbegins =>
    hnever column (Nat.lt_of_succ_lt hbegins.slashes.lt_length) hbegins
  have hcut : stripLineComment addressLine = "var url = \"http:".toList := by decide
  rw [hcut] at hwhole
  exact absurd hwhole (by decide)

end EditorScript
