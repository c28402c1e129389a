import EditorScript.Proofs.Margin
import EditorScript.Proofs.StyleLook
import EditorScript.Proofs.Trimming
import EditorScript.Recovery.Statement

/-!
# Code of written lines

A written statement ends in a code character, so nothing of its line is taken
for a comment: its code is the statement without its margin.
-/

namespace EditorScript

/-- What a piece is read as comes before the code characters behind it. -/
theorem Reads.columns_append {passed piece chars : Text} (h : Reads passed piece chars)
    (column : Nat) (rest : Text) :
    ∃ front, codeColumnsFrom .code passed column (piece ++ rest) =
      front ++ codeColumnsFrom .code (piece.reverse ++ passed) (column + piece.length) rest := by
  induction h generalizing column with
  | done passed => exact ⟨[], rfl⟩
  | @plain passed others chars c hplain _ ih =>
    obtain ⟨front, hfront⟩ := ih (column + 1)
    refine ⟨(column, c) :: front, ?_⟩
    rw [List.cons_append, codeColumnsFrom, Mode.next_code_of_isPlain hplain, hfront]
    simp [Nat.add_assoc, Nat.add_comm 1]
  | @quoted passed others chars content hcalm _ ih =>
    obtain ⟨front, hfront⟩ := ih (column + (quote content).length)
    refine ⟨front, ?_⟩
    rw [List.append_assoc, codeColumnsFrom_quote hcalm, hfront]
    simp [Nat.add_assoc]

/-- What comes before a character that ends no literal is read on its own. -/
theorem Reads.of_concat {passed front chars : Text} {c : Char}
    (h : Reads passed (front ++ [c]) chars) (hc : c ≠ '"') :
    isPlain c ∧ ∃ others, Reads passed front others := by
  generalize hpiece : front ++ [c] = piece at h
  induction h generalizing front with
  | done passed => simp at hpiece
  | @plain passed others chars d hplain _ ih =>
    cases front with
    | nil =>
      obtain ⟨rfl, -⟩ := List.cons.inj hpiece
      exact ⟨hplain, [], .done passed⟩
    | cons e left =>
      obtain ⟨rfl, hothers⟩ := List.cons.inj hpiece
      obtain ⟨hlast, read, hread⟩ := ih hothers
      exact ⟨hlast, _, .plain hplain hread⟩
  | @quoted passed others chars content hcalm hothersRead ih =>
    rcases List.eq_nil_or_concat others with rfl | ⟨left, d, rfl⟩
    · have hends := congrArg List.getLast? hpiece
      rw [List.append_nil, List.getLast?_concat, getLast?_quote] at hends
      exact absurd (Option.some.inj hends) hc
    · have hends : front = quote content ++ left ∧ [c] = [d] := by
        refine List.append_inj' ?_ rfl
        rw [hpiece, List.concat_eq_append, List.append_assoc]
      obtain ⟨rfl, hd⟩ := hends
      obtain rfl : c = d := (List.cons.inj hd).1
      obtain ⟨hlast, read, hread⟩ := ih List.concat_eq_append.symm
      exact ⟨hlast, read, .quoted content hcalm hread⟩

/-- The code of a line that ends in a code character is its trimmed text. -/
theorem codeOf_of_reads {line front chars : Text} {c : Char} (hline : line = front ++ [c])
    (h : Reads [] line chars) (hc : c ≠ '"') : codeOf line = line.trim := by
  subst hline
  obtain ⟨hplain, others, hfront⟩ := h.of_concat hc
  obtain ⟨columns, hcolumns⟩ := hfront.columns_append 0 [c]
  have hend : codeEnd (front ++ [c]) = (front ++ [c]).length := by
    rw [codeEnd, codeColumns, hcolumns]
    simp [codeColumnsFrom, Mode.next_code_of_isPlain hplain]
  rw [codeOf, stripLineComment, hend, List.drop_length]
  rfl

theorem prefix_of_cutAt? {needle text before after : Text}
    (h : Text.cutAt? needle text = some (before, after)) : before <+: text := by
  induction text generalizing before after with
  | nil =>
    rw [Text.cutAt?, Option.ite_none_right_eq_some] at h
    obtain rfl := (Prod.mk.inj (Option.some.inj h.2)).1
    exact List.nil_prefix
  | cons c rest ih =>
    rw [Text.cutAt?] at h
    split at h
    · obtain rfl := (Prod.mk.inj (Option.some.inj h)).1
      exact List.nil_prefix
    · obtain ⟨⟨front, behind⟩, hcut, heq⟩ := Option.map_eq_some_iff.mp h
      obtain rfl := (Prod.mk.inj heq).1
      exact List.cons_prefix_cons.mpr ⟨rfl, ih hcut⟩

theorem Text.trimRight_prefix (text : Text) : text.trimRight <+: text :=
  List.reverse_suffix.mp (by
    rw [Text.trimRight, Text.dropRightWhile, List.reverse_reverse]
    exact List.dropWhile_suffix _)

/-- Without its comment a line is a front of itself. -/
theorem prefix_stripLineComment (line : Text) : stripLineComment line <+: line := by
  unfold stripLineComment
  split
  · rename_i skipped _ hcut
    have hfront : line.take (codeEnd line) ++ skipped <+: line := by
      have hskipped := prefix_of_cutAt? hcut
      have happend := (List.prefix_append_right_inj (line.take (codeEnd line))).mpr hskipped
      rwa [List.take_append_drop] at happend
    exact (Text.trimRight_prefix _).trans hfront
  · exact List.prefix_rfl

/-- The code of a line is a part of it. -/
theorem infix_codeOf (line : Text) : codeOf line <:+: line :=
  ((Text.trimRight_prefix _).isInfix.trans (List.dropWhile_suffix isBlank).isInfix).trans
    (prefix_stripLineComment line).isInfix

/-- A blank line has no code. -/
theorem codeOf_of_blank {line : Text} (h : line.blank) : codeOf line = [] := by
  have hline : ∀ c ∈ stripLineComment line, isBlank c := fun c hc =>
    List.all_eq_true.mp h c ((prefix_stripLineComment line).subset hc)
  rw [codeOf, Text.trim, Text.trimLeft, List.dropWhile_eq_nil_iff.mpr hline]
  rfl

/-- Blanks in front of a line are no part of its code. -/
theorem codeOf_blanks {blanks : Text} (hblank : blanks.all isBlank) (line : Text) :
    codeOf (blanks ++ line) = codeOf line := by
  have hend : codeEnd (blanks ++ line) = blanks.length + codeEnd line := by
    rw [codeEnd, codeEnd, codeColumns_blanks rfl hblank, if_pos rfl, List.getLast?_append,
      List.getLast?_map, List.getLast?_map]
    cases (codeColumns .code line).getLast? with
    | some last => simp; omega
    | none =>
      rcases List.eq_nil_or_concat blanks with rfl | ⟨front, last, rfl⟩
      · rfl
      · simp [List.zipIdx_append]
  have hdrop : (blanks ++ line).drop (codeEnd (blanks ++ line)) = line.drop (codeEnd line) := by
    rw [hend, List.drop_length_add_append]
  have htake : (blanks ++ line).take (codeEnd (blanks ++ line)) =
      blanks ++ line.take (codeEnd line) := by
    rw [hend, List.take_length_add_append]
  have hmem : ∀ c ∈ blanks, isBlank c := List.all_eq_true.mp hblank
  rw [codeOf, codeOf, stripLineComment, stripLineComment, hdrop, htake]
  cases Text.cutAt? "//" (line.drop (codeEnd line)) with
  | none => exact Text.trim_blank_append hmem line
  | some cut =>
    dsimp only
    rw [Text.trim_trimRight, Text.trim_trimRight, List.append_assoc,
      Text.trim_blank_append hmem]

/-- Lines that differ in their margins only have the same code. -/
theorem SameButMargin.codeOf_eq {line other : Text} (h : SameButMargin line other) :
    codeOf line = codeOf other := by
  obtain ⟨m, n, core, rfl, rfl⟩ | ⟨hline, hother⟩ := h
  · rw [codeOf_blanks (spaces_all_isBlank m), codeOf_blanks (spaces_all_isBlank n)]
  · rw [codeOf_of_blank hline, codeOf_of_blank hother]

/-- A statement as it stands on a line. -/
structure Statement (statement : Text) : Prop where
  neutral : Neutral statement
  first : ∀ c ∈ statement.head?, isBlank c = false
  last : ∃ front c, statement = front ++ [c] ∧ c ≠ '"' ∧ isBlank c = false

theorem Text.trim_spaces_append (count : Nat) {text : Text}
    (hfirst : ∀ c ∈ text.head?, isBlank c = false)
    (hlast : ∀ c ∈ text.getLast?, isBlank c = false) : (spaces count ++ text).trim = text := by
  have hdrop : (spaces count ++ text).trimLeft = text.trimLeft := by
    rw [trimLeft, List.dropWhile_append_of_pos]
    · rfl
    · exact fun c hc => List.all_eq_true.mp (spaces_all_isBlank count) c hc
  rw [trim, hdrop]
  exact trim_eq_self hfirst hlast

/-- The code of a statement behind a margin is the statement. -/
theorem Statement.codeOf_eq {statement : Text} (h : Statement statement) (count : Nat) :
    codeOf (Text.spaces count ++ statement) = statement := by
  obtain ⟨front, c, hshape, hquote, hblank⟩ := h.last
  have hneutral : Neutral (Text.spaces count ++ statement) :=
    (neutral_spaces count).append h.neutral
  obtain ⟨chars, hreads, -⟩ := (hneutral [] calm_nil).reads
  have hline : Text.spaces count ++ statement = (Text.spaces count ++ front) ++ [c] := by
    rw [hshape, List.append_assoc]
  rw [codeOf_of_reads hline hreads hquote]
  refine Text.trim_spaces_append count h.first ?_
  rw [hshape, List.getLast?_concat]
  rintro d ⟨⟩
  exact hblank

theorem Statement.ne_nil {statement : Text} (h : Statement statement) : statement ≠ [] := by
  obtain ⟨front, c, rfl, -⟩ := h.last
  simp

theorem Statement.lines_eq {statement : Text} (h : Statement statement) (count : Nat) :
    (Text.spaces count ++ statement).lines = [Text.spaces count ++ statement] :=
  ((neutral_spaces count).append h.neutral).lines_eq

/-- The first code of lines that begin with a statement. -/
theorem Statement.firstCode?_eq {statement : Text} (h : Statement statement) (count : Nat)
    (rest : List Text) :
    firstCode? ((Text.spaces count ++ statement) :: rest) = some (0, statement) := by
  have hcode : (codeOf (Text.spaces count ++ statement)).isEmpty = false := by
    rw [h.codeOf_eq]
    simpa using h.ne_nil
  rw [firstCode?, hcode, h.codeOf_eq]
  rfl

end EditorScript
