import EditorScript.Proofs.PatternRun
import EditorScript.Proofs.BlockText

/-!
# Where literals end

A string literal is recognised in two ways: the automaton goes through it character by character,
and a pattern matches it as a whole.  Both read the same content, so on a line on which the
automaton enters a literal the pattern matches exactly if the automaton leaves the literal by a
quote on that line, and then both end at the same quote.  The mode at a column also tells which
characters are code.
-/

namespace EditorScript

variable {mode : Mode} {passed text front rest line : Text} {column first last : Nat}

/-! ## The mode at a column -/

/-- The mode in which the automaton stands in front of a column of a piece of a line, and
behind the piece in front of every later column. -/
def modeAt (mode : Mode) (passed : Text) : Text → Nat → Mode
  | _, 0 => mode
  | [], _ + 1 => mode
  | c :: rest, column + 1 => modeAt (mode.next passed c rest.head?) (c :: passed) rest column

@[simp]
theorem modeAt_zero (mode : Mode) (passed text : Text) : modeAt mode passed text 0 = mode := by
  cases text <;> rfl

@[simp]
theorem modeAt_nil (mode : Mode) (passed : Text) (column : Nat) :
    modeAt mode passed [] column = mode := by
  cases column <;> rfl

@[simp]
theorem modeAt_cons_succ (mode : Mode) (passed : Text) (c : Char) (rest : Text) (column : Nat) :
    modeAt mode passed (c :: rest) (column + 1) =
      modeAt (mode.next passed c rest.head?) (c :: passed) rest column := rfl

/-- In front of the column behind a piece stands the mode behind the piece. -/
theorem modeAt_length (mode : Mode) (passed text : Text) :
    modeAt mode passed text text.length = modeAfter mode passed text := by
  induction text generalizing mode passed with
  | nil => rfl
  | cons c rest ih => exact ih _ _

theorem modeAt_append (mode : Mode) (passed front rest : Text) (column : Nat) :
    modeAt mode passed (front ++ rest) (front.length + column) =
      modeAt (modeAt mode passed (front ++ rest) front.length) (front.reverse ++ passed) rest
        column := by
  induction front generalizing mode passed with
  | nil => simp
  | cons c others ih =>
    rw [List.cons_append, List.length_cons, Nat.add_right_comm, modeAt_cons_succ, modeAt_cons_succ,
      ih]
    simp

/-- The code characters of a piece are those with code mode in front of them and behind. -/
theorem mem_codeColumnsFrom_iff {start : Nat} {c : Char} :
    (start + column, c) ∈ codeColumnsFrom mode passed start text ↔
      text[column]? = some c ∧ modeAt mode passed text column = .code ∧
        modeAt mode passed text (column + 1) = .code := by
  induction text generalizing mode passed start column with
  | nil => simp [codeColumnsFrom]
  | cons d rest ih =>
    rw [codeColumnsFrom]
    cases column with
    | zero =>
      have hlater : ∀ later, (start, c) ∉ codeColumnsFrom later (d :: passed) (start + 1) rest := by
        intro later hmem
        obtain ⟨_, _, _, hcolumn⟩ := mem_codeColumnsFrom hmem
        dsimp only at hcolumn
        omega
      split
      · rename_i hcode
        obtain ⟨rfl, hcode⟩ := hcode
        simp [hlater, hcode, @eq_comm _ c]
      · rename_i hcode
        simp [hlater, hcode]
    | succ column =>
      have hnext : start + (column + 1) = start + 1 + column := by omega
      have hne : start + 1 + column ≠ start := by omega
      have htail := @ih (mode.next passed d rest.head?) (d :: passed) column (start + 1)
      rw [hnext, modeAt_cons_succ, modeAt_cons_succ, List.getElem?_cons_succ, ← htail]
      split
      · simp [hne]
      · rfl

/-- The automaton passes through a string literal behind one column and is led back to code by
the quote at another one. -/
structure ClosesLiteral (mode : Mode) (text : Text) (first last : Nat) : Prop where
  lt : first < last
  quote : text[last]? = some '"'
  inside : ∀ column, first < column → column ≤ last →
    modeAt mode [] text column = .string ∨ modeAt mode [] text column = .stringEscape
  code : modeAt mode [] text (last + 1) = .code

/-- From string mode on the automaton stays in a literal up to the quote at a column, which leads
it back to code. -/
structure EndsString (passed text : Text) (last : Nat) : Prop where
  quote : text[last]? = some '"'
  inside : ∀ column ≤ last,
    modeAt .string passed text column = .string ∨ modeAt .string passed text column = .stringEscape
  code : modeAt .string passed text (last + 1) = .code

/-- The automaton goes through a content and is led back by the quote behind it. -/
theorem endsString_of_content {content : Text} (h : IsLiteralContent content) (passed rest : Text) :
    EndsString passed (content ++ '"' :: rest) content.length := by
  induction h generalizing passed with
  | nil => exact ⟨rfl, by simp, by simp [Mode.next]⟩
  | @plain c others hne hne' _ ih =>
    obtain ⟨-, hinside, hcode⟩ := ih (c :: passed)
    refine ⟨by simp, fun column hle => ?_, by simpa [Mode.next, hne, hne'] using hcode⟩
    cases column with
    | zero => exact .inl (modeAt_zero _ _ _)
    | succ column => simpa [Mode.next, hne, hne'] using hinside column (by simpa using hle)
  | @escaped c others _ _ ih =>
    obtain ⟨-, hinside, hcode⟩ := ih (c :: '\\' :: passed)
    refine ⟨by simp, fun column hle => ?_, by simpa [Mode.next] using hcode⟩
    rcases column with _ | _ | column
    · exact .inl (modeAt_zero _ _ _)
    · exact .inr (by simp [Mode.next])
    · simpa [Mode.next] using hinside column (by simpa using hle)

/-- What the automaton went through on a line is a content. -/
theorem EndsString.exists_content (h : EndsString passed text last) (hline : '\n' ∉ text) :
    ∃ content rest, text = content ++ '"' :: rest ∧ content.length = last ∧
      IsLiteralContent content := by
  induction last using Nat.strong_induction_on generalizing passed text with
  | _ last ih =>
  obtain ⟨hquote, hinside, hcode⟩ := h
  cases text with
  | nil => simp at hquote
  | cons c rest =>
    by_cases hc : c = '"'
    · subst hc
      cases last with
      | zero => exact ⟨[], rest, rfl, rfl, .nil⟩
      | succ last =>
        -- Behind a quote the automaton is in code mode and not inside the literal.
        have hhere := hinside 1 (by omega)
        simp [Mode.next] at hhere
    by_cases hslash : c = '\\'
    · subst hslash
      rcases rest with _ | ⟨d, others⟩
      · cases last <;> simp at hquote
      rcases last with _ | _ | last
      · simp at hquote
      · simp [Mode.next] at hcode
      · rw [List.mem_cons, List.mem_cons, not_or, not_or] at hline
        have hothers : EndsString (d :: '\\' :: passed) others last := by
          refine ⟨by simpa using hquote, fun column hle => ?_, by simpa [Mode.next] using hcode⟩
          simpa [Mode.next] using hinside (column + 2) (by omega)
        obtain ⟨content, behind, rfl, rfl, hcontent⟩ := ih last (by omega) hothers hline.2.2
        exact ⟨'\\' :: d :: content, behind, rfl, rfl, .escaped (Ne.symm hline.2.1) hcontent⟩
    · cases last with
      | zero => exact absurd (Option.some.inj hquote) hc
      | succ last =>
        rw [List.mem_cons, not_or] at hline
        have hothers : EndsString (c :: passed) rest last := by
          refine ⟨by simpa using hquote, fun column hle => ?_,
            by simpa [Mode.next, hc, hslash] using hcode⟩
          simpa [Mode.next, hc, hslash] using hinside (column + 1) (by omega)
        obtain ⟨content, behind, rfl, rfl, hcontent⟩ := ih last (by omega) hothers hline.2
        exact ⟨c :: content, behind, rfl, rfl, .plain hc hslash hcontent⟩

/-- Behind a quote that opens a string literal, the automaton leaves the literal where it leaves
string mode on the rest of the line. -/
theorem closesLiteral_iff (hcode : modeAt mode [] (front ++ '"' :: text) front.length = .code)
    (hstring : modeAt mode [] (front ++ '"' :: text) (front.length + 1) = .string) :
    ClosesLiteral mode (front ++ '"' :: text) front.length last ↔
      ∃ behind, last = front.length + (behind + 1) ∧
        EndsString ('"' :: front.reverse) text behind := by
  have hmode : ∀ column, modeAt mode [] (front ++ '"' :: text) (front.length + (column + 1)) =
      modeAt .string ('"' :: front.reverse) text column := by
    intro column
    have hnext := hstring
    rw [modeAt_append, hcode, List.append_nil, modeAt_cons_succ, modeAt_zero] at hnext
    rw [modeAt_append, hcode, List.append_nil, modeAt_cons_succ, hnext]
  have hchar : ∀ column, (front ++ '"' :: text)[front.length + (column + 1)]? = text[column]? := by
    intro column
    rw [List.getElem?_append_right (by omega), Nat.add_sub_cancel_left, List.getElem?_cons_succ]
  constructor
  · intro h
    obtain ⟨behind, rfl⟩ : ∃ behind, last = front.length + (behind + 1) :=
      ⟨last - front.length - 1, by have := h.lt; omega⟩
    refine ⟨behind, rfl, by rw [← hchar, h.quote], fun column hle => ?_, ?_⟩
    · rw [← hmode]
      exact h.inside _ (by omega) (by omega)
    · rw [← hmode]
      exact h.code
  · rintro ⟨behind, rfl, hquote, hinside, hend⟩
    refine ⟨by omega, by rw [hchar, hquote], fun column hlt hle => ?_, ?_⟩
    · obtain ⟨offset, rfl⟩ : ∃ offset, column = front.length + (offset + 1) :=
        ⟨column - front.length - 1, by omega⟩
      rw [hmode]
      exact hinside offset (by omega)
    · rw [Nat.add_assoc, Nat.add_right_comm, hmode]
      exact hend

namespace Pattern

/-- What the content of a literal is read as. -/
theorem Reaches.isLiteralContent {place later : Position} (h : Reaches literalContent place later) :
    ∃ content, place.after = content ++ later.after ∧ IsLiteralContent content := by
  rw [literalContent, many] at h
  generalize hpattern : loop true (either (noneOf "\"\\") (Pattern.seq "\\" inLine)) = pattern at h
  induction h with
  | stop place => exact ⟨[], rfl, .nil⟩
  | round hbody _ _ ih =>
    cases hpattern
    obtain ⟨content, hafter, hcontent⟩ := ih rfl
    cases hbody with
    | left hplain =>
      cases hplain with
      | @one _ before c rest captures haccepts =>
        refine ⟨c :: content, by rw [List.cons_append, ← hafter], .plain ?_ ?_ hcontent⟩ <;>
          (rintro rfl; exact absurd haccepts (by decide))
    | right hescape =>
      cases hescape with
      | seq hslash hchar =>
        have htext := hslash.text_eq
        cases hchar with
        | @one _ before c rest captures haccepts =>
          refine ⟨'\\' :: c :: content, ?_, .escaped ?_ hcontent⟩
          · rw [htext, List.cons_append, List.cons_append, ← hafter]
            rfl
          · simpa using haccepts
  | _ => cases hpattern

theorem matchAt_literal {content : Text} (h : IsLiteralContent content) (name : String)
    (before : Option Char) (rest : Text) :
    (literal name).matchAt before ('"' :: (content ++ '"' :: rest)) =
      some ⟨some '"', rest, [(name, content)]⟩ :=
  run_literal_content name h some before rest []

/-- A literal is found exactly at the start of a quote, its content and another quote. -/
theorem matchAt_literal_eq_some_iff {name : String} {before : Option Char} {text : Text}
    {place : Position} : (literal name).matchAt before text = some place ↔
      ∃ content rest, text = '"' :: (content ++ '"' :: rest) ∧ IsLiteralContent content ∧
        place = ⟨some '"', rest, [(name, content)]⟩ := by
  constructor
  · intro h
    obtain ⟨later, hlater, hplace⟩ := run_sound h
    obtain ⟨closed, hinside, hclose⟩ := hlater.append
    obtain ⟨opened, hopen, hcapture⟩ := hinside.append
    obtain ⟨middle, hbody, hmiddle⟩ := hcapture.capture_body
    obtain ⟨content, hcontent, hshape⟩ := hbody.isLiteralContent
    rw [hmiddle, hclose.text_eq] at hcontent
    have htext : text = '"' :: (content ++ '"' :: later.after) := by
      rw [← List.singleton_append, ← List.singleton_append]
      exact hopen.text_eq.trans (congrArg _ hcontent)
    refine ⟨content, later.after, htext, hshape, ?_⟩
    rw [htext, matchAt_literal hshape] at h
    exact (Option.some.inj h).symm
  · rintro ⟨content, rest, rfl, hcontent, rfl⟩
    exact matchAt_literal hcontent name before rest

end Pattern

/-! ## Agreement -/

/-- The automaton goes from code mode into a string literal at a quote. -/
theorem exists_opening_quote (hcode : modeAt mode passed text column = .code)
    (hstring : modeAt mode passed text (column + 1) = .string) :
    ∃ front rest, text = front ++ '"' :: rest ∧ front.length = column := by
  induction text generalizing mode passed column with
  | nil =>
    rw [modeAt_nil] at hcode hstring
    rw [hcode] at hstring
    cases hstring
  | cons c rest ih =>
    cases column with
    | zero =>
      rw [modeAt_zero] at hcode
      rw [modeAt_cons_succ, modeAt_zero, hcode] at hstring
      have hquote : c = '"' := by
        by_contra hne
        simp only [Mode.next, hne, if_false] at hstring
        split_ifs at hstring
      exact ⟨[], rest, by rw [hquote]; rfl, rfl⟩
    | succ column =>
      obtain ⟨front, behind, rfl, rfl⟩ := ih hcode hstring
      exact ⟨c :: front, behind, rfl, rfl⟩

/-- On a line the automaton leaves a string literal behind a content as the pattern reads it. -/
theorem closesLiteral_iff_content (hline : '\n' ∉ text)
    (hcode : modeAt mode [] (front ++ '"' :: text) front.length = .code)
    (hstring : modeAt mode [] (front ++ '"' :: text) (front.length + 1) = .string) :
    ClosesLiteral mode (front ++ '"' :: text) front.length last ↔
      ∃ content rest, text = content ++ '"' :: rest ∧ IsLiteralContent content ∧
        last = front.length + (content.length + 1) := by
  rw [closesLiteral_iff hcode hstring]
  constructor
  · rintro ⟨behind, rfl, hends⟩
    obtain ⟨content, rest, rfl, rfl, hcontent⟩ := hends.exists_content hline
    exact ⟨content, rest, rfl, hcontent, rfl⟩
  · rintro ⟨content, rest, rfl, hcontent, rfl⟩
    exact ⟨content.length, rfl, endsString_of_content hcontent _ rest⟩

/-- Where the automaton goes from code into a string literal, the pattern of a literal matches
exactly if the automaton leaves the literal by a quote on the same line, and then the match ends
with that quote. -/
theorem matchAt_literal_iff_closesLiteral (hline : '\n' ∉ line)
    (hcode : modeAt mode [] line column = .code)
    (hstring : modeAt mode [] line (column + 1) = .string) (name : String)
    (before : Option Char) :
    ((∃ place, (Pattern.literal name).matchAt before (line.drop column) = some place) ↔
      ∃ last, ClosesLiteral mode line column last) ∧
    ∀ place last, (Pattern.literal name).matchAt before (line.drop column) = some place →
      ClosesLiteral mode line column last → place.after = line.drop (last + 1) := by
  obtain ⟨front, text, rfl, rfl⟩ := exists_opening_quote hcode hstring
  have htext : '\n' ∉ text := fun hmem => hline (by simp [hmem])
  have hcloses := fun last => @closesLiteral_iff_content mode text front last htext hcode hstring
  rw [List.drop_left]
  constructor
  · constructor
    · rintro ⟨place, hplace⟩
      obtain ⟨content, rest, heq, hcontent, -⟩ := Pattern.matchAt_literal_eq_some_iff.mp hplace
      exact ⟨_, (hcloses _).mpr ⟨content, rest, (List.cons.inj heq).2, hcontent, rfl⟩⟩
    · rintro ⟨last, hlast⟩
      obtain ⟨content, rest, rfl, hcontent, -⟩ := (hcloses last).mp hlast
      exact ⟨_, Pattern.matchAt_literal hcontent name before rest⟩
  · intro place last hplace hlast
    obtain ⟨content, rest, rfl, hcontent, rfl⟩ := (hcloses last).mp hlast
    rw [Pattern.matchAt_literal hcontent] at hplace
    obtain rfl := Option.some.inj hplace
    have hshape : front ++ '"' :: (content ++ '"' :: rest) =
        (front ++ '"' :: content) ++ '"' :: rest := by simp
    have hlength : front.length + (content.length + 1) = (front ++ '"' :: content).length := by
      simp
    rw [hshape, hlength, List.drop_length_add_append]
    rfl

/-- A call whose label holds an escaped quote and ends with two backslashes. -/
def escapedCall : Text := "Tag(\"a\\\"b\\\\\");"

/-- The literal goes up to the quote behind the two backslashes. -/
theorem matchAt_literal_iff_closesLiteral_escapedCall :
    ('\n' ∉ escapedCall ∧ modeAt .code [] escapedCall 4 = .code ∧
      modeAt .code [] escapedCall 5 = .string) ∧
    (∃ last, ClosesLiteral .code escapedCall 4 last) ∧
    ∀ last, ClosesLiteral .code escapedCall 4 last → escapedCall.drop (last + 1) = ");".toList := by
  have hline : '\n' ∉ escapedCall := by decide
  have hcode : modeAt .code [] escapedCall 4 = .code := by decide
  have hstring : modeAt .code [] escapedCall 5 = .string := by decide
  have hcontent : IsLiteralContent "a\\\"b\\\\".toList :=
    .plain (by decide) (by decide) (.escaped (by decide) (.plain (by decide) (by decide)
      (.escaped (by decide) .nil)))
  have hmatch := Pattern.matchAt_literal hcontent "label" none ");".toList
  obtain ⟨hexists, hend⟩ := matchAt_literal_iff_closesLiteral hline hcode hstring "label" none
  exact ⟨⟨hline, hcode, hstring⟩, hexists.mp ⟨_, hmatch⟩,
    fun last hlast => (hend _ last hmatch hlast).symm⟩

end EditorScript
