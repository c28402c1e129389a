import EditorScript.Proofs.Lines
import EditorScript.Proofs.Nesting

/-!
# Pieces of written lines

Written lines are put together from names, fixed texts and literals.  A piece is
neutral when it is read back to code mode and leaves the depth of braces as it
is.  Neutral pieces can be put behind each other; a literal needs another
character behind it before the next literal, since an `@` at its end would still
be near.
-/

namespace EditorScript

/-- A character that is code everywhere on a line and no brace; an `@` is left
out for what it makes of a quote behind it. -/
def isTame (c : Char) : Bool :=
  isPlain c && c != '{' && c != '}' && c != '@' && c != '\n'

/-- A piece of one line that is read from code mode to code mode behind `passed`,
leaves the depth of braces as it is, and can be followed by a literal. -/
structure NeutralBehind (passed piece : Text) : Prop where
  oneLine : '\n' ∉ piece
  calm : Calm (piece.reverse ++ passed)
  reads : ∃ chars, Reads passed piece chars ∧ ∀ depth, nesting? depth chars = some depth

/-- A piece that is neutral wherever a literal could stand. -/
def Neutral (piece : Text) : Prop :=
  ∀ passed, Calm passed → NeutralBehind passed piece

/-- A piece that is neutral right behind a literal, too. -/
def Loose (piece : Text) : Prop :=
  ∀ passed, '@' ∉ passed.take 1 → NeutralBehind passed piece

/-- A piece, such as a literal, that is neutral together with what separates it
from the next one. -/
def Separable (piece : Text) : Prop :=
  ∀ rest, Loose rest → Neutral (piece ++ rest)

theorem Calm.take_one {passed : Text} (h : Calm passed) : '@' ∉ passed.take 1 :=
  fun hmem => h (List.take_subset_take_left passed (by decide) hmem)

theorem NeutralBehind.append {passed first second : Text} (h : NeutralBehind passed first)
    (h' : NeutralBehind (first.reverse ++ passed) second) :
    NeutralBehind passed (first ++ second) := by
  obtain ⟨chars, hreads, hdepth⟩ := h.reads
  obtain ⟨others, hreads', hdepth'⟩ := h'.reads
  refine ⟨by simp [h.oneLine, h'.oneLine], by simpa using h'.calm, chars ++ others,
    hreads.append hreads', fun depth => ?_⟩
  rw [nesting?_append, hdepth]
  exact hdepth' depth

theorem Neutral.append {first second : Text} (h : Neutral first) (h' : Neutral second) :
    Neutral (first ++ second) := fun passed hcalm =>
  (h passed hcalm).append (h' _ (h passed hcalm).calm)

theorem Loose.neutral {piece : Text} (h : Loose piece) : Neutral piece :=
  fun passed hcalm => h passed hcalm.take_one

theorem Loose.append {first second : Text} (h : Loose first) (h' : Neutral second) :
    Loose (first ++ second) := fun passed hpassed =>
  (h passed hpassed).append (h' _ (h passed hpassed).calm)

theorem Neutral.separable {piece : Text} (h : Neutral piece) : Separable piece :=
  fun _ hrest => h.append hrest.neutral

theorem Separable.append {first second : Text} (h : Separable first) (h' : Loose second) :
    Neutral (first ++ second) := h second h'

theorem neutral_nil : Neutral [] := fun passed hcalm =>
  ⟨by simp, by simpa using hcalm, [], .done passed, fun _ => rfl⟩

theorem isPlain_of_isTame {c : Char} (h : isTame c) : isPlain c := by
  simp only [isTame, Bool.and_eq_true] at h
  exact h.1.1.1.1

theorem all_isPlain_of_tame {text : Text} (h : text.all isTame) : text.all isPlain :=
  List.all_eq_true.mpr fun c hc => isPlain_of_isTame (List.all_eq_true.mp h c hc)

theorem ne_of_isWord {c d : Char} (h : isWord c) (hd : isWord d = false) : c ≠ d := by
  rintro rfl
  rw [h] at hd
  cases hd

/-- The characters of words are code everywhere. -/
theorem isTame_of_isWord {c : Char} (h : isWord c) : isTame c := by
  have hne := fun d => @ne_of_isWord c d h
  have h1 := hne '/' (by decide)
  have h2 := hne '"' (by decide)
  have h3 := hne '\'' (by decide)
  have h4 := hne '\x7b' (by decide)
  have h5 := hne '\x7d' (by decide)
  have h6 := hne '@' (by decide)
  have h7 := hne '\n' (by decide)
  simp [isTame, isPlain, h1, h2, h3, h4, h5, h6, h7]

theorem isPlain_of_isWord {c : Char} (h : isWord c) : isPlain c :=
  isPlain_of_isTame (isTame_of_isWord h)

theorem tame_of_word {word : Text} (h : ∀ c ∈ word, isWord c) : word.all isTame :=
  List.all_eq_true.mpr fun c hc => isTame_of_isWord (h c hc)

theorem tame_append {first second : Text} (h : first.all isTame) (h' : second.all isTame) :
    (first ++ second).all isTame := by
  rw [List.all_append, h, h']
  rfl

private theorem reads_of_tame {piece : Text} (h : piece.all isTame) (passed : Text) :
    '\n' ∉ piece ∧ '@' ∉ piece ∧
      ∃ chars, Reads passed piece chars ∧ ∀ depth, nesting? depth chars = some depth := by
  have hmem : ∀ c ∈ piece, isPlain c ∧ c ≠ '{' ∧ c ≠ '}' ∧ c ≠ '@' ∧ c ≠ '\n' := by
    intro c hc
    have := List.all_eq_true.mp h c hc
    simpa [isTame, and_assoc] using this
  exact ⟨fun hin => (hmem _ hin).2.2.2.2 rfl, fun hin => (hmem _ hin).2.2.2.1 rfl, piece,
    .of_plain (List.all_eq_true.mpr fun c hc => (hmem c hc).1) passed,
    nesting?_of_noBrace fun c hc => ⟨(hmem c hc).2.1, (hmem c hc).2.2.1⟩⟩

/-- Tame characters are neutral. -/
theorem neutral_of_tame {piece : Text} (h : piece.all isTame) : Neutral piece := by
  intro passed hcalm
  obtain ⟨hline, hat, hreads⟩ := reads_of_tame h passed
  refine ⟨hline, fun hmem => ?_, hreads⟩
  rw [List.take_append, List.mem_append] at hmem
  rcases hmem with hmem | hmem
  · exact hat (by simpa using List.mem_of_mem_take hmem)
  · exact hcalm (List.take_subset_take_left passed (by omega) hmem)

theorem loose_of_tame {piece : Text} (h : piece.all isTame) (hne : piece ≠ []) :
    Loose piece := by
  intro passed hpassed
  obtain ⟨hline, hat, hreads⟩ := reads_of_tame h passed
  refine ⟨hline, fun hmem => ?_, hreads⟩
  rw [List.take_append, List.mem_append] at hmem
  rcases hmem with hmem | hmem
  · exact hat (by simpa using List.mem_of_mem_take hmem)
  · have hlength : 0 < piece.length := List.length_pos_iff.mpr hne
    exact hpassed (List.take_subset_take_left passed (by simp; omega) hmem)

/-- Fixed texts between the parts of a statement. -/
theorem neutral_literal {characters : List Char} (h : characters.all isTame) :
    Neutral (String.ofList characters).toList :=
  Text.literal (neutral_of_tame h)

theorem loose_literal {characters : List Char} (h : characters.all isTame)
    (hne : characters ≠ []) : Loose (String.ofList characters).toList :=
  Text.literal (loose_of_tame h hne)

theorem newline_notMem_quote (content : Text) : '\n' ∉ quote content := by
  have hescape : '\n' ∉ escape content := by
    induction content with
    | nil => simp
    | cons c rest ih =>
      rw [escape_cons, List.mem_append, not_or]
      refine ⟨?_, ih⟩
      unfold escapeChar
      split_ifs <;> simp_all [eq_comm]
  simp [quote_eq, hescape]

/-- A literal is neutral as soon as something else follows. -/
theorem separable_quote (content : Text) : Separable (quote content) := by
  intro rest hrest passed hcalm
  have hquote : '@' ∉ ((quote content).reverse ++ passed).take 1 := by simp [quote_eq]
  obtain ⟨hline, hcalm', chars, hreads, hdepth⟩ := hrest _ hquote
  exact ⟨by simp [newline_notMem_quote, hline], by simpa using hcalm', chars,
    .quoted content hcalm hreads, hdepth⟩

/-- Pieces with commas between them, and more behind the last one. -/
theorem neutral_join_append {pieces : List Text} (h : ∀ piece ∈ pieces, Separable piece)
    {rest : Text} (hrest : Loose rest) : Neutral (Text.join ", " pieces ++ rest) := by
  induction pieces with
  | nil => exact hrest.neutral
  | cons piece others ih =>
    have hothers := ih fun other hother => h other (List.mem_cons_of_mem _ hother)
    cases others with
    | nil => simpa using h piece List.mem_cons_self rest hrest
    | cons next others =>
      rw [Text.join_cons_cons, List.append_assoc, List.append_assoc]
      exact h piece List.mem_cons_self _
        ((loose_of_tame (by decide) (by decide)).append hothers)

/-- Braces around a neutral piece. -/
theorem loose_braces {piece : Text} (h : Neutral piece) : Loose ('{' :: (piece ++ ['}'])) := by
  intro passed hpassed
  have hcalm : Calm ('{' :: passed) := by
    simpa [Calm, List.take_succ_cons] using hpassed
  obtain ⟨hline, hcalm', chars, hreads, hdepth⟩ := h _ hcalm
  refine ⟨by simp [hline], ?_, '{' :: (chars ++ ['}']), ?_, fun depth => ?_⟩
  · have := hcalm'.take_one
    simpa [Calm, List.take_succ_cons] using this
  · exact .plain rfl (hreads.append (.of_plain rfl _))
  · simp [nesting?, nesting?_append, hdepth]

theorem calm_nil : Calm [] := by decide

/-- A neutral line leaves the depth as it is. -/
theorem Nests.of_neutral {line : Text} (h : Neutral line) (depth : Nat) :
    Nests depth [line] depth := by
  obtain ⟨-, -, chars, hreads, hdepth⟩ := h [] calm_nil
  exact .of_reads hreads (hdepth depth)

/-- A comment at the end of a neutral line does not count. -/
theorem Nests.of_neutral_comment {line : Text} (h : Neutral line) (comment : Text)
    (depth : Nat) : Nests depth [line ++ '/' :: '/' :: comment] depth := by
  obtain ⟨-, -, chars, hreads, hdepth⟩ := h [] calm_nil
  refine ⟨hreads.lineEnd_comment comment, ?_⟩
  rw [codeText_cons, hreads.lineChars_comment, codeText_nil, List.append_nil]
  exact hdepth depth

theorem Neutral.lines_eq {line : Text} (h : Neutral line) : line.lines = [line] :=
  Text.lines_eq_singleton (h [] calm_nil).oneLine

/-- A neutral line on its own is lexically closed. -/
theorem Neutral.lexicallyClosed {line : Text} (h : Neutral line) : LexicallyClosed line := by
  rw [LexicallyClosed, h.lines_eq]
  exact .of_neutral h 0

/-- Texts put together keep what their lines lead to. -/
theorem nests_unlines_iff {pieces : List Text} (hne : pieces ≠ []) (depth later : Nat) :
    Nests depth (Text.unlines pieces).lines later ↔
      Nests depth (pieces.flatMap Text.lines) later := by
  rw [Text.lines_unlines hne]

end EditorScript
