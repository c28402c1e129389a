import EditorScript.Emission.Style
import EditorScript.Proofs.CallRun
import EditorScript.Proofs.DigitText
import EditorScript.Proofs.Lines

/-!
# Reading styles back

A written style is read back as the look it stands for: sizes other than zero,
font styles other than the normal one, the alignment, and the name of the style
unless it is the usual one.
-/

namespace EditorScript

open Pattern

/-! ## Searching -/

namespace Pattern

/-- Behind its first character, text is read the same wherever it stands. -/
theorem run_text_before {β : Type} {content : Text} (hne : content ≠ [])
    (next : Position → Option β) (before other : Option Char) (text : Text)
    (captures : List (String × Text)) :
    (Pattern.text content).run next ⟨before, text, captures⟩ =
      (Pattern.text content).run next ⟨other, text, captures⟩ := by
  obtain ⟨c, others, rfl⟩ := List.exists_cons_of_ne_nil hne
  cases text <;> rfl

theorem searchFrom_before {pattern : Pattern}
    (h : ∀ before text, pattern.matchAt before text = pattern.matchAt none text)
    (before : Option Char) (text : Text) :
    pattern.searchFrom before text = pattern.searchFrom none text := by
  cases text <;> simp only [searchFrom, h before]

/-- Places without a match are passed over. -/
theorem search?_append {pattern : Pattern}
    (h : ∀ before text, pattern.matchAt before text = pattern.matchAt none text)
    {front rest : Text}
    (hnone : ∀ skipped others, front = skipped ++ others → others ≠ [] →
      pattern.matchAt none (others ++ rest) = none) :
    pattern.search? (front ++ rest) = pattern.search? rest := by
  induction front with
  | nil => rfl
  | cons c others ih =>
    have hhere : pattern.matchAt none (c :: (others ++ rest)) = none :=
      hnone [] (c :: others) rfl (List.cons_ne_nil _ _)
    have hothers := ih fun skipped left heq => hnone (c :: skipped) left (by rw [heq]; rfl)
    rw [← hothers, search?, search?, List.cons_append, searchFrom, hhere]
    dsimp only
    rw [searchFrom_before h, Option.map_map]
    rfl

theorem search?_of_matchAt {pattern : Pattern} {text : Text} {found : Position}
    (h : pattern.matchAt none text = some found) : pattern.search? text = some found := by
  cases text <;> simp [search?, searchFrom, h]

/-- A pattern that begins with a character matches where that character is only. -/
theorem run_text_ne {β : Type} {c : Char} {content : Text} {text : Text}
    (h : ∀ d ∈ text.head?, d ≠ c) (next : Position → Option β) (before : Option Char)
    (captures : List (String × Text)) :
    (Pattern.text (c :: content)).run next ⟨before, text, captures⟩ = none := by
  cases text with
  | nil => rfl
  | cons d others => simp [Pattern.text, run, h d rfl]

end Pattern

/-! ## Changes of a style -/

/-- The changes of font style and alignment. -/
def namedChanges (style : Option FontStyle) (side : Option Alignment) : List Text :=
  (match style with
    | some .normal | none => []
    | some style => [("fontStyle = FontStyle." : Text) ++ Named.name style]) ++
  (match side with
    | some side => [("alignment = TextAnchor." : Text) ++ side.anchor]
    | none => [])

/-- Items with a comma in front of each. -/
def commaEach (items : List Text) : Text :=
  items.flatMap fun item => ", " ++ item

theorem join_comma_cons (item : Text) (items : List Text) :
    Text.join ", " (item :: items) = item ++ commaEach items := by
  induction items generalizing item with
  | nil => simp [commaEach]
  | cons next others ih =>
    rw [Text.join_cons_cons, ih]
    simp [commaEach]

theorem search?_namedChanges (style : Option FontStyle) (side : Option Alignment) :
    (fontSizeChange.search? (" " ++ Text.join ", " (namedChanges style side) ++ " ")).isNone ∧
      ∀ text ∈ [" " ++ Text.join ", " (namedChanges style side) ++ " ",
          commaEach (namedChanges style side) ++ " "],
        ((fontStyleChange.search? text).bind fun found =>
            Named.ofName? (found.captured "style")) = style.filter (· != .normal) ∧
          ((alignmentChange.search? text).bind fun found =>
            Named.ofName? (found.captured "side")) = side := by
  rcases style with _ | _ | _ | _ | _ <;> rcases side with _ | _ | _ | _ <;> decide

/-- A search that looks for a first character passes over all others. -/
theorem search?_skip {pattern : Pattern} {first : Char}
    (hbefore : ∀ before text, pattern.matchAt before text = pattern.matchAt none text)
    (hfirst : ∀ text : Text, (∀ d ∈ text.head?, d ≠ first) → pattern.matchAt none text = none)
    {front : Text} (hfront : ∀ c ∈ front, c ≠ first) (rest : Text) :
    pattern.search? (front ++ rest) = pattern.search? rest := by
  refine search?_append hbefore fun skipped others heq hne => hfirst _ ?_
  obtain ⟨c, left, rfl⟩ := List.exists_cons_of_ne_nil hne
  rintro d ⟨⟩
  exact hfront c (by rw [heq]; simp)

theorem ne_of_mem_natText {n : Nat} {c d : Char} (hc : c ∈ natText n) (hd : d.isDigit = false) :
    c ≠ d := by
  rintro rfl
  simp [isDigit_of_mem_natText hc] at hd

/-- The size behind its name. -/
theorem search?_fontSize (n : Nat) {rest : Text} (hrest : ∀ c ∈ rest.head?, isDecimal c = false) :
    Gives (fontSizeChange.search? (" fontSize = " ++ (natText n ++ rest)))
      (fun found => decimalValue (found.captured "size") = n) := by
  have hbefore : ∀ before text, fontSizeChange.matchAt before text =
      fontSizeChange.matchAt none text := fun before text =>
    run_text_before (by decide) _ before none text []
  have hfirst : ∀ text : Text, (∀ d ∈ text.head?, d ≠ 'f') →
      fontSizeChange.matchAt none text = none := fun text htext => run_text_ne htext _ none []
  have hshape : (" fontSize = " : Text) ++ (natText n ++ rest) =
      [' '] ++ ("fontSize".toList ++ ' ' :: ("=".toList ++ ' ' :: (natText n ++ rest))) := rfl
  have hmatch : Gives (fontSizeChange.matchAt none
      ("fontSize".toList ++ ' ' :: ("=".toList ++ ' ' :: (natText n ++ rest))))
      (fun found => decimalValue (found.captured "size") = n) := by
    obtain ⟨digit, digits, hdigits⟩ := List.exists_cons_of_ne_nil (natText_ne_nil n)
    have hhead : ∀ c ∈ (natText n ++ rest).head?, isBlank c = false := by
      rw [hdigits]
      rintro c ⟨⟩
      have hdigit : digit.isDigit := isDigit_of_mem_natText (hdigits ▸ List.mem_cons_self)
      exact isBlank_of_isNameChar (isNameChar_of_isDigit hdigit)
    simp only [matchAt, fontSizeChange, assignment, run_append]
    refine run_text (fun before => ?_) none
    refine run_blanks_space (by rintro c ⟨⟩; decide) (fun before => ?_) before
    refine run_text (fun before => run_blanks_space hhead (fun before => ?_) before) before
    refine run_capture_many1 (natText_ne_nil n)
      (fun c hc => isDecimal_of_isDigit (isDigit_of_mem_natText hc)) hrest (fun before => ?_) before
    exact ⟨_, rfl, decimalValue_natText n⟩
  rw [hshape, search?_skip hbefore hfirst (Text.forall_mem_of_all (by decide))]
  obtain ⟨found, hfound, hgood⟩ := hmatch
  exact ⟨found, search?_of_matchAt hfound, hgood⟩

/-- Other changes are found behind a size as they are without it. -/
theorem search?_behind_fontSize (n : Nat) (rest : Text) :
    fontStyleChange.search? (" fontSize = " ++ (natText n ++ rest)) =
        fontStyleChange.search? rest ∧
      alignmentChange.search? (" fontSize = " ++ (natText n ++ rest)) =
        alignmentChange.search? rest := by
  constructor
  · have hbefore : ∀ before text, fontStyleChange.matchAt before text =
        fontStyleChange.matchAt none text := fun before text =>
      run_text_before (by decide) _ before none text []
    have hfirst : ∀ text : Text, (∀ d ∈ text.head?, d ≠ 'f') →
        fontStyleChange.matchAt none text = none := fun text htext => run_text_ne htext _ none []
    have hshape : (" fontSize = " : Text) ++ (natText n ++ rest) =
        [' '] ++ (['f'] ++ ("ontSize = ".toList ++ (natText n ++ rest))) := rfl
    have hsize : ∀ skipped others : Text, ['f'] = skipped ++ others → others ≠ [] →
        fontStyleChange.matchAt none (others ++ ("ontSize = ".toList ++ (natText n ++ rest))) =
          none := by
      intro skipped others heq hne
      obtain rfl : others = ['f'] := by
        cases skipped with
        | nil => exact heq.symm
        | cons c left =>
          have hnil := (List.cons.inj heq).2
          exact absurd (List.append_eq_nil_iff.mp hnil.symm).2 hne
      rfl
    rw [hshape, search?_skip hbefore hfirst (Text.forall_mem_of_all (by decide)), search?_append hbefore hsize,
      search?_skip hbefore hfirst (Text.forall_mem_of_all (by decide)), search?_skip hbefore hfirst
        fun c hc => ne_of_mem_natText hc (by decide)]
  · have hbefore : ∀ before text, alignmentChange.matchAt before text =
        alignmentChange.matchAt none text := fun before text =>
      run_text_before (by decide) _ before none text []
    have hfirst : ∀ text : Text, (∀ d ∈ text.head?, d ≠ 'a') →
        alignmentChange.matchAt none text = none := fun text htext => run_text_ne htext _ none []
    rw [search?_skip hbefore hfirst (Text.forall_mem_of_all (by decide)), search?_skip hbefore hfirst
      fun c hc => ne_of_mem_natText hc (by decide)]

/-! ## New styles -/

/-- The text of the base of a style: one line without parentheses. -/
structure StyleBase (base : Text) : Prop where
  nonempty : base ≠ []
  inLine : '\n' ∉ base
  noParenthesis : ')' ∉ base
  first : ∀ c ∈ base.head?, isBlank c = false
  last : ∀ c ∈ base.getLast?, isBlank c = false

/-- A new style with some changes. -/
def newStyleText (base changes : Text) : Text :=
  "new GUIStyle(" ++ base ++ ") \x7b " ++ changes ++ " \x7d"

private theorem newStyle_front :
    ("new GUIStyle(" : Text) = "new".toList ++ ' ' :: ("GUIStyle".toList ++ "(".toList) := by
  decide

private theorem newStyle_middle :
    (") \x7b " : Text) = ")".toList ++ ' ' :: ("\x7b".toList ++ [' ']) := by
  decide

private theorem newStyle_back : (" \x7d" : Text) = ' ' :: "\x7d".toList := by
  decide

private theorem newStyle_assoc (base changes a b c d e f : Text) :
    (a ++ ' ' :: (b ++ c)) ++ base ++ (d ++ ' ' :: (e ++ [' '])) ++ changes ++ ' ' :: f =
      a ++ ' ' :: (b ++ (c ++ (base ++ (d ++ ' ' :: (e ++
        ((' ' :: (changes ++ [' '])) ++ f)))))) := by
  simp

/-- The parts of a new style, as its pattern reads them. -/
theorem newStyleText_eq (base changes : Text) :
    newStyleText base changes = "new".toList ++ ' ' :: ("GUIStyle".toList ++
      ("(".toList ++ (base ++ (")".toList ++ ' ' :: ("\x7b".toList ++
        ((' ' :: (changes ++ [' '])) ++ "\x7d".toList)))))) := by
  unfold newStyleText
  rw [newStyle_front, newStyle_middle, newStyle_back]
  exact newStyle_assoc base changes _ _ _ _ _ _

private theorem newStyle_word :
    ("new GUIStyle(" : Text) = "new GUIStyle".toList ++ "(".toList := by
  decide

private theorem newStyle_brace : (" \x7d" : Text) = [' ', '\x7d'] := by
  decide

/-- How a new style begins and ends. -/
theorem newStyleText_ends (base changes : Text) :
    ∃ middle, newStyleText base changes =
      "new GUIStyle".toList ++ (middle ++ ['\x7d']) := by
  have hassoc : ∀ a b c d : Text, (a ++ b) ++ base ++ c ++ changes ++ ' ' :: d =
      a ++ ((b ++ (base ++ (c ++ (changes ++ [' '])))) ++ d) := by
    intro a b c d
    simp
  unfold newStyleText
  rw [newStyle_word, newStyle_brace]
  exact ⟨_, hassoc _ _ _ _⟩

theorem getLast?_of_append {front back : Text} (hne : back ≠ []) :
    (front ++ back).getLast? = back.getLast? := by
  rw [List.getLast?_append]
  obtain ⟨last, hlast⟩ := Option.isSome_iff_exists.mp (List.getLast?_isSome.mpr hne)
  simp [hlast]

theorem match?_newStyle {base changes : Text} (hbase : StyleBase base) (hline : '\n' ∉ changes) :
    Gives (newStyle.match? (newStyleText base changes)) (fun found =>
      found.captured "base" = base ∧ found.captured "changes" = ' ' :: (changes ++ [' '])) := by
  have hhead : ∀ rest : Text, ∀ c ∈ (base ++ rest).head?, isBlank c = false := by
    intro rest
    obtain ⟨c, others, rfl⟩ := List.exists_cons_of_ne_nil hbase.nonempty
    exact hbase.first
  have hinner : ∀ c ∈ (' ' :: (changes ++ [' ']) : Text), (c != '\n') = true := by
    intro c hc
    simp only [List.mem_cons, List.mem_append, List.not_mem_nil, or_false] at hc
    rcases hc with rfl | hc | rfl
    · decide
    · exact bne_iff_ne.mpr fun (hnewline : _ = '\n') => hline (hnewline ▸ hc)
    · decide
  rw [newStyleText_eq]
  simp only [match?, matchAt, newStyle, run_append, run_start]
  refine run_text (fun before => ?_) none
  refine run_many1 (List.cons_ne_nil ' ' []) (List.forall_mem_singleton.mpr (by decide))
    (by rintro c ⟨⟩; decide) (fun before => ?_) before
  refine run_text (fun before => ?_) before
  refine run_blanks_none (by rintro c ⟨⟩; decide) (fun before => ?_) before
  refine run_text (fun before => ?_) before
  refine run_blanks_none (hhead _) (fun before => ?_) before
  refine run_capture_few1 hbase.nonempty
    (fun c hc => bne_iff_ne.mpr fun (hnewline : c = '\n') => hbase.inLine (hnewline ▸ hc)) ?_
    (fun before => ?_) before
  · intro front back heq hne before captures
    refine run_blanks_text_none hne (fun c hc => hbase.last c ?_) (fun hmem => ?_) _ _ _
    · rw [heq, getLast?_of_append hne]
      exact hc
    · exact hbase.noParenthesis (heq ▸ List.mem_append_right _ hmem)
  refine run_blanks_none (by rintro c ⟨⟩; decide) (fun before => ?_) before
  refine run_text (fun before => ?_) before
  refine run_blanks_space (by rintro c ⟨⟩; decide) (fun before => ?_) before
  refine run_text (fun before => ?_) before
  refine run_capture_many_until hinner ?_ (fun before => ?_) before
  · intro front back heq hne before captures
    cases front with
    | nil => exact absurd rfl hne
    | cons c others =>
      have hnil : others ++ back = [] := (List.cons.inj heq).2.symm
      rw [(List.append_eq_nil_iff.mp hnil).2]
      rfl
  have hend : "\x7d".toList = "\x7d".toList ++ [] := by simp
  rw [hend]
  refine run_text (fun before => ?_) before
  exact ⟨_, rfl, rfl, rfl⟩

end EditorScript
