import EditorScript.Proofs.ClosedElement
import EditorScript.Proofs.StyleReading

/-!
# Looks read back

The look of an element is what its style says: a style of another name than the
usual one, a size other than zero, a font style other than the normal one, and
the alignment.  An element that is written with its style gets this look back.
-/

namespace EditorScript

open Pattern

/-- Text without outer white space is trimmed already. -/
theorem Text.trim_eq_self {text : Text} (hfirst : ∀ c ∈ text.head?, isBlank c = false)
    (hlast : ∀ c ∈ text.getLast?, isBlank c = false) : text.trim = text := by
  have hdrop : ∀ {content : Text}, (∀ c ∈ content.head?, isBlank c = false) →
      content.dropWhile isBlank = content := by
    intro content hhead
    cases content with
    | nil => rfl
    | cons c rest => simp [hhead c rfl]
  have hleft : text.trimLeft = text := hdrop hfirst
  have hreverse : ∀ c ∈ text.reverse.head?, isBlank c = false := by
    rwa [List.head?_reverse]
  rw [trim, hleft, trimRight, dropRightWhile, hdrop hreverse, List.reverse_reverse]

namespace ElementFields

/-- The fields with the look that `shown` has, `usual` being the style of calls
without one. -/
def withLook (fields shown : ElementFields) (usual : Text) : ElementFields :=
  { fields with
    boxStyle := (present? shown.boxStyle).filter (quote · != usual)
    fontSize := shown.fontSize.filter (· != 0)
    fontStyle := shown.fontStyle.filter (· != .normal)
    alignment := shown.alignment }

/-- Fields that say nothing about the look. -/
structure Lookless (fields : ElementFields) : Prop where
  boxStyle : fields.boxStyle = none
  fontSize : fields.fontSize = none
  fontStyle : fields.fontStyle = none
  alignment : fields.alignment = none

/-- Fields whose style can be read back: the name of the style is a word and the
size is not negative. -/
structure HasReadableStyle (fields : ElementFields) : Prop where
  word : ∀ name ∈ fields.boxStyle, name.all isWord
  size : ∀ size ∈ fields.fontSize, 0 ≤ size

theorem styleChanges_eq (fields : ElementFields) :
    fields.styleChanges =
      (match fields.fontSize with
        | some size => if size = 0 then [] else [("fontSize = " : Text) ++ intText size]
        | none => []) ++ namedChanges fields.fontStyle fields.alignment := by
  unfold styleChanges namedChanges
  exact List.append_assoc _ _ _

end ElementFields

/-- The changes inside the braces of a new style. -/
def changesInside (changes : List Text) : Text :=
  ' ' :: (Text.join ", " changes ++ [' '])

/-- The font style that a list of changes says. -/
def fontStyleIn (changes : Text) : Option FontStyle :=
  (fontStyleChange.search? changes).bind fun found => Named.ofName? (found.captured "style")

/-- The alignment that a list of changes says. -/
def alignmentIn (changes : Text) : Option Alignment :=
  (alignmentChange.search? changes).bind fun found => Named.ofName? (found.captured "side")

/-- The size that a list of changes says. -/
def fontSizeIn (changes : Text) : Option Int :=
  (fontSizeChange.search? changes).map fun found => (decimalValue (found.captured "size") : Int)

private theorem isDecimal_head_commaEach (items : List Text) :
    ∀ c ∈ (commaEach items ++ [' ']).head?, isDecimal c = false := by
  cases items with
  | nil =>
    rintro c ⟨⟩
    decide
  | cons item others =>
    rintro c ⟨⟩
    decide

/-- Written changes are read back. -/
theorem changesIn_styleChanges {fields : ElementFields} (h : ∀ size ∈ fields.fontSize, 0 ≤ size) :
    fontSizeIn (changesInside fields.styleChanges) = fields.fontSize.filter (· != 0) ∧
      fontStyleIn (changesInside fields.styleChanges) = fields.fontStyle.filter (· != .normal) ∧
      alignmentIn (changesInside fields.styleChanges) = fields.alignment := by
  obtain ⟨hnosize, hnamed⟩ := search?_namedChanges fields.fontStyle fields.alignment
  have hplain := hnamed _ List.mem_cons_self
  have hbehind := hnamed _ (List.mem_cons_of_mem _ List.mem_cons_self)
  have hwithout : fields.fontSize.filter (· != 0) = none →
      fields.styleChanges = namedChanges fields.fontStyle fields.alignment → 
      fontSizeIn (changesInside fields.styleChanges) = fields.fontSize.filter (· != 0) ∧
      fontStyleIn (changesInside fields.styleChanges) = fields.fontStyle.filter (· != .normal) ∧
      alignmentIn (changesInside fields.styleChanges) = fields.alignment := by
    intro hsize hchanges
    rw [hsize, hchanges]
    refine ⟨?_, hplain⟩
    exact Option.map_eq_none_iff.mpr (Option.isNone_iff_eq_none.mp hnosize)
  have hshape := fields.styleChanges_eq
  cases hsize : fields.fontSize with
  | none =>
    rw [hsize] at hshape hwithout
    exact hwithout rfl hshape
  | some size =>
    rw [hsize] at hshape hwithout
    by_cases hzero : size = 0
    · subst hzero
      exact hwithout rfl hshape
    · have hpositive : 0 ≤ size := h size hsize
      have hsome : (some size).filter (· != 0) = some size := by simp [hzero]
      have hinside : changesInside fields.styleChanges = " fontSize = ".toList ++
          (natText size.natAbs ++
            (commaEach (namedChanges fields.fontStyle fields.alignment) ++ [' '])) := by
        have hfront : (" fontSize = " : Text) = ' ' :: "fontSize = ".toList := by decide
        rw [hshape, changesInside]
        simp only [hzero, if_false, List.singleton_append]
        rw [join_comma_cons, intText_of_nonneg hpositive, hfront]
        simp only [List.cons_append, List.append_assoc]
      obtain ⟨found, hfound, hvalue⟩ := search?_fontSize size.natAbs
        (isDecimal_head_commaEach (namedChanges fields.fontStyle fields.alignment))
      obtain ⟨hstyle, hside⟩ := search?_behind_fontSize size.natAbs
        (commaEach (namedChanges fields.fontStyle fields.alignment) ++ [' '])
      rw [hinside, hsome]
      refine ⟨?_, ?_, ?_⟩
      · rw [fontSizeIn, hfound]
        simp only [Option.map_some, hvalue, Option.some.injEq]
        omega
      · rw [fontStyleIn, hstyle]
        exact hbehind.1
      · rw [alignmentIn, hside]
        exact hbehind.2

/-! ## Style expressions -/

theorem getLast?_quote (content : Text) : (quote content).getLast? = some '"' := by
  rw [quote_eq]
  exact List.getLast?_concat (l := '"' :: escape content)

/-- A literal of words holds no parenthesis. -/
theorem parenthesis_notMem_of_words {name : Text} (h : name.all isWord) : ')' ∉ name :=
  fun hmem => absurd (List.all_eq_true.mp h _ hmem) (by decide)

/-- Escaping brings in no character but the marks of its own. -/
theorem notMem_escape {c : Char} (hmark : c ∉ "\\\"nt".toList) {content : Text}
    (h : c ∉ content) : c ∉ escape content := by
  intro hmem
  obtain ⟨d, hd, hmem⟩ := List.mem_flatMap.mp hmem
  have hne : c ≠ d := fun heq => h (heq ▸ hd)
  unfold escapeChar at hmem
  split_ifs at hmem <;> simp_all

theorem styleBase_quote {name : Text} (h : ')' ∉ name) : StyleBase (quote name) where
  nonempty := List.cons_ne_nil _ _
  inLine := newline_notMem_quote name
  noParenthesis := by
    simp only [quote_eq, List.mem_cons, List.mem_append, List.not_mem_nil, or_false, not_or]
    exact ⟨by decide, notMem_escape (by decide) h, by decide⟩
  first := by
    rintro c ⟨⟩
    decide
  last := by
    rw [getLast?_quote]
    rintro c ⟨⟩
    decide

/-- A literal alone is matched as a whole. -/
theorem matchAll?_quote (name : String) (content : Text) :
    (literal name).matchAll? (quote content) = some ⟨some '"', [], [(name, escape content)]⟩ := by
  have hend : quote content = quote content ++ [] := (List.append_nil _).symm
  rw [matchAll?, match?, matchAt, run_append, hend, run_literal]
  rfl

/-- A literal alone is read as its content. -/
theorem literalText?_quote (content : Text) : literalText? (quote content) = some content := by
  rw [literalText?, matchAll?_quote]
  exact congrArg some (unescape_escape content)

/-- A text that begins like a style and has no outer white space is its own
trimmed form. -/
theorem trim_quote (content : Text) : (quote content).trim = quote content := by
  refine Text.trim_eq_self ?_ ?_
  · rintro c ⟨⟩
    decide
  · rw [getLast?_quote]
    rintro c ⟨⟩
    decide

theorem trim_newStyleText (base changes : Text) :
    (newStyleText base changes).trim = newStyleText base changes := by
  obtain ⟨middle, hends⟩ := newStyleText_ends base changes
  rw [hends]
  refine Text.trim_eq_self ?_ ?_
  · rintro c ⟨⟩
    decide
  · rw [← List.append_assoc, List.getLast?_concat]
    rintro c ⟨⟩
    decide

theorem isStyleExpression_quote (content : Text) : isStyleExpression (quote content) := by
  rw [isStyleExpression, trim_quote]
  exact List.any_eq_true.mpr ⟨['"'], by decide, rfl⟩

theorem isStyleExpression_newStyleText (base changes : Text) :
    isStyleExpression (newStyleText base changes) := by
  obtain ⟨middle, hends⟩ := newStyleText_ends base changes
  rw [isStyleExpression, trim_newStyleText, hends]
  refine List.any_eq_true.mpr ⟨"new GUIStyle".toList, List.mem_cons_self, ?_⟩
  exact List.isPrefixOf_iff_prefix.mpr (List.prefix_append _ _)

theorem match?_newStyle_quote (content : Text) : newStyle.match? (quote content) = none := rfl

namespace ElementFields

variable {fields shown : ElementFields} {usual : Text}

/-- The name of the style that a base says. -/
theorem boxStyle_of_base (usual : Text) (named : Option Text) :
    (if (named.map quote).getD usual = usual then none
      else literalText? ((named.map quote).getD usual)) = named.filter (quote · != usual) := by
  cases named with
  | none => simp
  | some name =>
    by_cases hsame : quote name = usual
    · simp [hsame, Option.filter]
    · simp [hsame, Option.filter, literalText?_quote]

theorem withStyle?_quote (hfields : fields.Lookless) (name usual : Text) :
    fields.withStyle? (quote name) usual =
      some { fields with boxStyle := (some name).filter (quote · != usual) } := by
  have hbox := boxStyle_of_base usual (some name)
  simp only [Option.map_some, Option.getD_some] at hbox
  have hsize : fontSizeIn [] = none := by decide
  have hstyle : fontStyleIn [] = none := by decide
  have hside : alignmentIn [] = none := by decide
  simp only [fontSizeIn, fontStyleIn, alignmentIn] at hsize hstyle hside
  simp only [withStyle?, trim_quote, isStyleExpression_quote, match?_newStyle_quote, hbox,
    hsize, hstyle, hside, hfields.boxStyle, hfields.fontSize, hfields.fontStyle,
    hfields.alignment, Option.or_none, Bool.not_true, Bool.false_eq_true, if_false]

theorem style?_of_changes (hstyleable : shown.widget.isStyleable)
    (hchanges : shown.styleChanges ≠ []) :
    shown.style? usual = some (newStyleText (((present? shown.boxStyle).map quote).getD usual)
      (Text.join ", " shown.styleChanges)) := by
  rw [style?, if_pos hstyleable]
  cases h : shown.styleChanges with
  | nil => exact absurd h hchanges
  | cons change others => rfl

theorem style?_of_noChanges (hstyleable : shown.widget.isStyleable)
    (hchanges : shown.styleChanges = []) :
    shown.style? usual = (present? shown.boxStyle).map quote := by
  rw [style?, if_pos hstyleable, hchanges]

theorem newline_notMem_changes (fields : ElementFields) :
    '\n' ∉ Text.join ", " fields.styleChanges := by
  have hneutral : Neutral (Text.join ", " fields.styleChanges ++ [' ']) :=
    neutral_join_append (fun _ hchange => (neutral_styleChange hchange).separable)
      (loose_of_tame (by decide) (List.cons_ne_nil _ _))
  have hline := (hneutral [] calm_nil).oneLine
  exact fun hmem => hline (List.mem_append_left _ hmem)

/-- An element that changes nothing has at most a style of another name. -/
theorem look_of_noChanges (hsize : ∀ size ∈ shown.fontSize, 0 ≤ size)
    (hchanges : shown.styleChanges = []) :
    shown.fontSize.filter (· != 0) = none ∧ shown.fontStyle.filter (· != .normal) = none ∧
      shown.alignment = none := by
  have hread := changesIn_styleChanges hsize
  rw [hchanges] at hread
  obtain ⟨hsize, hstyle, hside⟩ := hread
  rw [← hsize, ← hstyle, ← hside]
  decide

/-- The fields with a look put together from its parts. -/
theorem withLook_eq (hfields : fields.Lookless) {name : Option Text} {size : Option Int}
    {style : Option FontStyle} {side : Option Alignment}
    (hname : (present? shown.boxStyle).filter (quote · != usual) = name)
    (hsize : shown.fontSize.filter (· != 0) = size)
    (hstyle : shown.fontStyle.filter (· != .normal) = style) (hside : shown.alignment = side) :
    some { fields with
      boxStyle := name.or fields.boxStyle
      fontSize := size.or fields.fontSize
      fontStyle := style.or fields.fontStyle
      alignment := side.or fields.alignment } = some (fields.withLook shown usual) := by
  simp only [withLook, hname, hsize, hstyle, hside, hfields.boxStyle, hfields.fontSize,
    hfields.fontStyle, hfields.alignment, Option.or_none]

theorem styleBase_named (hname : ∀ name ∈ shown.boxStyle, ')' ∉ name)
    (husual : StyleBase usual) :
    StyleBase (((present? shown.boxStyle).map quote).getD usual) := by
  cases hnamed : present? shown.boxStyle with
  | none => exact husual
  | some name => exact styleBase_quote (hname name (eq_some_of_present? hnamed))

theorem trim_styleBase {base : Text} (h : StyleBase base) : base.trim = base :=
  Text.trim_eq_self h.first h.last

/-- A new style is read back. -/
theorem withStyle?_newStyle (hfields : fields.Lookless) (hsize : ∀ size ∈ shown.fontSize, 0 ≤ size)
    (hname : ∀ name ∈ shown.boxStyle, ')' ∉ name) (husual : StyleBase usual) :
    fields.withStyle? (newStyleText (((present? shown.boxStyle).map quote).getD usual)
      (Text.join ", " shown.styleChanges)) usual = some (fields.withLook shown usual) := by
  have hbase := styleBase_named hname husual
  obtain ⟨found, hfound, hcaptured, hchanges⟩ :=
    match?_newStyle hbase (newline_notMem_changes shown)
  obtain ⟨hsize, hstyle, hside⟩ := changesIn_styleChanges hsize
  rw [← withLook_eq hfields rfl hsize.symm hstyle.symm hside.symm]
  have hbox := boxStyle_of_base usual (present? shown.boxStyle)
  simp only [withStyle?, trim_newStyleText, isStyleExpression_newStyleText, hfound, hcaptured,
    hchanges, trim_styleBase hbase, hbox, Bool.not_true, Bool.false_eq_true, if_false]
  rfl

/-- A written style is read back as the look it stands for when the name of the style holds
no closing parenthesis. -/
theorem applyStyle?_style_of_notMem (hfields : fields.Lookless)
    (hstyleable : shown.widget.isStyleable) (hsize : ∀ size ∈ shown.fontSize, 0 ≤ size)
    (hname : ∀ name ∈ shown.boxStyle, ')' ∉ name) (husual : StyleBase usual) :
    fields.applyStyle? (shown.style? usual) usual = some (fields.withLook shown usual) := by
  by_cases hchanges : shown.styleChanges = []
  · obtain ⟨hsize, hstyle, hside⟩ := look_of_noChanges hsize hchanges
    rw [style?_of_noChanges hstyleable hchanges]
    cases hnamed : present? shown.boxStyle with
    | none =>
      rw [← withLook_eq hfields (congrArg _ hnamed) hsize hstyle hside]
      rfl
    | some name =>
      have hread := withStyle?_quote hfields name usual
      rw [← withLook_eq hfields (congrArg _ hnamed) hsize hstyle hside, hfields.boxStyle,
        Option.or_none]
      exact hread
  · rw [style?_of_changes hstyleable hchanges]
    exact withStyle?_newStyle hfields hsize hname husual

theorem HasReadableStyle.noParenthesis (h : shown.HasReadableStyle) :
    ∀ name ∈ shown.boxStyle, ')' ∉ name :=
  fun name hname => parenthesis_notMem_of_words (h.word name hname)

/-- A written style is read back as the look it stands for. -/
theorem applyStyle?_style (hfields : fields.Lookless) (hstyleable : shown.widget.isStyleable)
    (hshown : shown.HasReadableStyle) (husual : StyleBase usual) :
    fields.applyStyle? (shown.style? usual) usual = some (fields.withLook shown usual) :=
  applyStyle?_style_of_notMem hfields hstyleable hshown.size hshown.noParenthesis husual

end ElementFields

end EditorScript
