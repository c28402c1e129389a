import EditorScript.Proofs.NumberReading
import EditorScript.Proofs.ShownStatement

/-!
# Styles as arguments

A written style is one argument of its call: it stands on one line, has no white
space around it and keeps clear of the names of containers.
-/

namespace EditorScript

theorem callArgument_quote (content : Text) : CallArgument (quote content) where
  nonempty := List.cons_ne_nil _ _
  inLine := newline_notMem_quote content
  first := by
    rintro c ⟨⟩
    decide
  last := by
    rw [getLast?_quote]
    rintro c ⟨⟩
    decide

theorem callArgument_newStyleText {base changes : Text} (hbase : '\n' ∉ base)
    (hchanges : '\n' ∉ changes) : CallArgument (newStyleText base changes) := by
  obtain ⟨middle, hends⟩ := newStyleText_ends base changes
  have hword : "new GUIStyle".toList = 'n' :: "ew GUIStyle".toList := by decide
  have hfront : '\n' ∉ "new GUIStyle(".toList := by decide
  have hmiddle : '\n' ∉ ") \x7b ".toList := by decide
  have hback : '\n' ∉ " \x7d".toList := by decide
  have hpieces : ∀ front middle back : Text, '\n' ∉ front → '\n' ∉ middle → '\n' ∉ back →
      '\n' ∉ front ++ base ++ middle ++ changes ++ back := by
    intro front middle back hfront hmiddle hback
    simp only [List.mem_append, not_or]
    exact ⟨⟨⟨⟨hfront, hbase⟩, hmiddle⟩, hchanges⟩, hback⟩
  rw [hword, List.cons_append] at hends
  constructor
  · rw [hends]
    exact List.cons_ne_nil _ _
  · exact hpieces _ _ _ hfront hmiddle hback
  · rw [hends]
    rintro c ⟨⟩
    decide
  · rw [hends, ← List.cons_append, ← List.append_assoc, List.getLast?_concat]
    rintro c ⟨⟩
    decide

/-- Words that no style brings in besides its base: they reach into none of its
fixed texts, no name is one of them, and all use one of the capital letters that no
change uses. -/
def areForeign (words : List Text) : Bool :=
  areQuotable words && decide (Avoids words []) && isFront words "new GUIStyle(" &&
    [") \x7b ", " \x7d", ", ", ");"].all (fun fixed : String => isSeam words fixed.toList) &&
    words.all (·.contains '.') &&
    (words.all (·.contains 'E') || words.all (·.contains 'G'))

/-- What the parts of foreign words keep clear of. -/
structure Foreign (words : List Text) : Prop where
  quotable : areQuotable words
  nil : Avoids words []
  front : isFront words "new GUIStyle("
  middle : isSeam words ") \x7b "
  back : isSeam words " \x7d"
  comma : isSeam words ", "
  close : isSeam words ");"
  point : ∀ word ∈ words, '.' ∈ word
  capital : (∀ word ∈ words, 'E' ∈ word) ∨ ∀ word ∈ words, 'G' ∈ word

theorem foreign_of_areForeign {words : List Text} (h : areForeign words) : Foreign words := by
  simp only [areForeign, Bool.and_eq_true, Bool.or_eq_true, List.all_cons, List.all_nil,
    List.all_eq_true, List.contains_iff_mem, decide_eq_true_eq, and_true] at h
  obtain ⟨⟨⟨⟨⟨hquotable, hnil⟩, hfront⟩, hmiddle, hback, hcomma, hclose⟩, hpoint⟩, hcapital⟩ := h
  exact ⟨hquotable, hnil, hfront, hmiddle, hback, hcomma, hclose, hpoint, hcapital⟩

namespace ElementFields

variable {fields : ElementFields} {usual style : Text}

/-- Changes of a style use none of the capital letters of the classes. -/
theorem capital_notMem_styleChange {change : Text} (h : change ∈ fields.styleChanges) :
    'E' ∉ change ∧ 'G' ∉ change := by
  have hnumber : ∀ size : Int, 'E' ∉ intText size ∧ 'G' ∉ intText size := by
    intro size
    constructor
    all_goals
      intro hmem
      rcases (showsNumber_intText size).mem_cases hmem with hdigit | heq | heq
      · exact absurd hdigit (by decide)
      · exact absurd heq (by decide)
      · exact absurd heq (by decide)
  have hsize : 'E' ∉ "fontSize = ".toList ∧ 'G' ∉ "fontSize = ".toList := by decide
  have hname : ∀ style : FontStyle, 'E' ∉ "fontStyle = FontStyle.".toList ++ Named.name style ∧
      'G' ∉ "fontStyle = FontStyle.".toList ++ Named.name style := by
    intro style
    cases style <;> decide
  have hside : ∀ side : Alignment, 'E' ∉ "alignment = TextAnchor.".toList ++ side.anchor ∧
      'G' ∉ "alignment = TextAnchor.".toList ++ side.anchor := by
    intro side
    cases side <;> decide
  simp only [styleChanges, List.mem_append] at h
  rcases h with (h | h) | h
  · split at h
    · rename_i size _
      split at h
      · simp at h
      · rw [List.mem_singleton.mp h, List.mem_append, List.mem_append, not_or, not_or]
        exact ⟨⟨hsize.1, (hnumber size).1⟩, ⟨hsize.2, (hnumber size).2⟩⟩
    · simp at h
  · split at h
    · simp at h
    · simp at h
    · rename_i style _ _
      rw [List.mem_singleton.mp h]
      exact hname style
  · split at h
    · rename_i side _
      rw [List.mem_singleton.mp h]
      exact hside side
    · simp at h

/-- A written style is the name of one or a new one. -/
theorem style?_cases (h : fields.style? usual = some style) :
    (∃ name, fields.boxStyle = some name ∧ style = quote name) ∨
      style = newStyleText (((present? fields.boxStyle).map quote).getD usual)
        (Text.join ", " fields.styleChanges) := by
  have hstyleable : fields.widget.isStyleable := by
    by_contra hnone
    rw [style?, if_neg hnone] at h
    cases h
  by_cases hchanges : fields.styleChanges = []
  · rw [style?_of_noChanges hstyleable hchanges, Option.map_eq_some_iff] at h
    obtain ⟨name, hname, rfl⟩ := h
    exact .inl ⟨name, eq_some_of_present? hname, rfl⟩
  · rw [style?_of_changes hstyleable hchanges] at h
    exact .inr (Option.some.inj h).symm

theorem callArgument_style (husual : StyleBase usual) (hname : ∀ name ∈ fields.boxStyle, name.all isWord)
    (h : fields.style? usual = some style) : CallArgument style := by
  rcases style?_cases h with ⟨name, -, rfl⟩ | rfl
  · exact callArgument_quote name
  · exact callArgument_newStyleText (styleBase_named (fun name hset =>
      parenthesis_notMem_of_words (hname name hset)) husual).inLine (newline_notMem_changes fields)

/-- A written style keeps clear of foreign words when its base does. -/
theorem avoids_style {words : List Text} (hwords : Foreign words) (husual : Avoids words usual)
    (hname : ∀ name ∈ fields.boxStyle, name.all isWord) (h : fields.style? usual = some style) :
    Avoids words style := by
  have hnamed : ∀ name ∈ fields.boxStyle, Avoids words (quote name) := by
    intro name hset
    have hpoint : '.' ∉ name := fun hmem =>
      absurd (List.all_eq_true.mp (hname name hset) _ hmem) (by decide)
    exact (Avoids.of_notMem hwords.point hpoint).quote hwords.quotable
  rcases style?_cases h with ⟨name, hset, rfl⟩ | rfl
  · exact hnamed name hset
  · have hbase : Avoids words (((present? fields.boxStyle).map quote).getD usual) := by
      cases hset : present? fields.boxStyle with
      | none => exact husual
      | some name => exact hnamed name (eq_some_of_present? hset)
    have hchange : ∀ change ∈ fields.styleChanges, Avoids words change := by
      intro change hchange
      rcases hwords.capital with hcapital | hcapital
      · exact .of_notMem hcapital (capital_notMem_styleChange hchange).1
      · exact .of_notMem hcapital (capital_notMem_styleChange hchange).2
    have hend := (Avoids.join hwords.comma hchange hwords.nil).seam hwords.back hwords.nil
    rw [List.append_nil] at hend
    unfold newStyleText
    rw [List.append_assoc, List.append_assoc, List.append_assoc]
    exact (hbase.seam hwords.middle hend).front hwords.front

/-- So does what follows the other arguments of a call. -/
theorem avoids_styleTail {words : List Text} (hwords : Foreign words)
    (husual : Avoids words usual) (hname : ∀ name ∈ fields.boxStyle, name.all isWord) :
    Avoids words (commaEach (fields.style? usual).toList ++ ");".toList) := by
  have hclose := hwords.nil.seam hwords.close hwords.nil
  rw [List.append_nil, List.nil_append] at hclose
  cases hstyle : fields.style? usual with
  | none => exact hclose
  | some style =>
    have hend := hwords.nil.seam hwords.comma
      ((avoids_style hwords husual hname hstyle).seam hwords.close hwords.nil)
    simpa [commaEach] using hend

end ElementFields

end EditorScript
