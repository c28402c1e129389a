import EditorScript.Proofs.BlockBetween
import EditorScript.Proofs.ClickBlock
import EditorScript.Proofs.ClosedElement
import EditorScript.Proofs.ContainerReading
import EditorScript.Proofs.Dedenting
import EditorScript.Proofs.ReadBack
import EditorScript.Proofs.UnbrokenCode

/-!
# Buttons that are written and recovered

The click block of a button is moved to the margin of its level.  Recovery drops that
margin, so the block is written again as it was.
-/

namespace EditorScript

open Step

/-! ## Code at a margin -/

/-- Code that gets its margin back when it has lost it, and is more than white space. -/
structure StandsAt (count : Nat) (code : Text) : Prop where
  reindent : Text.reindent count code.dedent = code
  visible : code.dedent.blank = false

/-- One line that begins behind a margin. -/
structure LineAt (count : Nat) (code : Text) : Prop where
  shape : ∃ c rest, code = Text.spaces count ++ c :: rest ∧ isBlank c = false ∧ Unbroken (c :: rest)

theorem Inline.lineAt {code : Text} (h : Inline code) (count : Nat) :
    LineAt count (Text.spaces count ++ code) := by
  obtain ⟨c, rest, rfl, hblank⟩ := h.exists_cons
  exact ⟨c, rest, rfl, hblank, h.2⟩

/-- A line loses its whole margin. -/
theorem dedent_line {c : Char} {rest : Text} (hblank : isBlank c = false)
    (hunbroken : Unbroken (c :: rest)) (count : Nat) :
    (Text.spaces count ++ c :: rest).dedent = c :: rest := by
  have hspace : c ≠ ' ' := fun heq => by
    rw [heq, isBlank_space] at hblank
    cases hblank
  have hnewline : '\n' ∉ Text.spaces count ++ c :: rest := by
    simpa [Text.spaces] using hunbroken.1
  have htab : '\t' ∉ Text.spaces count ++ c :: rest := by
    simpa [Text.spaces] using hunbroken.2
  have hshown : Text.onlySpaces (Text.spaces count ++ c :: rest) = false := by
    rw [Text.onlySpaces_spaces_append]
    simp [Text.onlySpaces, hspace]
  have hcommon : Text.commonMargin [Text.spaces count ++ c :: rest] = count := by
    have hwidth : Text.margin (Text.spaces count ++ c :: rest) = count := by
      rw [Text.margin_spaces_append]
      simp [Text.margin, hspace]
    simp [Text.commonMargin, hshown, hwidth]
  have hremoved : Text.removeMargin count (Text.spaces count ++ c :: rest) = c :: rest := by
    rw [Text.removeMargin, hshown, if_neg Bool.false_ne_true]
    exact List.drop_left' List.length_replicate
  have hlines : (Text.spaces count ++ c :: rest).dedent.lines = [c :: rest] := by
    rw [Text.lines_dedent htab, Text.lines_eq_singleton hnewline, hcommon, List.map_singleton,
      hremoved, trimEmpty_eq_self (by simp) (by simp), Text.orBlank_cons]
  rw [← Text.unlines_lines (Text.dedent _), hlines, Text.unlines_singleton]

theorem LineAt.standsAt {count : Nat} {code : Text} (h : LineAt count code) :
    StandsAt count code := by
  obtain ⟨c, rest, rfl, hblank, hunbroken⟩ := h.shape
  have hvisible : Text.blank (c :: rest) = false := by simp [Text.blank, hblank]
  have hagain : Text.dedent (c :: rest) = c :: rest := dedent_line hblank hunbroken 0
  refine ⟨?_, by rw [dedent_line hblank hunbroken, hvisible]⟩
  rw [dedent_line hblank hunbroken, Text.reindent, hagain, Text.lines_eq_singleton hunbroken.1,
    List.map_singleton, Text.unlines_singleton, Text.indentLine, hvisible,
    if_neg Bool.false_ne_true]

theorem standsAt_reindent {code : Text} (h : PlainBlanks code) (hvisible : code.blank = false)
    (count : Nat) : StandsAt count (Text.reindent count code) := by
  refine ⟨?_, ?_⟩
  · rw [Text.dedent_reindent h, Text.reindent_dedent h]
  · rw [Text.dedent_reindent h]
    exact Text.blank_dedent hvisible

namespace ElementFields

variable {fields : ElementFields}

/-- The code in the block of a button stands at the margin of its level. -/
theorem standsAt_blockCode
    (h : fields.action = some .customCode → ∀ code ∈ fields.actionParam, PlainBlanks code)
    (width level : Nat) (kind : ScriptKind) :
    StandsAt (width * level) (fields.blockCode width level kind) := by
  rcases fields.blockCode_cases kind with
    ⟨code, hcode, hblock⟩ | ⟨code, haction, hparam, hvisible, hblock⟩
  · rw [hblock]
    exact (hcode.lineAt _).standsAt
  · rw [hblock]
    exact standsAt_reindent (h haction code hparam) hvisible _

end ElementFields

/-! ## The lines of a button -/

/-- The condition of a button and its block. -/
def buttonLines (count : Nat) (label : Text) (style : Option Text) (code : Text) : List Text :=
  [Text.spaces count ++ buttonStatement label style, Text.spaces count ++ ['\x7b'], code,
    Text.spaces count ++ ['\x7d']]

theorem separable_map_quote (named : Option Text) : ∀ text ∈ named.map quote, Separable text := by
  intro text htext
  obtain ⟨name, -, rfl⟩ := Option.map_eq_some_iff.mp htext
  exact separable_quote name

theorem neutral_buttonStatement (label : Text) {style : Option Text}
    (hstyle : ∀ text ∈ style, Separable text) : Neutral (buttonStatement label style) := by
  have hend : Loose "))".toList := loose_literal (by decide) (by decide)
  have hsuffix : Loose (styleSuffix style ++ "))".toList) := by
    cases style with
    | none => exact hend
    | some style =>
      have hcomma : Loose ", ".toList := loose_literal (by decide) (by decide)
      exact hcomma.append (hstyle style rfl _ hend)
  have hfront : Neutral "if (GUILayout.Button(".toList := neutral_literal (by decide)
  exact hfront.append (separable_quote label _ hsuffix)

/-- The condition of a button is a statement's line without a brace. -/
theorem statement_buttonStatement (label : Text) {style : Option Text}
    (hstyle : ∀ text ∈ style, Separable text) : Statement (buttonStatement label style) := by
  have hends : ∃ front, buttonStatement label style = front ++ [')'] := by
    refine ⟨"if".toList ++ ' ' :: '(' :: ("GUILayout".toList ++ (".Button".toList ++
      '(' :: (quote label ++ (styleSuffix style ++ [')'])))), ?_⟩
    simp [buttonStatement]
  obtain ⟨front, hfront⟩ := hends
  refine ⟨neutral_buttonStatement label hstyle, ?_, front, ')', hfront, by decide, by decide⟩
  rintro c ⟨⟩
  decide

theorem blockHeader_buttonStatement (label : Text) (named : Option Text) (count : Nat) :
    BlockHeader (Text.spaces count ++ buttonStatement label (named.map quote)) := by
  have hcalm : ∀ passed : Text, Calm (", ".toList.reverse ++ passed) := fun passed =>
    show '@' ∉ [' ', ','] by decide
  have hfront : Neutral (Text.spaces count ++ "if (GUILayout.Button(".toList) :=
    (neutral_spaces count).append (neutral_literal (by decide))
  have hplain : (Text.spaces count ++ "if (GUILayout.Button(".toList).all isPlain := by
    rw [List.all_append, all_isPlain_of_blank (spaces_all_isBlank count)]
    decide
  have hbrace : '\x7b' ∉ Text.spaces count ++ "if (GUILayout.Button(".toList := by
    simp [Text.spaces]
  have hsuffix : ∀ passed, ∃ chars,
      Reads passed (styleSuffix (named.map quote) ++ "))".toList) chars ∧ '\x7b' ∉ chars := by
    intro passed
    cases named with
    | none => exact ⟨_, .of_plain (by decide) passed, by decide⟩
    | some name =>
      have hcomma : Reads passed ", ".toList ", ".toList := .of_plain (by decide) passed
      exact ⟨_, hcomma.append (.quoted name (hcalm passed) (.of_plain (by decide) _)), by decide⟩
  obtain ⟨chars, hreads, hchars⟩ := hsuffix
    ((quote label).reverse ++ ((Text.spaces count ++ "if (GUILayout.Button(".toList).reverse ++ []))
  have hwhole := (Reads.of_plain hplain []).append
    (.quoted label (hfront [] calm_nil).calm hreads)
  rw [List.append_assoc] at hwhole
  exact hwhole.blockHeader (List.mem_append.not.mpr (not_or.mpr ⟨hbrace, hchars⟩))

theorem lines_buttonLines (count : Nat) (label code : Text) (named : Option Text) :
    (Text.unlines (buttonLines count label (named.map quote) code)).lines =
      (Text.spaces count ++ buttonStatement label (named.map quote)) ::
        (Text.spaces count ++ ['\x7b']) :: (code.lines ++ [Text.spaces count ++ ['\x7d']]) := by
  have hbrace : ∀ brace : Char, brace ≠ '\n' →
      (Text.spaces count ++ [brace]).lines = [Text.spaces count ++ [brace]] := fun brace hbrace =>
    Text.lines_eq_singleton (by simp [Text.spaces, hbrace.symm])
  rw [buttonLines, Text.lines_unlines (List.cons_ne_nil _ _)]
  simp only [List.flatMap_cons, List.flatMap_nil, List.append_nil,
    (statement_buttonStatement label (separable_map_quote named)).lines_eq,
    hbrace _ (show '\x7b' ≠ '\n' by decide),
    hbrace _ (show '\x7d' ≠ '\n' by decide)]
  rfl

/-- The text of a button is recovered as one button with the code of its block. -/
theorem recover_buttonLines {label code : Text} {named : Option Text} {fields : ElementFields}
    (hnamed : ∀ name ∈ named, name.all isWord)
    (hfields : (CallShape.labelled .button label).applyStyle? (named.map quote) "\"button\"" =
      some fields)
    (hclosed : LexicallyClosed code) (count : Nat) :
    recover (Text.unlines (buttonLines count label (named.map quote) code)) =
      ⟨[.leaf { fields with action := some .customCode, actionParam := some code.dedent }], []⟩ := by
  have hbase : ∀ text ∈ named.map quote, StyleBase text := by
    intro text htext
    obtain ⟨name, hname, rfl⟩ := Option.map_eq_some_iff.mp htext
    exact styleBase_quote (parenthesis_notMem_of_words (hnamed name hname))
  obtain ⟨found, hfound, hcaptures⟩ := match?_buttonCall label hbase
  obtain ⟨hstyle, hlabel, -⟩ := CallShape.lookup_styleCaptures (named.map quote)
  have hcall : buttonCall.match? (codeOf (Text.spaces count ++
      buttonStatement label (named.map quote))) = some found := by
    rw [(statement_buttonStatement label (separable_map_quote named)).codeOf_eq, hfound]
  have hrest : found.captured "rest" = [] := by
    rw [Position.captured, Position.captured?, hcaptures]
    rfl
  have hcaptured : found.captured? "style" = named.map quote ∧
      found.captured? "label" = some (escape label) := by
    have hbehind : ∀ name : String, name ≠ "rest" → found.captured? name =
        (List.lookup name (styleCaptures (named.map quote))).or
          (List.lookup name [("label", escape label)]) := by
      intro name hname
      rw [Position.captured?, hcaptures, List.lookup_cons, beq_eq_false_iff_ne.mpr hname,
        List.lookup_append]
    rw [hbehind _ (by decide), hbehind _ (by decide), hstyle, hlabel]
    exact ⟨Option.or_none, rfl⟩
  have htext : CallShape.textOf found "label" = label := by
    rw [CallShape.textOf, Position.captured, hcaptured.2, Option.getD_some, unescape_escape]
  have hopens : opensBlock (found.captured "rest") ((Text.spaces count ++ ['\x7b']) ::
      (code.lines ++ [Text.spaces count ++ ['\x7d']])) := by
    rw [hrest]
    exact opensBlock_brace count _
  have hblock := findBlock?_between (blockHeader_buttonStatement label named count) hclosed [] []
    count
  have hbody := bodyLines_between (Text.spaces count ++ buttonStatement label (named.map quote))
    [] code.lines [] count
  rw [List.nil_append, List.length_nil] at hblock hbody
  have hbelow : ((Text.spaces count ++ ['\x7b']) ::
      (code.lines ++ [Text.spaces count ++ ['\x7d']])).length ≤ 0 + 2 + code.lines.length := by
    simp only [List.length_cons, List.length_append, List.length_nil]
    omega
  rw [recover, lines_buttonLines,
    recoverLines_of_button hcall (by rw [htext, hcaptured.1, hfields]) hopens hblock, Block.body,
    hbody, Text.unlines_lines, List.drop_of_length_le hbelow, recoverLines_nil]

namespace ElementFields

variable {fields : ElementFields}

/-- The lines of a button whose style changes nothing. -/
theorem lines_button (hbutton : fields.widget = .button) (hchanges : fields.styleChanges = [])
    (width level : Nat) (kind : ScriptKind) (inner : List Text) :
    fields.lines width level kind inner =
      .ok (buttonLines (width * level) fields.label ((present? fields.boxStyle).map quote)
        (fields.blockCode width (level + 1) kind)) := by
  have hstyleable : fields.widget.isStyleable := by rw [hbutton]; rfl
  have hcall : ("if (GUILayout.Button(" : Text) =
      "if".toList ++ ' ' :: '(' :: ("GUILayout".toList ++ (".Button".toList ++ ['('])) := by decide
  have hhead : indentation width level ++ "if (GUILayout.Button(" ++
      fields.styledArguments [quote fields.label] "\"button\"" ++ "))" =
      Text.spaces (width * level) ++
        buttonStatement fields.label ((present? fields.boxStyle).map quote) := by
    rw [styledArguments, style?_of_noChanges hstyleable hchanges, hcall]
    cases (present? fields.boxStyle).map quote with
    | none => simp [buttonStatement, styleSuffix, indentation]
    | some style => simp [buttonStatement, styleSuffix, indentation, Text.join_cons_cons]
  simp only [lines, hbutton, hhead]
  rfl

/-- A button with the code that was read from its block writes that code. -/
theorem blockCode_of_standsAt {code : Text} {width level : Nat}
    (h : StandsAt (width * level) code) (haction : fields.action = some .customCode)
    (hparam : fields.actionParam = some code.dedent) (kind : ScriptKind) :
    fields.blockCode width level kind = code := by
  have hne : code.isEmpty = false := by
    rw [List.isEmpty_eq_false_iff]
    rintro rfl
    exact absurd h.visible (by decide)
  simp only [blockCode, actionCode, haction, hparam, Option.getD_some, h.visible, h.reindent, hne,
    Bool.false_eq_true, if_false]

end ElementFields

/-! ## Round trips -/

namespace ElementFields

variable {fields : ElementFields}

/-- A style that changes nothing has no size but zero. -/
theorem size_nonneg_of_noChanges (h : fields.styleChanges = []) :
    ∀ size ∈ fields.fontSize, 0 ≤ size := by
  intro size hmem
  rw [styleChanges_eq, Option.mem_def.mp hmem, List.append_eq_nil_iff] at h
  by_contra hnegative
  have hzero : size ≠ 0 := fun heq => hnegative (heq ▸ Int.le_refl 0)
  simp [hzero] at h

/-- The button that is recovered from a written one with some code in its block. -/
def recoveredButton (fields : ElementFields) (code : Text) : ElementFields :=
  { (CallShape.labelled .button fields.label).withLook fields "\"button\"" with
    action := some .customCode
    actionParam := some code.dedent }

theorem styleChanges_recoveredButton (h : fields.styleChanges = []) (code : Text) :
    (fields.recoveredButton code).styleChanges = [] := by
  obtain ⟨hsize, hstyle, hside⟩ := look_of_noChanges (size_nonneg_of_noChanges h) h
  simp only [styleChanges, recoveredButton, withLook, hsize, hstyle, hside, List.append_nil]

/-- The name of a style is kept unless it is the usual one. -/
theorem boxStyle_recoveredButton (h : ∀ name ∈ fields.boxStyle, name ≠ "button") (code : Text) :
    present? (fields.recoveredButton code).boxStyle = present? fields.boxStyle := by
  have hquote : ("\"button\"" : Text) = quote "button" := by decide
  have hshown : (fields.recoveredButton code).boxStyle =
      (present? fields.boxStyle).filter (quote · != "\"button\"") := rfl
  rw [hshown]
  cases hnamed : present? fields.boxStyle with
  | none => rfl
  | some name =>
    have hother : quote name ≠ "\"button\"" := by
      intro heq
      have hread := literalText?_quote name
      rw [heq, hquote, literalText?_quote] at hread
      exact h name (eq_some_of_present? hnamed) (Option.some.inj hread).symm
    have hkept : (some name).filter (quote · != "\"button\"") = some name := by
      rw [Option.filter_some, if_pos (bne_iff_ne.mpr hother)]
    rw [hkept, ← hnamed, present?, present?, Option.filter_filter]
    simp

theorem style?_recoveredButton (hbutton : fields.widget = .button)
    (hchanges : fields.styleChanges = []) (hname : ∀ name ∈ fields.boxStyle, name ≠ "button")
    (code : Text) :
    (fields.recoveredButton code).style? "\"button\"" = fields.style? "\"button\"" := by
  rw [style?_of_noChanges rfl (styleChanges_recoveredButton hchanges code),
    style?_of_noChanges (by rw [hbutton]; rfl) hchanges, boxStyle_recoveredButton hname]

end ElementFields

theorem Element.render_button {element : Element} (hbutton : element.fields.widget = .button)
    (width level : Nat) (kind : ScriptKind) :
    element.render width level kind = element.fields.render width level kind [] := by
  cases element with
  | leaf fields => rfl
  | group fields children =>
    have hchildren : fields.showsChildren = false := by
      have hwidget : fields.widget = .button := hbutton
      rw [ElementFields.showsChildren, hwidget]
      exact Bool.and_false _
    rw [Element.render, hchildren]
    rfl

/-- A button whose style changes nothing is recovered as one button with its label and its
style, and that button is written with the same text. -/
theorem recover_render_button {element : Element} (hbutton : element.fields.widget = .button)
    (hknown : element.fields.isOpaque = false) (hchanges : element.fields.styleChanges = [])
    (hname : ∀ name ∈ element.fields.boxStyle, name.all isWord ∧ name ≠ "button")
    (hcode : element.fields.action = some .customCode →
      ∀ code ∈ element.fields.actionParam, LexicallyClosed code ∧ PlainBlanks code)
    (width level : Nat) (kind : ScriptKind) :
    ∃ text shown, element.render width level kind = .ok text ∧
      recover text = ⟨[.leaf shown], []⟩ ∧ shown.widget = .button ∧
      shown.label = element.fields.label ∧
      shown.style? "\"button\"" = element.fields.style? "\"button\"" ∧
      (Element.leaf shown).render width level kind = .ok text := by
  have hstyleable : element.fields.widget.isStyleable := by rw [hbutton]; rfl
  have husual : StyleBase "\"button\"" :=
    @styleBase_quote "button".toList (by decide)
  have hlook : (CallShape.labelled .button element.fields.label).Lookless := ⟨rfl, rfl, rfl, rfl⟩
  have hnamed : ∀ name ∈ present? element.fields.boxStyle, name.all isWord := fun name hmem =>
    (hname name (eq_some_of_present? hmem)).1
  have happly := ElementFields.applyStyle?_style hlook hstyleable
    ⟨fun name hmem => (hname name hmem).1, ElementFields.size_nonneg_of_noChanges hchanges⟩ husual
  rw [ElementFields.style?_of_noChanges hstyleable hchanges] at happly
  have hclosed : LexicallyClosed (element.fields.blockCode width (level + 1) kind) :=
    ElementFields.lexicallyClosed_blockCode (fun haction code hmem =>
      ⟨(hcode haction code hmem).2.tab_notMem, (hcode haction code hmem).1⟩) width (level + 1) kind
  have hstands := element.fields.standsAt_blockCode
    (fun haction code hmem => (hcode haction code hmem).2) width (level + 1) kind
  have hlines := ElementFields.lines_button hbutton hchanges width level kind []
  generalize element.fields.blockCode width (level + 1) kind = code at hclosed hstands hlines
  have hagain : (element.fields.recoveredButton code).blockCode width (level + 1) kind = code :=
    ElementFields.blockCode_of_standsAt hstands rfl rfl kind
  have hlinesAgain := @ElementFields.lines_button (element.fields.recoveredButton code)
    rfl (ElementFields.styleChanges_recoveredButton hchanges code) width level kind []
  rw [hagain, ElementFields.boxStyle_recoveredButton fun name hmem => (hname name hmem).2]
    at hlinesAgain
  refine ⟨Text.unlines (buttonLines (width * level) element.fields.label
    ((present? element.fields.boxStyle).map quote) code), element.fields.recoveredButton code,
    ?_, recover_buttonLines hnamed happly hclosed _, rfl, rfl,
    ElementFields.style?_recoveredButton hbutton hchanges (fun name hmem => (hname name hmem).2) _,
    ?_⟩
  · rw [Element.render_button hbutton, ElementFields.render, hknown, hlines]
    rfl
  · have hrender := congrArg (Except.map Text.unlines) hlinesAgain
    exact hrender

/-- A button with a quoted label, a style of another name and code of its own. -/
theorem recover_render_button_toolbar :
    let code : Text := "if (ready)\n\x7b\n    Run();\n\x7d"
    let element : Element := .leaf { widget := .button, label := "Say \"hi\"",
                                     boxStyle := some "toolbar", action := some .customCode,
                                     actionParam := some code }
    element.fields.styleChanges = [] ∧ LexicallyClosed code ∧ PlainBlanks code ∧
      ∃ text shown, element.render 4 2 .editorWindow = .ok text ∧
        recover text = ⟨[.leaf shown], []⟩ ∧ shown.widget = .button ∧
        shown.label = "Say \"hi\"" ∧
        shown.style? "\"button\"" = element.fields.style? "\"button\"" ∧
        (Element.leaf shown).render 4 2 .editorWindow = .ok text := by
  intro code element
  have hclosed : LexicallyClosed code := by decide +kernel
  have hplain : PlainBlanks code := by decide +kernel
  have hname : ∀ name ∈ element.fields.boxStyle, name.all isWord ∧ name ≠ "button" := by
    rintro name ⟨⟩
    decide +kernel
  refine ⟨rfl, hclosed, hplain, recover_render_button rfl rfl rfl hname ?_ 4 2 .editorWindow⟩
  rintro - _ ⟨⟩
  exact ⟨hclosed, hplain⟩

/-- The changes of a style are taken for the block of the button, and its own block is left
behind as a statement. -/
theorem recover_sizedButton :
    let element : Element := .leaf { widget := .button, label := "Go", fontSize := some 14,
                                     action := some .debugLog }
    let text : Text :=
      "if (GUILayout.Button(\"Go\", new GUIStyle(\"button\") \x7b fontSize = 14 \x7d))\n" ++
        "\x7b\n    Debug.Log(\"Go\");\n\x7d"
    element.render 4 0 .editorWindow = .ok text ∧
      recover text = ⟨[.leaf { widget := .button, label := "Go", fontSize := some 14,
                               action := some .customCode, actionParam := some "fontSize = 14" },
        .ofCode "Debug.Log(\"Go\");"], []⟩ := by
  intro element text
  have hrender : element.render 4 0 .editorWindow = .ok text := by rfl
  have hlines : text.lines =
      ("if (GUILayout.Button(\"Go\", new GUIStyle(\"button\") \x7b fontSize = 14 \x7d))" ::
        ["\x7b", "    Debug.Log(\"Go\");", "\x7d"] : List Text) := by decide +kernel
  have hcall : buttonCall.match? (codeOf
      "if (GUILayout.Button(\"Go\", new GUIStyle(\"button\") \x7b fontSize = 14 \x7d))") =
      some ⟨some ')', [], [("rest", []),
        ("style", "new GUIStyle(\"button\") \x7b fontSize = 14 \x7d"), ("label", "Go")]⟩ := by
    set_option maxRecDepth 2000 in
    cbv
  have hstyle : (CallShape.labelled .button (CallShape.textOf
      ⟨some ')', [], [("rest", []),
        ("style", "new GUIStyle(\"button\") \x7b fontSize = 14 \x7d"), ("label", "Go")]⟩
          "label")).applyStyle?
      (some "new GUIStyle(\"button\") \x7b fontSize = 14 \x7d") "\"button\"" =
      some { widget := .button, label := "Go", fontSize := some 14 } := by decide +kernel
  have hopens : opensBlock [] ["\x7b", "    Debug.Log(\"Go\");", "\x7d"] := by decide +kernel
  have hblock : findBlock?
      ("if (GUILayout.Button(\"Go\", new GUIStyle(\"button\") \x7b fontSize = 14 \x7d))" ::
        ["\x7b", "    Debug.Log(\"Go\");", "\x7d"] : List Text) 0 = some ⟨0, 0, 50, 0, 66⟩ := by
    decide +kernel
  have hbody : (Block.body ⟨0, 0, 50, 0, 66⟩
      ("if (GUILayout.Button(\"Go\", new GUIStyle(\"button\") \x7b fontSize = 14 \x7d))" ::
        ["\x7b", "    Debug.Log(\"Go\");", "\x7d"] : List Text)).dedent =
      "fontSize = 14".toList := by decide +kernel
  have hbelow : recoverLines ("\x7b" :: ["    Debug.Log(\"Go\");", "\x7d"] : List Text) =
      ⟨[.ofCode "Debug.Log(\"Go\");"], []⟩ := by
    have hextent : extent ("    Debug.Log(\"Go\");" :: ["\x7d"] : List Text) = 0 := by
      refine extent_of_semicolon (by decide +kernel) (by decide +kernel) ?_
      rintro first ⟨⟩
      decide +kernel
    have hdedent : Text.dedent "    Debug.Log(\"Go\");" = "Debug.Log(\"Go\");".toList := by
      decide +kernel
    rw [recoverLines_of_brace (by decide +kernel),
      recoverLines_of_line (by decide +kernel) (by decide +kernel) hextent,
      recoverLines_of_brace (by decide +kernel), recoverLines_nil, hdedent]
  have hrecover := recoverLines_of_button hcall hstyle hopens hblock
  rw [hbody, List.drop_zero, hbelow] at hrecover
  rw [recover, hlines, hrecover]
  exact ⟨hrender, rfl⟩

end EditorScript
