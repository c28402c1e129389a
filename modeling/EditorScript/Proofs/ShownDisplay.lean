import EditorScript.Proofs.ShownArgument

/-!
# Elements that display something

Labels, headers, messages, bars and the gaps between elements.  Labels, headers
and separators are written with the same call; what follows its text tells them
apart.
-/

namespace EditorScript

open Pattern CallShape

/-! ## The call of labels, headers and separators -/

theorem match?_separator_none {content rest : Text}
    (h : Avoids ["GUI.skin.horizontalSlider"] rest) :
    separator.pattern.match? (textStatement content rest) = none := by
  simp only [match?, matchAt, separator, run_append, run_start]
  unfold textStatement
  refine run_opening_none (head?_quote_append _ _) (fun before => ?_) none
  simp only [← run_append]
  refine run_eq_none (fun later hlater => ?_) some
  obtain ⟨behind, hlater, -⟩ := hlater.append
  obtain ⟨_, hlater, hname⟩ := hlater.append
  obtain ⟨_, hquotes, hcomma⟩ := hlater.append
  obtain ⟨front, back, hafter, -⟩ := hcomma.comma_eq
  have hempty : quote content ++ rest = '"' :: '"' :: (front ++ ',' :: (back ++
      ("GUI.skin.horizontalSlider".toList ++ behind.after))) := by
    rw [← hname.text_eq, ← hafter]
    exact hquotes.text_eq
  have htext : escape content ++ '"' :: rest = '"' :: (front ++ ',' :: (back ++
      ("GUI.skin.horizontalSlider".toList ++ behind.after))) := by
    simpa [quote] using hempty
  have hcontent : content = [] := by
    cases content with
    | nil => rfl
    | cons c others =>
      rw [escape_cons] at htext
      unfold escapeChar at htext
      split_ifs at htext with hslash hquote hnewline htab
      all_goals exact absurd (List.cons.inj htext).1 (by first | decide | exact hquote)
  subst hcontent
  refine h _ (List.mem_singleton.mpr rfl) ⟨front ++ ',' :: back, behind.after, ?_⟩
  rw [(List.cons.inj htext).2]
  simp

theorem match?_header_none {content rest : Text}
    (h : Avoids ["EditorStyles.boldLabel"] rest) :
    header.pattern.match? (textStatement content rest) = none := by
  simp only [match?, matchAt, header, run_append, run_start]
  unfold textStatement
  refine run_opening_none (head?_quote_append _ _) (fun before => ?_) none
  rw [run_literal]
  simp only [← run_append]
  refine run_eq_none (fun later hlater => ?_) some
  obtain ⟨_, hlater, -⟩ := hlater.append
  obtain ⟨_, hcomma, hstyle⟩ := hlater.append
  obtain ⟨_, hstyle, -⟩ := hstyle.capture_body
  obtain ⟨named, hstyle, -⟩ := hstyle.append
  obtain ⟨_, hskipped, hname⟩ := hstyle.append
  obtain ⟨front, back, hafter, -⟩ := hcomma.comma_eq
  obtain ⟨skipped, hskipped, -⟩ := hskipped.many_eq
  refine h _ (List.mem_singleton.mpr rfl) ⟨front ++ ',' :: (back ++ skipped), named.after, ?_⟩
  have hrest : rest = front ++ ',' :: (back ++ (skipped ++ ("EditorStyles.boldLabel".toList ++
      named.after))) := by
    rw [← hname.text_eq, ← hskipped]
    exact hafter
  rw [hrest]
  simp

namespace ElementFields

variable {fields : ElementFields} {kind : ScriptKind}

theorem Plain.avoids_message (h : fields.Plain) {message : Option Text}
    (hmessage : ∀ text ∈ message, text ∈ fields.texts) :
    Avoids containerCalls ((present? message).getD fields.label) := by
  cases hset : present? message with
  | none => exact h.avoids_label
  | some text => exact h.texts text (hmessage text (eq_some_of_present? hset))

/-- The call in the form in which its arguments are joined. -/
theorem textStatement_eq (content : Text) (arguments : List Text) :
    textStatement content (commaEach arguments ++ ");".toList) =
      "EditorGUILayout.LabelField".toList ++ ("(".toList ++
        (Text.join ", " (quote content :: arguments) ++ ");".toList)) := by
  have hparen : "(".toList = ['('] := rfl
  rw [join_comma_cons, hparen]
  unfold textStatement
  simp

/-- A call of this kind is a statement. -/
theorem statement_of_textCall {content : Text} {arguments : List Text} {code : Text}
    (hcode : code = textStatement content (commaEach arguments ++ ");".toList))
    (hneutral : Neutral code) : Statement code := by
  rw [textStatement_eq] at hcode
  refine statement_of_call hneutral ?_ (hcode ▸ callEnd_suffix _ _)
  rw [hcode]
  rintro c ⟨⟩
  decide

/-- It keeps clear of the names of containers when its text does. -/
theorem statement_textCall {content : Text} (hcontent : Avoids containerCalls content)
    {arguments : List Text} (harguments : ∀ argument ∈ arguments, Avoids containerCalls argument)
    {code : Text} (hcode : code = textStatement content (commaEach arguments ++ ");".toList))
    (hneutral : Neutral code) : Statement code ∧ Avoids containerCalls code := by
  refine ⟨statement_of_textCall hcode hneutral, ?_⟩
  rw [hcode, textStatement_eq]
  exact avoids_call (by decide_cbv) (List.forall_mem_cons.mpr ⟨avoids_quote hcontent, harguments⟩)

/-- Nothing before separators, bars and headers takes a call of this kind. -/
theorem match?_earlier_none {content rest : Text} {pattern : Pattern}
    (h : pattern ∈ Step.earlierShapes ++ callsBefore 19) :
    pattern.match? (textStatement content rest) = none := by
  have hentry : ("EditorGUILayout.LabelField(", 19) ∈ [("EditorGUILayout.HelpBox(", 17),
      ("EditorGUILayout.Space(", 18), ("EditorGUILayout.LabelField(", 19),
      ("EditorGUI.ProgressBar(", 20)] := by decide
  have hfits : Fits (Sketch.fixed "EditorGUILayout.LabelField(") (textStatement content rest) := by
    have hcall : "EditorGUILayout.LabelField(".toList ++ (quote content ++ rest) =
        textStatement content rest := by
      have hopen : "EditorGUILayout.LabelField(".toList =
          "EditorGUILayout.LabelField".toList ++ ['('] := by decide
      rw [hopen]
      unfold textStatement
      simp
    rw [← hcall]
    exact Fits.rest.known_append _
  exact match?_eq_none_of_rulesOut (rulesOut_fixed _ hentry _ h) hfits

theorem match?_progressBar_none {content rest : Text} :
    progressBar.pattern.match? (textStatement content rest) = none := by
  have hrules : progressBar.pattern.rulesOut (Sketch.known "EditorGUIL" ++ [.rest]) := by
    decide
  have hcall : "EditorGUILayout.LabelField".toList =
      "EditorGUIL".toList ++ "ayout.LabelField".toList := by decide
  have hfits : Fits (Sketch.known "EditorGUIL" ++ [.rest]) (textStatement content rest) := by
    unfold textStatement
    rw [hcall, List.append_assoc]
    exact Fits.rest.known_append _
  exact match?_eq_none_of_rulesOut hrules hfits

theorem forall_mem_earlier {code : Text}
    (h : ∀ pattern ∈ Step.earlierShapes ++ callsBefore 19, pattern.match? code = none)
    (hseparator : separator.pattern.match? code = none)
    (hbar : progressBar.pattern.match? code = none) :
    ∀ pattern ∈ Step.earlierShapes ++ callsBefore 21, pattern.match? code = none := by
  have hmore : callsBefore 21 = callsBefore 19 ++ [separator.pattern, progressBar.pattern] := rfl
  rw [hmore, ← List.append_assoc]
  exact List.forall_mem_append.mpr ⟨h, List.forall_mem_cons.mpr
    ⟨hseparator, List.forall_mem_singleton.mpr hbar⟩⟩

/-! ## Labels and headers -/

theorem foreign_separator : Foreign ["GUI.skin.horizontalSlider"] :=
  foreign_of_areForeign (by decide_cbv)

theorem foreign_header : Foreign ["EditorStyles.boldLabel"] :=
  foreign_of_areForeign (by decide_cbv)

/-- The call of a label in the form in which it is read. -/
theorem labelCall_eq (fields : ElementFields) :
    "EditorGUILayout.LabelField(" ++
        fields.styledArguments [quote fields.label] "EditorStyles.label" ++ ");" =
      textStatement fields.label
        (commaEach (fields.style? "EditorStyles.label").toList ++ ");".toList) := by
  have hopen : ("EditorGUILayout.LabelField(" : Text) =
      "EditorGUILayout.LabelField".toList ++ "(".toList := by decide
  rw [textStatement_eq, hopen, styledArguments_eq]
  simp

/-- A label is read from its call, whatever its text is. -/
theorem reads_label (hreadable : fields.HasReadableStyle) (hwidget : fields.widget = .label)
    (kind : ScriptKind) :
    Step.Ordinary ("EditorGUILayout.LabelField(" ++
        fields.styledArguments [quote fields.label] "EditorStyles.label" ++ ");") ∧
      ∃ name, matchCall? ("EditorGUILayout.LabelField(" ++
        fields.styledArguments [quote fields.label] "EditorStyles.label" ++ ");") =
          some (name, fields.readBack kind) := by
  have husual : StyleBase "EditorStyles.label" := styleBase_of_all (by decide)
  have hstyleable : fields.widget.isStyleable := by rw [hwidget]; rfl
  have hshown : fields.readBack kind = (fields.onlyLabel fields.label).withLook fields
      "EditorStyles.label" := by
    rw [readBack, hwidget]
  have hlook : (fields.onlyLabel fields.label).Lookless := ⟨rfl, rfl, rfl, rfl⟩
  have happly := applyStyle?_style hlook hstyleable hreadable husual
  have hshape : CallShape.all[22]? = some CallShape.label := rfl
  have hmore : callsBefore 22 = callsBefore 21 ++ [header.pattern] := rfl
  have hseparator : Avoids ["GUI.skin.horizontalSlider"]
      (commaEach (fields.style? "EditorStyles.label").toList ++ ");".toList) :=
    avoids_styleTail foreign_separator (by decide_cbv) hreadable.word
  have hheader : Avoids ["EditorStyles.boldLabel"]
      (commaEach (fields.style? "EditorStyles.label").toList ++ ");".toList) :=
    avoids_styleTail foreign_header (by decide_cbv) hreadable.word
  have hnone : ∀ pattern ∈ Step.earlierShapes ++ callsBefore 22,
      pattern.match? (textStatement fields.label
        (commaEach (fields.style? "EditorStyles.label").toList ++ ");".toList)) = none := by
    rw [hmore, ← List.append_assoc]
    exact List.forall_mem_append.mpr ⟨forall_mem_earlier (fun _ => match?_earlier_none)
      (match?_separator_none hseparator) match?_progressBar_none,
      List.forall_mem_singleton.mpr (match?_header_none hheader)⟩
  rw [labelCall_eq]
  refine ⟨Step.ordinary_of_match?_none fun pattern hpattern =>
    hnone pattern (List.mem_append_left _ hpattern), CallShape.label.name,
    matchCall?_of_recognise hshape (fun pattern hpattern =>
      hnone pattern (List.mem_append_right _ hpattern)) ?_⟩
  rw [commaEach_style, hshown]
  refine recognise?_label fields.label (fun _ => callArgument_style husual hreadable.word) ?_
  rw [← happly, onlyLabel, hwidget]

theorem shows_label (h : fields.Plain) (hwidget : fields.widget = .label)
    (hneutral : Neutral ("EditorGUILayout.LabelField(" ++
      fields.styledArguments [quote fields.label] "EditorStyles.label" ++ ");")) :
    Shows ("EditorGUILayout.LabelField(" ++
      fields.styledArguments [quote fields.label] "EditorStyles.label" ++ ");")
      (fields.readBack kind) := by
  have harguments : ∀ style ∈ (fields.style? "EditorStyles.label").toList,
      Avoids containerCalls style := fun style hmem =>
    avoids_style foreign_containerCalls (by decide_cbv) h.boxStyle (Option.mem_toList.mp hmem)
  obtain ⟨hstatement, havoids⟩ :=
    statement_textCall h.avoids_label harguments fields.labelCall_eq hneutral
  obtain ⟨hordinary, hcall⟩ := reads_label h.hasReadableStyle hwidget kind
  refine ⟨hstatement, hordinary, hcall, havoids, ?_⟩
  rw [widget_readBack, hwidget]
  decide

/-- The style of a header stands around the usual one, and is read back. -/
theorem exists_headerStyle (hname : present? fields.boxStyle = none)
    (hstyleable : fields.widget.isStyleable) (hlook : fields.HasReadableStyle) :
    ∃ front back, (fields.style? "EditorStyles.boldLabel").getD "EditorStyles.boldLabel" =
        front ++ ("EditorStyles.boldLabel".toList ++ back) ∧
      HeaderStyle front back ∧
      ∀ content, header.fields? ⟨some ';', [],
          [("style", front ++ ("EditorStyles.boldLabel".toList ++ back)),
            ("text", escape content)]⟩ =
        some (withLook { labelled .header content with headerText := some content } fields
          "EditorStyles.boldLabel") := by
  have husual : StyleBase "EditorStyles.boldLabel" := styleBase_of_all (by decide)
  have hlookless : ∀ content, Lookless { labelled .header content with
      headerText := some content } := fun _ => ⟨rfl, rfl, rfl, rfl⟩
  have hread : ∀ (style content : Text), header.fields? ⟨some ';', [],
      [("style", style), ("text", escape content)]⟩ =
        if style.trim = "EditorStyles.boldLabel".toList then
          some { labelled .header content with headerText := some content }
        else withStyle? { labelled .header content with headerText := some content } style
          "EditorStyles.boldLabel" := by
    intro style content
    have htext := textOf_text (some ';') content [] [("style", style)] rfl
    have hcaptured : Position.captured ⟨some ';', [], [("style", style),
        ("text", escape content)]⟩ "style" = style := rfl
    simp only [header, hcaptured]
    rw [List.singleton_append] at htext
    rw [htext]
  by_cases hchanges : fields.styleChanges = []
  · obtain ⟨hsize, hstyle, hside⟩ := look_of_noChanges hlook.size hchanges
    refine ⟨[], [], ?_, ⟨by decide, by decide, by decide, by simp, by simp⟩, fun content => ?_⟩
    · rw [style?_of_noChanges hstyleable hchanges, hname, List.append_nil]
      rfl
    · rw [hread, List.nil_append, List.append_nil, if_pos (trim_styleBase husual)]
      rw [← withLook_eq (hlookless content) (congrArg _ hname) hsize hstyle hside]
      rfl
  · have hstyle : fields.style? "EditorStyles.boldLabel" =
        some (newStyleText "EditorStyles.boldLabel" (Text.join ", " fields.styleChanges)) := by
      rw [style?_of_changes hstyleable hchanges, hname]
      rfl
    have hnew : ∀ content : Text, withStyle? { labelled .header content with
        headerText := some content } (newStyleText "EditorStyles.boldLabel"
          (Text.join ", " fields.styleChanges)) "EditorStyles.boldLabel" =
        some (withLook { labelled .header content with headerText := some content } fields
          "EditorStyles.boldLabel") := by
      intro content
      have hread := withStyle?_newStyle (hlookless content) hlook.size hlook.noParenthesis husual
      rwa [hname] at hread
    have hargument : CallArgument (newStyleText "EditorStyles.boldLabel"
        (Text.join ", " fields.styleChanges)) :=
      callArgument_newStyleText husual.inLine (newline_notMem_changes fields)
    have hshape : newStyleText "EditorStyles.boldLabel" (Text.join ", " fields.styleChanges) =
        "new GUIStyle(".toList ++ ("EditorStyles.boldLabel".toList ++ (") \x7b ".toList ++
          (Text.join ", " fields.styleChanges ++ " \x7d".toList))) := by
      unfold newStyleText
      simp only [List.append_assoc]
    have hcapital : 'E' ∉ Text.join ", " fields.styleChanges :=
      Text.notMem_join (by decide) fun change hchange => (capital_notMem_styleChange hchange).1
    have hother : newStyleText "EditorStyles.boldLabel" (Text.join ", " fields.styleChanges) ≠
        "EditorStyles.boldLabel".toList := by
      have hnew : "new GUIStyle(".toList = 'n' :: "ew GUIStyle(".toList := by decide
      have husual : "EditorStyles.boldLabel".toList = 'E' :: "ditorStyles.boldLabel".toList := by
        decide
      rw [hshape, hnew, husual]
      exact fun heq => absurd (List.cons.inj heq).1 (by decide)
    refine ⟨_, _, by rw [hstyle, Option.getD_some, hshape], ?_, fun content => ?_⟩
    · refine ⟨by decide, fun hline => ?_, ?_, by rintro c ⟨⟩; decide, ?_⟩
      · refine hargument.inLine ?_
        rw [hshape]
        exact List.mem_append_right _ (List.mem_append_right _ hline)
      · simp only [List.mem_append, not_or]
        exact ⟨by decide, hcapital, by decide⟩
      · intro c hc
        refine hargument.last c ?_
        rwa [hshape, getLast?_of_append (by simp), getLast?_of_append (by simp)]
    · rw [← hshape, hread, trim_newStyleText, if_neg hother, hnew]

/-- A style, or else the usual one, keeps clear of foreign words. -/
theorem avoids_styleOr {words : List Text} (hwords : Foreign words) {usual : Text}
    (husual : Avoids words usual) (hname : ∀ name ∈ fields.boxStyle, name.all isWord) :
    Avoids words ((fields.style? usual).getD usual) := by
  cases hstyle : fields.style? usual with
  | none => exact husual
  | some style => exact avoids_style hwords husual hname hstyle

theorem shows_header (h : fields.Plain) (hwidget : fields.widget = .header)
    (hneutral : Neutral ("EditorGUILayout.LabelField(" ++
      quote ((present? fields.headerText).getD fields.label) ++ ", " ++
        (fields.style? "EditorStyles.boldLabel").getD "EditorStyles.boldLabel" ++ ");")) :
    Shows ("EditorGUILayout.LabelField(" ++
      quote ((present? fields.headerText).getD fields.label) ++ ", " ++
        (fields.style? "EditorStyles.boldLabel").getD "EditorStyles.boldLabel" ++ ");")
      (fields.readBack kind) := by
  have hstyleable : fields.widget.isStyleable := by rw [hwidget]; rfl
  obtain ⟨front, back, hstyle, hheader, hread⟩ :=
    exists_headerStyle (h.headerStyle hwidget) hstyleable h.hasReadableStyle
  have hopen : ("EditorGUILayout.LabelField(" : Text) =
      "EditorGUILayout.LabelField".toList ++ ['('] := by decide
  have hcomma : (", " : Text) = [',', ' '] := by decide
  have hcode : "EditorGUILayout.LabelField(" ++
      quote ((present? fields.headerText).getD fields.label) ++ ", " ++
        (fields.style? "EditorStyles.boldLabel").getD "EditorStyles.boldLabel" ++ ");" =
        textStatement ((present? fields.headerText).getD fields.label)
          (commaEach [(fields.style? "EditorStyles.boldLabel").getD "EditorStyles.boldLabel"] ++
            ");".toList) := by
    rw [hopen, hcomma]
    unfold textStatement
    simp [commaEach]
  have hshown : fields.readBack kind = withLook
      { fields.onlyLabel ((present? fields.headerText).getD fields.label) with
        headerText := some ((present? fields.headerText).getD fields.label) } fields
        "EditorStyles.boldLabel" := by
    rw [readBack, hwidget]
  have hmessage : Avoids containerCalls ((present? fields.headerText).getD fields.label) :=
    h.avoids_message fun text htext => by simp [ElementFields.texts, Option.mem_def.mp htext]
  obtain ⟨hstatement, havoids⟩ := statement_textCall hmessage
    (List.forall_mem_singleton.mpr (avoids_styleOr foreign_containerCalls (by decide_cbv)
      h.boxStyle)) hcode hneutral
  have hseparator : Avoids ["GUI.skin.horizontalSlider"]
      (commaEach [(fields.style? "EditorStyles.boldLabel").getD "EditorStyles.boldLabel"] ++
        ");".toList) := by
    have husual : Avoids ["GUI.skin.horizontalSlider"] "EditorStyles.boldLabel" := by
      decide_cbv
    have hstyle := avoids_styleOr foreign_separator husual h.boxStyle
    have hend := foreign_separator.nil.seam foreign_separator.comma
      (hstyle.seam foreign_separator.close foreign_separator.nil)
    simpa [commaEach] using hend
  have hshape : CallShape.all[21]? = some header := rfl
  refine shows_of_match?_none hshape ?_ ?_ hstatement havoids ?_
  · rw [hcode]
    exact forall_mem_earlier (fun _ => match?_earlier_none) (match?_separator_none hseparator)
      match?_progressBar_none
  · have hrest : commaEach [front ++ ("EditorStyles.boldLabel".toList ++ back)] ++ ");".toList =
        ',' :: ' ' :: ((front ++ ("EditorStyles.boldLabel".toList ++ back)) ++ ");".toList) := by
      rw [commaEach, List.flatMap_singleton, hcomma]
      rfl
    rw [hcode, hshown, hstyle, hrest]
    refine recognise?_header _ hheader ?_
    rw [hread, onlyLabel, hwidget, labelled]
  · rw [hshown, withLook, onlyLabel, hwidget]
    exact (by decide : Widget.header ≠ Widget.textArea)

/-! ## Other displays -/

theorem shows_separator (hwidget : fields.widget = .separator)
    (hneutral : Neutral "EditorGUILayout.LabelField(\"\", GUI.skin.horizontalSlider);") :
    Shows "EditorGUILayout.LabelField(\"\", GUI.skin.horizontalSlider);"
      (fields.readBack kind) := by
  have hcode : ("EditorGUILayout.LabelField(\"\", GUI.skin.horizontalSlider);" : Text) =
      textStatement [] (commaEach ["GUI.skin.horizontalSlider"] ++ ");".toList) := by
    decide
  obtain ⟨hstatement, havoids⟩ := statement_textCall (by decide_cbv)
    (List.forall_mem_singleton.mpr (by decide_cbv)) hcode hneutral
  have hshape : CallShape.all[19]? = some separator := rfl
  have hshown : fields.readBack kind = labelled .separator "Separator" := by
    simp only [readBack, onlyLabel, hwidget, labelled]
  refine shows_of_match?_none hshape ?_ ?_ hstatement havoids ?_
  · rw [hcode]
    exact fun _ => match?_earlier_none
  · rw [hshown]
    decide
  · rw [hshown]
    decide

/-- A call with a fixed front is a statement and keeps clear of the names of
containers when its arguments do. -/
theorem statement_fixedCall {front rest code : Text} (hcode : code = front ++ (rest ++ ");".toList))
    (hfront : isFront containerCalls front && !front.isEmpty && front.head?.all (!isBlank ·))
    (hrest : Avoids containerCalls rest) (hneutral : Neutral code) :
    Statement code ∧ Avoids containerCalls code := by
  rw [Bool.and_eq_true, Bool.and_eq_true] at hfront
  obtain ⟨⟨hfront, hne⟩, hfirst⟩ := hfront
  have hclose : isSeam containerCalls ");".toList := by decide
  have hend := hrest.seam hclose avoids_nil
  rw [List.append_nil] at hend
  constructor
  · have hsuffix : ");".toList <:+ code :=
      hcode ▸ (List.suffix_append rest _).trans (List.suffix_append _ _)
    refine statement_of_call hneutral ?_ hsuffix
    rw [hcode]
    cases front with
    | nil => cases hne
    | cons c others =>
      rintro d ⟨⟩
      simpa using hfirst
  · rw [hcode]
    exact hend.front hfront

theorem shows_helpBox (h : fields.Plain) (hwidget : fields.widget = .helpBox)
    (hneutral : Neutral ("EditorGUILayout.HelpBox(" ++
      quote ((present? fields.defaultValue).getD fields.label) ++ ", MessageType." ++
        Named.name (fields.severity.getD .info) ++ ");")) :
    Shows ("EditorGUILayout.HelpBox(" ++
      quote ((present? fields.defaultValue).getD fields.label) ++ ", MessageType." ++
        Named.name (fields.severity.getD .info) ++ ");") (fields.readBack kind) := by
  have hopen : ("EditorGUILayout.HelpBox(" : Text) = "EditorGUILayout.HelpBox".toList ++ ['('] := by
    decide
  have htype : (", MessageType." : Text) = ',' :: ' ' :: "MessageType.".toList := by decide
  have hcode : "EditorGUILayout.HelpBox(" ++
      quote ((present? fields.defaultValue).getD fields.label) ++ ", MessageType." ++
        Named.name (fields.severity.getD .info) ++ ");" =
      "EditorGUILayout.HelpBox(".toList ++ ((quote ((present? fields.defaultValue).getD
        fields.label) ++ (", MessageType.".toList ++ Named.name (fields.severity.getD .info))) ++
          ");".toList) := by
    simp only [List.append_assoc]
  have hmessage : Avoids containerCalls ((present? fields.defaultValue).getD fields.label) :=
    h.avoids_message fun text htext => by simp [ElementFields.texts, Option.mem_def.mp htext]
  have hseverity : ∀ severity : Severity,
      Avoids containerCalls (", MessageType.".toList ++ Named.name severity) := by
    intro severity
    cases severity <;> decide_cbv
  have hrest := (avoids_quote hmessage).append_of_head (hseverity (fields.severity.getD .info))
    (by rintro c ⟨⟩; decide_cbv)
  obtain ⟨hstatement, havoids⟩ := statement_fixedCall hcode (by decide_cbv) hrest hneutral
  have hentry : ("EditorGUILayout.HelpBox(", 17) ∈ [("EditorGUILayout.HelpBox(", 17),
      ("EditorGUILayout.Space(", 18), ("EditorGUILayout.LabelField(", 19),
      ("EditorGUI.ProgressBar(", 20)] := by decide
  have hshape : CallShape.all[17]? = some helpBox := rfl
  have hread := recognise?_helpBox ((present? fields.defaultValue).getD fields.label)
    (fields.severity.getD .info)
  have hshown : fields.readBack kind =
      { widget := .helpBox, label := (present? fields.defaultValue).getD fields.label,
        defaultValue := some ((present? fields.defaultValue).getD fields.label),
        severity := some (fields.severity.getD .info) } := by
    simp only [readBack, onlyLabel, hwidget]
  refine shows_of_sketch hshape (rulesOut_fixed _ hentry) ?_ ?_ hstatement havoids ?_
  · rw [hcode]
    exact Fits.rest.known_append _
  · rw [hshown, ← hread, hopen, htype]
    simp
  · rw [hshown]
    exact (by decide : Widget.helpBox ≠ Widget.textArea)

theorem shows_space (h : fields.Plain) (hwidget : fields.widget = .space) {height : Int}
    (hheight : height = if fields.spaceHeight.getD 10 = 0 then 10 else fields.spaceHeight.getD 10)
    (hneutral : Neutral ("EditorGUILayout.Space(" ++ intText height ++ ");")) :
    Shows ("EditorGUILayout.Space(" ++ intText height ++ ");") (fields.readBack kind) := by
  have hnonneg : 0 ≤ height := by
    have hset : 0 ≤ fields.spaceHeight.getD 10 := by
      cases hspace : fields.spaceHeight with
      | none => decide
      | some set => exact h.spaceHeight set hspace
    rw [hheight]
    split
    · decide
    · exact hset
  obtain ⟨count, rfl⟩ := Int.eq_ofNat_of_zero_le hnonneg
  have hcode : "EditorGUILayout.Space(" ++ intText count ++ ");" =
      "EditorGUILayout.Space(".toList ++ (intText count ++ ");".toList) :=
    List.append_assoc _ _ _
  have hnumber : Avoids containerCalls (intText count) := by
    have hplain := avoids_number (showsNumber_intText count) [] (by decide)
    rwa [List.append_nil] at hplain
  obtain ⟨hstatement, havoids⟩ := statement_fixedCall hcode (by decide_cbv) hnumber hneutral
  have hentry : ("EditorGUILayout.Space(", 18) ∈ [("EditorGUILayout.HelpBox(", 17),
      ("EditorGUILayout.Space(", 18), ("EditorGUILayout.LabelField(", 19),
      ("EditorGUI.ProgressBar(", 20)] := by decide
  have hshape : CallShape.all[18]? = some space := rfl
  have hshown : fields.readBack kind =
      { widget := .space, label := "Space", spaceHeight := some (count : Int) } := by
    simp only [readBack, onlyLabel, hwidget, ← hheight]
  refine shows_of_sketch hshape (rulesOut_fixed _ hentry) ?_ ?_ hstatement havoids ?_
  · rw [hcode]
    exact Fits.rest.known_append _
  · have hopen : ("EditorGUILayout.Space(" : Text) =
        "EditorGUILayout".toList ++ (".Space".toList ++ ['(']) := by decide
    rw [hshown, ← recognise?_space, intText_of_nonneg (Int.natCast_nonneg count), hopen]
    simp
  · rw [hshown]
    exact (by decide : Widget.space ≠ Widget.textArea)

theorem shows_progressBar (h : fields.Plain) (hwidget : fields.widget = .progressBar)
    (hneutral : Neutral ("EditorGUI.ProgressBar(EditorGUILayout.GetControlRect(false, 20), " ++
      fields.variableName ++ ", " ++ quote fields.label ++ ");")) :
    Shows ("EditorGUI.ProgressBar(EditorGUILayout.GetControlRect(false, 20), " ++
      fields.variableName ++ ", " ++ quote fields.label ++ ");") (fields.readBack kind) := by
  have hbound : fields.widget.hasNoVariable = false := by rw [hwidget]; rfl
  have hname := h.isName_variableName hbound
  have hopen : ("EditorGUI.ProgressBar(EditorGUILayout.GetControlRect(false, 20), " : Text) =
      "EditorGUI.ProgressBar".toList ++ ("(".toList ++
        ("EditorGUILayout.GetControlRect(false, 20)".toList ++ [',', ' '])) := by decide
  have hcomma : (", " : Text) = [',', ' '] := by decide
  have hcode : "EditorGUI.ProgressBar(EditorGUILayout.GetControlRect(false, 20), " ++
      fields.variableName ++ ", " ++ quote fields.label ++ ");" =
        "EditorGUI.ProgressBar(EditorGUILayout.GetControlRect(false, 20), ".toList ++
          ((fields.variableName ++ (", ".toList ++ quote fields.label)) ++ ");".toList) := by
    simp only [List.append_assoc]
  have hrest := (avoids_name hname).seam (show isSeam containerCalls ", ".toList by decide)
    (avoids_quote h.avoids_label)
  obtain ⟨hstatement, havoids⟩ := statement_fixedCall hcode (by decide_cbv) hrest hneutral
  have hentry : ("EditorGUI.ProgressBar(", 20) ∈ [("EditorGUILayout.HelpBox(", 17),
      ("EditorGUILayout.Space(", 18), ("EditorGUILayout.LabelField(", 19),
      ("EditorGUI.ProgressBar(", 20)] := by decide
  have hfront : "EditorGUI.ProgressBar(EditorGUILayout.GetControlRect(false, 20), ".toList =
      "EditorGUI.ProgressBar(".toList ++ "EditorGUILayout.GetControlRect(false, 20), ".toList := by
    decide
  have hshape : CallShape.all[20]? = some progressBar := rfl
  have hshown : fields.readBack kind =
      { widget := .progressBar, variableName := fields.variableName, label := fields.label } := by
    simp only [readBack, onlyBound, hwidget]
  refine shows_of_sketch hshape (rulesOut_fixed _ hentry) ?_ ?_ hstatement havoids ?_
  · rw [hcode, hfront, List.append_assoc]
    exact Fits.rest.known_append _
  · rw [hshown, ← recognise?_progressBar hname fields.label, hopen, hcomma]
    simp
  · rw [hshown]
    exact (by decide : Widget.progressBar ≠ Widget.textArea)

end ElementFields

end EditorScript
