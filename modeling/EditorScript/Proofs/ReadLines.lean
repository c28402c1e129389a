import EditorScript.Proofs.ContainerEnd
import EditorScript.Recovery.Body

/-!
# Lines that are read back

Lines are read back as a forest when recovery takes them for it whatever follows
them.  Only a label minds what follows, since it belongs to a text area behind it;
so what follows must not begin with one.  The judgement is closed under putting
lines behind each other, and elements of one or two statements are read back.
-/

namespace EditorScript

open Step

variable {line : Text} {rest behind inner : List Text}

/-! ## Lines as a forest -/

/-- Lines that recovery takes for a forest, whatever follows. -/
structure ReadsAs (lines : List Text) (forest : Forest) : Prop where
  recover : ∀ rest, LabelSafe rest → recoverLines (lines ++ rest) =
    ⟨forest ++ (recoverLines rest).elements, (recoverLines rest).warnings⟩
  labelSafe : ∀ rest, LabelSafe rest → LabelSafe (lines ++ rest)
  passes : ContainerShape.Passes lines

theorem labelSafe_nil : LabelSafe [] := by
  intro place code hcode
  cases hcode

namespace ReadsAs

variable {lines others : List Text} {forest trees : Forest}

theorem nil : ReadsAs [] [] where
  recover _ _ := rfl
  labelSafe _ h := h
  passes := ContainerShape.passes_nil

theorem append (h : ReadsAs lines forest) (h' : ReadsAs others trees) :
    ReadsAs (lines ++ others) (forest ++ trees) where
  recover rest hrest := by
    rw [List.append_assoc, h.recover _ (h'.labelSafe rest hrest), h'.recover rest hrest,
      List.append_assoc]
  labelSafe rest hrest := by
    rw [List.append_assoc]
    exact h.labelSafe _ (h'.labelSafe rest hrest)
  passes := h.passes.append h'.passes

/-- The lines alone are recovered as the forest, without a warning. -/
theorem recoverLines_eq (h : ReadsAs lines forest) : recoverLines lines = ⟨forest, []⟩ := by
  have hread := h.recover [] labelSafe_nil
  rwa [List.append_nil, recoverLines_nil, List.append_nil] at hread

/-- A blank line stands for nothing. -/
theorem blank : ReadsAs [[]] [] where
  recover _ _ := recoverLines_of_skip rfl
  labelSafe rest hrest := by
    intro place code hcode
    have hfirst : firstCode? ([] :: rest) =
        (firstCode? rest).map fun found => (found.1 + 1, found.2) := rfl
    rw [List.singleton_append, hfirst, Option.map_eq_some_iff] at hcode
    obtain ⟨⟨before, code⟩, hbefore, heq⟩ := hcode
    cases heq
    exact hrest before code hbefore
  passes := ContainerShape.passes_of_code avoids_nil

end ReadsAs

/-- No text area begins where a statement begins that is none. -/
theorem labelSafe_of_statement {code : Text} (h : Statement code)
    (hcall : ∀ found, matchCall? code = some found → found.2.widget ≠ .textArea) (count : Nat)
    (rest : List Text) : LabelSafe ((Text.spaces count ++ code) :: rest) := by
  intro place first hfirst
  rw [h.firstCode?_eq] at hfirst
  cases hfirst
  exact hcall

/-- A line that is passed over as boilerplate. -/
theorem readsAs_boilerplate {code : Text} (h : Statement code) (hcomment : code.startsWith "/*" = false)
    (hboilerplate : isBoilerplate code) (hend : code.endsWith ";") (hcall : matchCall? code = none)
    (havoids : Avoids containerCalls code) (count : Nat) :
    ReadsAs [Text.spaces count ++ code] [] where
  recover rest _ := by
    rw [List.singleton_append]
    refine recoverLines_of_skip ?_
    have hempty : code.isEmpty = false := by simpa using h.ne_nil
    simp only [next, boilerplateExtent, List.headD_cons, h.codeOf_eq, hempty,
      hcomment, hboilerplate, hend, Bool.true_or, Bool.false_eq_true, if_true, if_false,
      List.drop_zero]
  labelSafe rest _ := labelSafe_of_statement h (by simp [hcall]) count rest
  passes := ContainerShape.passes_of_code (by rwa [h.codeOf_eq])

/-- A statement that shows an element is read back as it. -/
theorem readsAs_of_shows {code : Text} {shown : ElementFields} (h : Shows code shown)
    (count : Nat) : ReadsAs [Text.spaces count ++ code] [.leaf shown] where
  recover rest hrest := by
    obtain ⟨name, hcall⟩ := h.call
    exact recoverLines_of_take (next_of_call (h.statement.codeOf_eq count) h.statement.ne_nil
      h.ordinary hrest hcall)
  labelSafe rest _ := by
    obtain ⟨name, hcall⟩ := h.call
    refine labelSafe_of_statement h.statement (fun found hfound => ?_) count rest
    rw [hcall] at hfound
    cases hfound
    exact h.widget
  passes := ContainerShape.passes_of_code (by rw [h.statement.codeOf_eq]; exact h.avoids)

/-! ## Elements of one statement -/

namespace ElementFields

variable {fields : ElementFields} {width level : Nat} {kind : ScriptKind} {inside texts : List Text}

/-- The widgets of one statement that shows nothing but a label and a variable. -/
def boundWidgets : List Widget :=
  [.intField, .floatField, .toggle, .colorField, .vector2Field, .vector3Field, .layerField,
    .tagField, .curveField, .gradientField]

theorem readBack_of_bound (hwidget : fields.widget ∈ boundWidgets) :
    fields.readBack kind = fields.onlyBound := by
  simp only [boundWidgets, List.mem_cons, List.not_mem_nil, or_false] at hwidget
  unfold readBack
  rcases hwidget with h | h | h | h | h | h | h | h | h | h <;> rw [h]

/-- An element of one statement is read back from it. -/
theorem Plain.exists_shown (h : fields.Plain) (hsingle : fields.widget.isSingle)
    (htexts : fields.lines width level kind inside = .ok texts) :
    ∃ code, texts = [indentation width level ++ code] ∧ Shows code (fields.readBack kind) := by
  obtain ⟨statement, hneutral, rfl⟩ := exists_statement h.enclosed h.known hsingle htexts
  refine ⟨statement, rfl, ?_⟩
  have hshown : ∀ code, (.ok [indentation width level ++ code] :
      Except EmissionError (List Text)) = .ok [indentation width level ++ statement] →
        (Neutral code → Shows code (fields.readBack kind)) →
          Shows statement (fields.readBack kind) := by
    intro code heq hshows
    have hcode : code = statement :=
      List.append_cancel_left (List.cons.inj (Except.ok.inj heq)).1
    exact hcode ▸ hshows (hcode ▸ hneutral)
  have hsimple : ∀ {widget : Widget} {call : String} (shapeName : String) (count : Nat),
      fields.widget = widget → (call, count) ∈ valueCalls →
      CallShape.all[count]? = some (CallShape.simple shapeName call widget) →
      widget.hasNoVariable = false → widget ∈ boundWidgets →
      (.ok [indentation width level ++ fields.valueCall call []] :
        Except EmissionError (List Text)) = .ok [indentation width level ++ statement] →
      Shows statement (fields.readBack kind) := by
    rintro widget call shapeName count rfl hentry hshape hbound hmem hlines
    have hkind : fields.widget ≠ .textArea := fun htext => by
      rw [htext] at hmem
      exact absurd hmem (by decide)
    refine hshown _ hlines fun hneutral => ?_
    rw [readBack_of_bound hmem]
    exact shows_simple h hbound hentry hshape hneutral hkind
  have hlines := htexts
  cases hwidget : fields.widget <;> simp only [lines, hwidget] at hlines
  case button | textArea | foldout | tabGroup | horizontalGroup | verticalGroup | scrollView
      | disabledGroup | box => exact absurd (hwidget ▸ hsingle) (by decide)
  case intField => exact hsimple "int-field" 4 hwidget (by decide) rfl rfl (by decide) hlines
  case floatField => exact hsimple "float-field" 5 hwidget (by decide) rfl rfl (by decide) hlines
  case colorField => exact hsimple "color-field" 9 hwidget (by decide) rfl rfl (by decide) hlines
  case vector2Field =>
    exact hsimple "vector2-field" 10 hwidget (by decide) rfl rfl (by decide) hlines
  case vector3Field =>
    exact hsimple "vector3-field" 11 hwidget (by decide) rfl rfl (by decide) hlines
  case layerField => exact hsimple "layer-field" 13 hwidget (by decide) rfl rfl (by decide) hlines
  case tagField => exact hsimple "tag-field" 14 hwidget (by decide) rfl rfl (by decide) hlines
  case curveField => exact hsimple "curve-field" 15 hwidget (by decide) rfl rfl (by decide) hlines
  case gradientField =>
    exact hsimple "gradient-field" 16 hwidget (by decide) rfl rfl (by decide) hlines
  case toggle =>
    refine hshown _ hlines fun hneutral => ?_
    rw [readBack_of_bound (by rw [hwidget]; decide)]
    exact shows_toggle h hwidget hneutral
  case slider => exact hshown _ hlines (shows_slider h hwidget)
  case intSlider =>
    obtain ⟨code, hcode, hshows⟩ := shows_intSlider h hwidget
    exact hshown code (hcode.symm.trans htexts) hshows
  case popup => exact hshown _ hlines (shows_popup h hwidget)
  case textField => exact hshown _ hlines (shows_textField h hwidget)
  case objectField => exact hshown _ hlines (shows_objectField h hwidget)
  case enumPopup => exact hshown _ hlines (shows_enumPopup h hwidget)
  case label => exact hshown _ hlines (shows_label h hwidget)
  case helpBox => exact hshown _ hlines (shows_helpBox h hwidget)
  case space => exact hshown _ hlines (shows_space h hwidget rfl)
  case separator => exact hshown _ hlines (shows_separator hwidget)
  case header => exact hshown _ hlines (shows_header h hwidget)
  case progressBar => exact hshown _ hlines (shows_progressBar h hwidget)

end ElementFields

/-! ## Text areas -/

namespace Step

open Pattern CallShape

theorem match?_plainLabel (content : Text) :
    Gives (plainLabel.match? (textStatement content ");".toList)) (fun found =>
      found.captures = [("text", escape content)]) := by
  simp only [match?, matchAt, plainLabel, run_append, run_start]
  unfold textStatement
  refine run_opening (head?_quote_append _ _) (fun before => ?_) none
  rw [run_literal]
  exact run_closing (fun before => ⟨_, rfl, rfl⟩) _

/-- A label belongs to the text area behind it. -/
theorem labelledTextArea?_of_statement {content code area : Text} {shown : ElementFields}
    {name : String} (hcode : codeOf line = textStatement content ");".toList)
    (hstatement : Statement code) {count : Nat} (harea : area = Text.spaces count ++ code)
    (hcall : matchCall? code = some (name, shown)) (hwidget : shown.widget = .textArea) :
    labelledTextArea? line (area :: rest) =
      some (take (.leaf { shown with label := content }) [] rest) := by
  obtain ⟨found, hfound, hcaptures⟩ := match?_plainLabel content
  have htext : textOf found "text" = content := by
    rw [textOf, Position.captured, Position.captured?, hcaptures]
    exact unescape_escape content
  simp only [labelledTextArea?, hcode, hfound, harea, hstatement.firstCode?_eq, hcall, hwidget,
    htext, if_true]
  rfl

/-- A label in front of a text area is taken together with it. -/
theorem next_of_labelled {content code area : Text} {shown : ElementFields} {name : String}
    (hcode : codeOf line = textStatement content ");".toList)
    (h : Ordinary (textStatement content ");".toList)) (hstatement : Statement code) {count : Nat}
    (harea : area = Text.spaces count ++ code) (hcall : matchCall? code = some (name, shown))
    (hwidget : shown.widget = .textArea) :
    next line (area :: rest) = take (.leaf { shown with label := content }) [] rest := by
  have hempty : (textStatement content ");".toList).isEmpty = false := by
    unfold textStatement
    rfl
  have hlabelled : labelledTextArea? line (area :: rest) = _ :=
    labelledTextArea?_of_statement hcode hstatement harea hcall hwidget
  simp only [next, hcode, hempty, h.comment, h.boilerplate, container?, foldout?, tabGroup?,
    button?, h.container, h.foldout, h.toolbar, h.button, hlabelled, Option.map_none,
    Option.bind_none, Option.or_none, Option.none_or, Option.some_or, Option.getD_some,
    Bool.false_eq_true, if_false]

end Step

namespace ElementFields

open CallShape

variable {fields : ElementFields} {width level : Nat} {kind : ScriptKind} {inside texts : List Text}

/-- The statement of a text area in the form in which it is read. -/
theorem textAreaCode_eq (fields : ElementFields) :
    fields.variableName ++ " = EditorGUILayout.TextArea(" ++
      fields.styledArguments [fields.variableName, "GUILayout.Height(60)"]
        "EditorStyles.textArea" ++ ");" =
      textAreaStatement fields.variableName
        (styleSuffix (fields.style? "EditorStyles.textArea") ++ ");".toList) := by
  have hcall : (" = EditorGUILayout.TextArea(" : Text) = " = ".toList ++
      ("EditorGUILayout".toList ++ (".".toList ++ ("TextArea".toList ++ ['(']))) := by decide
  have hheight : (", GUILayout.Height(60)" : Text) =
      ", ".toList ++ "GUILayout.Height(60)".toList := by decide
  have hcomma : commaEach ("GUILayout.Height(60)".toList ::
      (fields.style? "EditorStyles.textArea").toList) = ", ".toList ++
        "GUILayout.Height(60)".toList ++ styleSuffix (fields.style? "EditorStyles.textArea") := by
    rw [← commaEach_style, commaEach, List.flatMap_cons]
    rfl
  rw [hcall, styledArguments_eq, List.cons_append, List.singleton_append, join_comma_cons, hcomma,
    textAreaStatement, hheight]
  simp only [List.append_assoc, List.cons_append, List.nil_append]

theorem fits_textArea {name : Text} (hname : isName name) (rest : Text) :
    Fits (Sketch.value "TextArea") (textAreaStatement name rest) := by
  have hfront : " = EditorGUILayout.".toList =
      " = ".toList ++ ("EditorGUILayout".toList ++ ".".toList) := by decide
  have hrest : Fits [.char '(', .rest]
      ('(' :: (name ++ (", GUILayout.Height(60)".toList ++ rest))) := .char .rest
  have hcode := ((hrest.known_append "TextArea".toList).known_append
    " = EditorGUILayout.".toList).name_append hname
  rw [hfront] at hcode
  simpa only [Sketch.value, hfront, textAreaStatement, List.append_assoc] using hcode

/-- The second statement of a text area is read with the look and the variable. -/
theorem Plain.reads_textArea (h : fields.Plain) (kind : ScriptKind) (hwidget : fields.widget = .textArea)
    {code : Text} (hcode : code = textAreaStatement fields.variableName
      (styleSuffix (fields.style? "EditorStyles.textArea") ++ ");".toList)) :
    ∃ name shown, matchCall? code = some (name, shown) ∧ shown.widget = .textArea ∧
      { shown with label := fields.label } = fields.readBack kind := by
  have hbound : fields.widget.hasNoVariable = false := by rw [hwidget]; rfl
  have hname := h.isName_variableName hbound
  have husual : StyleBase "EditorStyles.textArea" := styleBase_of_all (by decide)
  have hstyleable : fields.widget.isStyleable := by rw [hwidget]; rfl
  have hstyle : ∀ text ∈ fields.style? "EditorStyles.textArea", CallArgument text :=
    fun _ => callArgument_style husual h.boxStyle
  have hlook : Lookless { widget := .textArea, variableName := fields.variableName,
                          label := fields.variableName } := ⟨rfl, rfl, rfl, rfl⟩
  have hread := recognise?_textArea hname hstyle
    (applyStyle?_style hlook hstyleable h.hasReadableStyle husual)
  have hentry : ("TextArea", 3) ∈ valueCalls := by decide
  have hshape : CallShape.all[3]? = some textArea := rfl
  have hfront : ∀ pattern ∈ callsBefore 3, pattern.match? code = none := by
    intro pattern hpattern
    rw [hcode]
    exact Pattern.match?_eq_none_of_rulesOut
      (rulesOut_value _ hentry pattern (List.mem_append_right _ hpattern)) (fits_textArea hname _)
  refine ⟨_, _, matchCall?_of_recognise hshape hfront (hcode ▸ hread), rfl, ?_⟩
  rw [readBack, hwidget, onlyBound, hwidget]
  rfl

/-- It is a statement and keeps clear of the names of containers. -/
theorem Plain.statement_textArea (h : fields.Plain) (hwidget : fields.widget = .textArea)
    {code : Text} (hcode : code = fields.variableName ++ " = EditorGUILayout.TextArea(" ++
      fields.styledArguments [fields.variableName, "GUILayout.Height(60)"]
        "EditorStyles.textArea" ++ ");") : Statement code ∧ Avoids containerCalls code := by
  have hbound : fields.widget.hasNoVariable = false := by rw [hwidget]; rfl
  have hname := h.isName_variableName hbound
  have hneutralName := neutral_of_isDottedName (isDottedName_of_isName hname)
  have hneutral : Neutral code := by
    rw [hcode]
    exact neutral_styledCall (hneutralName.append (neutral_literal (by decide)))
      (separable_pair hneutralName.separable (neutral_literal (by decide)).separable)
      (neutral_literal (by decide)).separable (loose_literal (by decide) (by decide))
  have hopen : (" = EditorGUILayout.TextArea(" : Text) =
      " = EditorGUILayout.TextArea".toList ++ "(".toList := by decide
  have hcall : code = (fields.variableName ++ " = EditorGUILayout.TextArea".toList) ++
      ("(".toList ++ (Text.join ", " ([fields.variableName, "GUILayout.Height(60)".toList] ++
        (fields.style? "EditorStyles.textArea").toList) ++ ");".toList)) := by
    rw [hcode, hopen, styledArguments_eq]
    simp only [List.append_assoc]
  have hstyle : ∀ style ∈ (fields.style? "EditorStyles.textArea").toList,
      Avoids containerCalls style := fun style hmem =>
    avoids_style foreign_containerCalls (by decide_cbv) h.boxStyle (Option.mem_toList.mp hmem)
  constructor
  · refine statement_of_call hneutral ?_ ⟨_, hcode.symm⟩
    rw [hcode, List.append_assoc, List.append_assoc]
    exact head?_name_append hname _
  · rw [hcall]
    refine avoids_call ((avoids_name hname).append_of_head (by decide_cbv)
      (by rintro c ⟨⟩; decide)) (List.forall_mem_append.mpr ⟨?_, hstyle⟩)
    exact List.forall_mem_cons.mpr ⟨avoids_name hname,
      List.forall_mem_singleton.mpr (by decide_cbv)⟩

/-- A label without a style is a statement that nothing before the calls takes. -/
theorem statement_plainLabel {content : Text} (hcontent : Avoids containerCalls content) :
    Statement (textStatement content ");".toList) ∧
      Avoids containerCalls (textStatement content ");".toList) ∧
      Ordinary (textStatement content ");".toList) := by
  have hopen : "EditorGUILayout.LabelField(".toList =
      "EditorGUILayout.LabelField".toList ++ ['('] := by decide
  have hcode : textStatement content ");".toList =
      "EditorGUILayout.LabelField(".toList ++ (quote content ++ ");".toList) := by
    rw [hopen]
    unfold textStatement
    simp
  have hneutral : Neutral (textStatement content ");".toList) := by
    rw [hcode]
    exact (neutral_literal (by decide)).append
      ((separable_quote content).append (loose_literal (by decide) (by decide)))
  obtain ⟨hstatement, havoids⟩ :=
    statement_textCall hcontent (List.forall_mem_nil _) (by rfl) hneutral
  exact ⟨hstatement, havoids, ordinary_of_match?_none fun pattern hpattern =>
    match?_earlier_none (List.mem_append_left _ hpattern)⟩

/-- A text area is read back from its two statements. -/
theorem Plain.readsAs_textArea (h : fields.Plain) (hwidget : fields.widget = .textArea)
    (htexts : fields.lines width level kind inside = .ok texts) :
    ReadsAs (texts.flatMap Text.lines) [.leaf (fields.readBack kind)] := by
  obtain ⟨hlabel, havoidsLabel, hordinary⟩ := statement_plainLabel h.avoids_label
  obtain ⟨harea, havoidsArea⟩ := h.statement_textArea hwidget rfl
  obtain ⟨name, shown, hcall, hkind, hshown⟩ :=
    h.reads_textArea kind hwidget fields.textAreaCode_eq
  have hopen : ("EditorGUILayout.LabelField(" : Text) =
      "EditorGUILayout.LabelField".toList ++ ['('] := by decide
  have hfirst : indentation width level ++ "EditorGUILayout.LabelField(" ++ quote fields.label ++
      ");" = Text.spaces (width * level) ++ textStatement fields.label ");".toList := by
    rw [hopen]
    unfold textStatement
    simp [indentation]
  have hsecond : indentation width level ++ fields.variableName ++
      " = EditorGUILayout.TextArea(" ++ fields.styledArguments
        [fields.variableName, "GUILayout.Height(60)"] "EditorStyles.textArea" ++ ");" =
      Text.spaces (width * level) ++ (fields.variableName ++ " = EditorGUILayout.TextArea(" ++
        fields.styledArguments [fields.variableName, "GUILayout.Height(60)"]
          "EditorStyles.textArea" ++ ");") := by
    simp only [indentation, List.append_assoc]
  have hnone : textArea.pattern.match? (textStatement fields.label ");".toList) = none :=
    match?_earlier_none (List.mem_append_right _ (List.mem_of_getElem? (i := 3) rfl))
  simp only [lines, hwidget] at htexts
  obtain rfl := Except.ok.inj htexts
  rw [hfirst, hsecond, List.flatMap_cons, List.flatMap_singleton, hlabel.lines_eq, harea.lines_eq]
  constructor
  · intro rest _
    rw [List.singleton_append, List.cons_append, ← hshown]
    exact recoverLines_of_take
      (next_of_labelled (hlabel.codeOf_eq _) hordinary harea rfl hcall hkind)
  · intro rest _
    exact labelSafe_of_statement hlabel (fun _ => matchCall?_ne_textArea hnone) _ _
  · refine ContainerShape.Passes.append (ContainerShape.passes_of_code ?_)
      (ContainerShape.passes_of_code ?_)
    · rw [hlabel.codeOf_eq]
      exact havoidsLabel
    · rw [harea.codeOf_eq]
      exact havoidsArea

end ElementFields

end EditorScript
