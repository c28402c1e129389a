import EditorScript.Proofs.ClosedStatement
import EditorScript.Proofs.Everywhere

/-!
# Elements that stay within their braces

Each line of a written element either leaves the depth of braces alone or opens
or closes one block.  The lines of one widget are put together first, then those
of a tree, by its shape.
-/

namespace EditorScript

/-- A neutral line. -/
theorem nests_line {line : Text} (h : Neutral line) (depth : Nat) :
    Nests depth line.lines depth := by
  rw [h.lines_eq]
  exact .of_neutral h depth

/-- A neutral statement at any margin. -/
theorem nests_statement {statement : Text} (h : Neutral statement) (width level depth : Nat) :
    Nests depth (indentation width level ++ statement).lines depth :=
  nests_line ((neutral_indentation width level).append h) depth

private theorem nests_margin_brace {width level depth later : Nat} {brace : Char}
    (hbrace : List.all [brace] isPlain) (hline : brace ≠ '\n')
    (hdepth : nesting? depth [brace] = some later) :
    Nests depth (indentation width level ++ [brace]).lines later := by
  obtain ⟨hmargin, -, chars, hreads, hkeeps⟩ :=
    neutral_indentation width level [] calm_nil
  rw [Text.lines_eq_singleton (by simp [hmargin, hline.symm])]
  refine .of_reads (hreads.append (.of_plain hbrace _)) ?_
  rw [nesting?_append, hkeeps]
  exact hdepth

/-- The line that opens a block. -/
theorem nests_opening (width level depth : Nat) :
    Nests depth (indentation width level ++ ['\x7b']).lines (depth + 1) :=
  nests_margin_brace rfl (by decide) (by simp [nesting?])

/-- The line that closes a block. -/
theorem nests_closing (width level depth : Nat) :
    Nests (depth + 1) (indentation width level ++ ['\x7d']).lines depth :=
  nests_margin_brace rfl (by decide) (by simp [nesting?])

/-- A line that is a comment. -/
theorem nests_comment (width level : Nat) (comment : Text) (hline : '\n' ∉ comment)
    (depth : Nat) :
    Nests depth (indentation width level ++ '/' :: '/' :: comment).lines depth := by
  have hmargin := (neutral_indentation width level [] calm_nil).oneLine
  rw [Text.lines_eq_singleton (by simp [hmargin, hline])]
  exact .of_neutral_comment (neutral_indentation width level) comment depth

theorem lexicallyClosed_nil : LexicallyClosed [] := .blank 0

/-- Widgets whose elements are written as one statement. -/
def Widget.isSingle : Widget → Bool
  | .button | .textArea | .horizontalGroup | .verticalGroup | .foldout | .scrollView
  | .disabledGroup | .box | .tabGroup => false
  | _ => true

/-- What is present is set. -/
theorem eq_some_of_present? {text : Option Text} {content : Text}
    (h : present? text = some content) : text = some content :=
  (Option.filter_eq_some_iff.mp h).1

namespace ElementFields

variable {fields : ElementFields}

theorem Enclosed.dotted_variableName (h : fields.Enclosed) (hknown : fields.isOpaque = false)
    (hwidget : fields.widget.hasNoVariable = false) : isDottedName fields.variableName :=
  h.variableName (by simp [needsVariable, hknown, hwidget])

theorem isDottedName_variableType (h : fields.Enclosed) : isDottedName fields.variableType := by
  have hpresent : ∀ usual, isDottedName usual →
      isDottedName ((present? fields.objectType).getD usual) := by
    intro usual husual
    cases htype : present? fields.objectType with
    | none => exact husual
    | some type => exact h.objectType type (eq_some_of_present? htype)
  unfold variableType
  split
  · exact hpresent _ (by decide)
  · exact hpresent _ (by decide)
  · cases fields.widget <;> decide

/-- What a click runs is closed, whatever the texts of the button are. -/
theorem lexicallyClosed_actionCode
    (h : fields.action = some .customCode → ∀ code ∈ fields.actionParam, ClosedFragment code)
    (width level : Nat) (kind : ScriptKind) :
    LexicallyClosed (fields.actionCode width level kind) := by
  have hstatement : ∀ {statement : Text}, Neutral statement →
      LexicallyClosed (indentation width level ++ statement) :=
    fun hneutral => nests_statement hneutral width level 0
  have hcall : ∀ call : Text, call.all isTame → ∀ content rest : Text,
      rest.all isTame && !rest.isEmpty → Neutral (call ++ (quote content ++ rest)) := by
    intro call hcall content rest hrest
    simp only [Bool.and_eq_true, Bool.not_eq_true', List.isEmpty_eq_false_iff] at hrest
    exact (neutral_of_tame hcall).append
      ((separable_quote content).append (loose_of_tame hrest.1 hrest.2))
  have hdirty := neutral_dirtyTarget kind
  unfold actionCode
  dsimp only
  split
  · exact lexicallyClosed_nil
  · exact lexicallyClosed_nil
  · rw [List.append_assoc, List.append_assoc]
    exact hstatement (hcall _ (by decide) _ _ (by decide))
  · rw [List.append_assoc, List.append_assoc, List.append_assoc, List.append_assoc]
    refine hstatement ((neutral_literal (by decide)).append ?_)
    refine (separable_quote _).append ((loose_literal (by decide) (by decide)).append ?_)
    have hend : (", \"OK\");" : Text) = (", " : Text) ++ (quote "OK" ++ ");") := by decide
    rw [hend]
    refine (separable_quote _).append ((loose_literal (by decide) (by decide)).append ?_)
    exact (separable_quote _).append (loose_literal (by decide) (by decide))
  · exact hstatement (neutral_literal (by decide))
  · rw [List.append_assoc, List.append_assoc]
    exact hstatement ((neutral_literal (by decide)).append
      (hdirty.append (neutral_literal (by decide))))
  · rw [List.append_assoc, List.append_assoc, List.append_assoc, List.append_assoc]
    refine hstatement ((neutral_literal (by decide)).append (hdirty.append ?_))
    exact hcall _ (by decide) _ _ (by decide)
  · rename_i haction
    split_ifs with hblank
    · exact lexicallyClosed_nil
    · cases hparam : fields.actionParam with
      | none => simp [hparam, Text.blank] at hblank
      | some code =>
        have hcode := h haction code hparam
        exact hcode.closed.reindent hcode.noTab _

theorem nests_tabCases (width level number : Nat) {tabs : List Text}
    (h : ∀ tab ∈ tabs, '\n' ∉ tab) (depth : Nat) :
    Nests depth ((tabCases width level number tabs).flatMap Text.lines) depth := by
  induction tabs generalizing number with
  | nil => exact .nil depth
  | cons tab rest ih =>
    have hcase : Neutral (indentation width level ++ "case " ++ natText number ++ ": ") :=
      ((((neutral_indentation width level).append (neutral_literal (by decide))).append
        (neutral_natText number)).append (neutral_literal (by decide)))
    have hline : Nests depth (indentation width level ++ "case " ++ natText number ++ ": // " ++
        tab).lines depth := by
      have hmark : (": // " : Text) = (": " : Text) ++ ['/', '/', ' '] := by decide
      have hshape : ∀ front before : Text, front ++ (before ++ ['/', '/', ' ']) ++ tab =
          front ++ before ++ '/' :: '/' :: (' ' :: tab) := by simp
      rw [hmark, hshape, Text.lines_eq_singleton]
      · exact .of_neutral_comment hcase _ depth
      · have hfront := (hcase [] calm_nil).oneLine
        rw [List.mem_append, not_or]
        exact ⟨hfront, by simp [h tab List.mem_cons_self]⟩
    rw [tabCases, List.flatMap_cons, List.flatMap_cons]
    refine hline.append (.append (nests_statement (neutral_literal (by decide)) _ _ _) ?_)
    exact ih _ fun other hother => h other (List.mem_cons_of_mem _ hother)

theorem neutral_groupCalls (h : fields.Enclosed) :
    Neutral fields.groupCalls.1 ∧ Neutral fields.groupCalls.2 := by
  unfold groupCalls
  split
  · exact ⟨neutral_literal (by decide), neutral_literal (by decide)⟩
  · exact ⟨neutral_literal (by decide), neutral_literal (by decide)⟩
  · have hend : Neutral "EditorGUI.EndDisabledGroup();".toList := neutral_literal (by decide)
    refine ⟨?_, hend⟩
    refine ((neutral_literal (by decide)).append ?_).append (neutral_literal (by decide))
    cases hcondition : present? fields.disableCondition with
    | none => exact neutral_literal (by decide)
    | some condition =>
      exact neutral_of_isCondition (h.condition condition (eq_some_of_present? hcondition))
  · have hend : Neutral "EditorGUILayout.EndVertical();".toList := neutral_literal (by decide)
    refine ⟨?_, hend⟩
    have hbox : Separable "\"box\"".toList := separable_quote "box".toList
    rw [List.append_assoc]
    refine (neutral_literal (by decide)).append (Separable.append ?_
      (loose_literal (by decide) (by decide)))
    cases hstyle : fields.style? "\"box\"" with
    | none => exact hbox
    | some style => exact separable_style hbox hstyle
  · exact ⟨neutral_literal (by decide), neutral_literal (by decide)⟩

theorem neutral_limit (limit : Binary64) : Neutral (numberText limit ++ ['f']) :=
  (neutral_numberText limit).append (neutral_of_tame (by decide))

theorem neutral_wholeLimit {limit : Binary64} {text : Text} (h : wholeLimit limit = .ok text) :
    Neutral text := by
  unfold wholeLimit at h
  split at h
  · cases h
    exact neutral_intText _
  · cases h

/-- A call whose arguments end in a style. -/
theorem neutral_styledCall {call usual rest : Text} {arguments : List Text} (hcall : Neutral call)
    (h : ∀ argument ∈ arguments, Separable argument) (husual : Separable usual)
    (hrest : Loose rest) :
    Neutral (call ++ fields.styledArguments arguments usual ++ rest) := by
  rw [List.append_assoc]
  exact hcall.append (separable_styledArguments h husual hrest)

/-- Texts, at least one, that make a closed text when they are put together. -/
def ClosedTexts (texts : List Text) : Prop :=
  texts ≠ [] ∧ Nests 0 (texts.flatMap Text.lines) 0

theorem ClosedTexts.unlines {texts : List Text} (h : ClosedTexts texts) :
    LexicallyClosed (Text.unlines texts) :=
  (nests_unlines_iff h.1 0 0).mpr h.2

theorem ClosedTexts.of_neutral {statement : Text} (h : Neutral statement) (width level : Nat) :
    ClosedTexts [indentation width level ++ statement] :=
  ⟨by simp, by simpa using nests_statement h width level 0⟩

theorem separable_pair {first second : Text} (h : Separable first) (h' : Separable second) :
    ∀ argument ∈ [first, second], Separable argument :=
  List.forall_mem_cons.mpr ⟨h, List.forall_mem_singleton.mpr h'⟩

section Lines

variable {width level : Nat} {kind : ScriptKind} {inner texts : List Text}

/-- So is the block of a button, which holds a comment when there is nothing to run. -/
theorem lexicallyClosed_blockCode
    (h : fields.action = some .customCode → ∀ code ∈ fields.actionParam, ClosedFragment code)
    (width level : Nat) (kind : ScriptKind) :
    LexicallyClosed
      (if (fields.actionCode width level kind).isEmpty then
        indentation width level ++ "// Button action"
      else fields.actionCode width level kind) := by
  split
  · exact nests_comment width level " Button action".toList (by decide) 0
  · exact lexicallyClosed_actionCode h width level kind

private theorem closed_button (h : fields.Enclosed) (hwidget : fields.widget = .button)
    (htexts : fields.lines width level kind inner = .ok texts) : ClosedTexts texts := by
  have hhead : Neutral (indentation width level ++ "if (GUILayout.Button(" ++
      fields.styledArguments [quote fields.label] "\"button\"" ++ "))") :=
    neutral_styledCall ((neutral_indentation width level).append (neutral_literal (by decide)))
      (List.forall_mem_singleton.mpr (separable_quote fields.label))
      (separable_quote "button".toList) (loose_literal (by decide) (by decide))
  have hbody := lexicallyClosed_blockCode (fun haction => h.code (.inr ⟨hwidget, haction⟩)) width
    (level + 1) kind
  simp only [lines, hwidget] at htexts
  obtain rfl := Except.ok.inj htexts
  refine ⟨List.cons_ne_nil _ _, ?_⟩
  simp only [List.flatMap_cons, List.flatMap_nil, List.append_nil]
  exact (nests_line hhead 0).append ((nests_opening width level 0).append
    ((hbody.of_zero 1).append (nests_closing width level 0)))

private theorem closed_textArea (h : fields.Enclosed) (hknown : fields.isOpaque = false)
    (hwidget : fields.widget = .textArea)
    (htexts : fields.lines width level kind inner = .ok texts) : ClosedTexts texts := by
  have hname := neutral_of_isDottedName (h.dotted_variableName hknown (by rw [hwidget]; rfl))
  have hheight : Neutral "GUILayout.Height(60)".toList := neutral_literal (by decide)
  have hmargin := neutral_indentation width level
  have hfield : Neutral (indentation width level ++ fields.variableName ++
      " = EditorGUILayout.TextArea(" ++ fields.styledArguments
        [fields.variableName, "GUILayout.Height(60)"] "EditorStyles.textArea" ++ ");") :=
    neutral_styledCall ((hmargin.append hname).append (neutral_literal (by decide)))
      (separable_pair hname.separable hheight.separable) (neutral_literal (by decide)).separable
      (loose_literal (by decide) (by decide))
  have hhead : Neutral (indentation width level ++ "EditorGUILayout.LabelField(" ++
      quote fields.label ++ ");") := by
    rw [List.append_assoc]
    exact (hmargin.append (neutral_literal (by decide))).append
      ((separable_quote fields.label).append (loose_literal (by decide) (by decide)))
  simp only [lines, hwidget] at htexts
  obtain rfl := Except.ok.inj htexts
  refine ⟨List.cons_ne_nil _ _, ?_⟩
  simp only [List.flatMap_cons, List.flatMap_nil, List.append_nil]
  exact (nests_line hhead 0).append (nests_line hfield 0)

/-- The lines of a layout container around those of its children. -/
private theorem closed_group (h : fields.Enclosed) (hinner : ∀ text ∈ inner, LexicallyClosed text)
    (htexts : texts = (indentation width level ++ fields.groupCalls.1) :: inner ++
      [indentation width level ++ fields.groupCalls.2]) : ClosedTexts texts := by
  obtain ⟨hbegin, hend⟩ := neutral_groupCalls h
  have hchildren : Nests 0 (inner.flatMap Text.lines) 0 := .flatMap hinner
  subst htexts
  refine ⟨List.cons_ne_nil _ _, ?_⟩
  rw [List.cons_append, List.flatMap_cons, List.flatMap_append, List.flatMap_singleton]
  exact (nests_statement hbegin width level 0).append
    (hchildren.append (nests_statement hend width level 0))

private theorem closed_foldout (h : fields.Enclosed) (hknown : fields.isOpaque = false)
    (hinner : ∀ text ∈ inner, LexicallyClosed text) (hwidget : fields.widget = .foldout)
    (htexts : fields.lines width level kind inner = .ok texts) : ClosedTexts texts := by
  have hname := neutral_of_isDottedName (h.dotted_variableName hknown (by rw [hwidget]; rfl))
  have hmargin := neutral_indentation width level
  have hhead : Neutral (indentation width level ++ fields.variableName ++
      " = EditorGUILayout.Foldout(" ++ fields.variableName ++ ", " ++ quote fields.label ++
      ", true);") := by
    rw [List.append_assoc (_ ++ _) (quote _)]
    exact ((((hmargin.append hname).append (neutral_literal (by decide))).append hname).append
      (neutral_literal (by decide))).append
      ((separable_quote fields.label).append (loose_literal (by decide) (by decide)))
  have hcondition : Neutral (indentation width level ++ "if (" ++ fields.variableName ++ ")") :=
    ((hmargin.append (neutral_literal (by decide))).append hname).append
      (neutral_literal (by decide))
  have hforth : Neutral "EditorGUI.indentLevel++;".toList := neutral_literal (by decide)
  have hback : Neutral "EditorGUI.indentLevel--;".toList := neutral_literal (by decide)
  have hchildren : Nests 1 (inner.flatMap Text.lines) 1 :=
    .flatMap fun text htext => (hinner text htext).of_zero 1
  simp only [lines, hwidget] at htexts
  obtain rfl := Except.ok.inj htexts
  refine ⟨List.cons_ne_nil _ _, ?_⟩
  simp only [List.flatMap_cons, List.flatMap_append, List.flatMap_nil, List.append_nil]
  exact .append (.append
    ((nests_line hhead 0).append ((nests_line hcondition 0).append
      ((nests_opening width level 0).append
        (nests_statement hforth width (level + 1) 1))))
    hchildren) ((nests_statement hback width (level + 1) 1).append (nests_closing width level 0))

private theorem closed_tabGroup (h : fields.Enclosed) (hknown : fields.isOpaque = false)
    (hwidget : fields.widget = .tabGroup)
    (htexts : fields.lines width level kind inner = .ok texts) : ClosedTexts texts := by
  have hname := neutral_of_isDottedName (h.dotted_variableName hknown (by rw [hwidget]; rfl))
  have hmargin := neutral_indentation width level
  have htabs : ∀ tab ∈ listOr ["Tab 1", "Tab 2"] fields.tabs, '\n' ∉ tab := by
    unfold listOr
    split
    · decide
    · decide
    · rename_i tabs _ hset
      exact h.tabs tabs hset
  have hhead : Neutral (indentation width level ++ fields.variableName ++
      " = GUILayout.Toolbar(" ++ fields.variableName ++ ", " ++
      stringArray (listOr ["Tab 1", "Tab 2"] fields.tabs) ++ ");") := by
    exact (((((hmargin.append hname).append (neutral_literal (by decide))).append hname).append
      (neutral_literal (by decide))).append (loose_stringArray _).neutral).append
      (neutral_literal (by decide))
  have hswitch : Neutral (indentation width level ++ "switch (" ++ fields.variableName ++ ")") :=
    ((hmargin.append (neutral_literal (by decide))).append hname).append
      (neutral_literal (by decide))
  simp only [lines, hwidget] at htexts
  obtain rfl := Except.ok.inj htexts
  refine ⟨List.cons_ne_nil _ _, ?_⟩
  simp only [List.flatMap_cons, List.flatMap_append, List.flatMap_nil, List.append_nil]
  exact .append (.append
    ((nests_line hhead 0).append ((nests_line hswitch 0).append (nests_opening width level 0)))
    (nests_tabCases width (level + 1) 0 htabs 1)) (nests_closing width level 0)

private theorem exists_intSlider (h : fields.Enclosed) (hknown : fields.isOpaque = false)
    (hwidget : fields.widget = .intSlider)
    (htexts : fields.lines width level kind inner = .ok texts) :
    ∃ statement, Neutral statement ∧ texts = [indentation width level ++ statement] := by
  have hname := h.dotted_variableName hknown (by rw [hwidget]; rfl)
  simp only [lines, hwidget] at htexts
  cases hlow : wholeLimit (fields.minValue.getD (.ofInt 0)) with
  | error reason => simp [hlow, bind, Except.bind] at htexts
  | ok low =>
    cases hhigh : wholeLimit (fields.maxValue.getD (.ofInt 100)) with
    | error reason => simp [hlow, hhigh, bind, Except.bind] at htexts
    | ok high =>
      simp only [hlow, hhigh, bind, Except.bind] at htexts
      exact ⟨_, neutral_valueCall hname (neutral_literal (by decide))
        (separable_pair (neutral_wholeLimit hlow).separable
          (neutral_wholeLimit hhigh).separable), (Except.ok.inj htexts).symm⟩

/-- The statement of an element that is written as one. -/
theorem exists_statement (h : fields.Enclosed) (hknown : fields.isOpaque = false)
    (hsingle : fields.widget.isSingle)
    (htexts : fields.lines width level kind inner = .ok texts) :
    ∃ statement, Neutral statement ∧ texts = [indentation width level ++ statement] := by
  have hone : ∀ {statement : Text}, Neutral statement →
      (.ok [indentation width level ++ statement] : Except EmissionError (List Text)) = .ok texts →
      ∃ statement, Neutral statement ∧ texts = [indentation width level ++ statement] :=
    fun hneutral hok => ⟨_, hneutral, (Except.ok.inj hok).symm⟩
  have hbound : fields.widget.hasNoVariable = false → isDottedName fields.variableName :=
    h.dotted_variableName hknown
  have htype := neutral_of_isDottedName (isDottedName_variableType h)
  have hlabel := separable_quote fields.label
  have hunchanged := htexts
  cases hwidget : fields.widget <;>
    simp only [lines, hwidget, Widget.hasNoVariable, forall_const] at htexts hbound
  case button | textArea | foldout | tabGroup | horizontalGroup | verticalGroup | scrollView
      | disabledGroup | box => exact absurd (hwidget ▸ hsingle) (by decide)
  case intSlider => exact exists_intSlider h hknown hwidget hunchanged
  case intField | floatField | toggle | colorField | vector2Field | vector3Field | layerField
      | tagField | curveField | gradientField =>
    exact hone (neutral_valueCall hbound (neutral_literal (by decide)) (by simp)) htexts
  case slider =>
    exact hone (neutral_valueCall hbound (neutral_literal (by decide))
      (separable_pair (neutral_limit _).separable (neutral_limit _).separable)) htexts
  case popup =>
    exact hone (neutral_valueCall hbound (neutral_literal (by decide))
      (List.forall_mem_singleton.mpr (loose_stringArray _).neutral.separable)) htexts
  case textField =>
    have hname := neutral_of_isDottedName hbound
    exact hone (neutral_styledCall (hname.append (neutral_literal (by decide)))
      (separable_pair hlabel hname.separable) (neutral_literal (by decide)).separable
      (loose_literal (by decide) (by decide))) htexts
  case label =>
    exact hone (neutral_styledCall (neutral_literal (by decide))
      (List.forall_mem_singleton.mpr hlabel) (neutral_literal (by decide)).separable
      (loose_literal (by decide) (by decide))) htexts
  case objectField =>
    have hname := neutral_of_isDottedName hbound
    refine hone ?_ htexts
    rw [List.append_assoc _ (Text.join _ _)]
    refine ((((hname.append (neutral_literal (by decide))).append htype).append
      (neutral_literal (by decide)))).append (neutral_join_append ?_
        (loose_literal (by decide) (by decide)))
    have htypeof : Neutral ("typeof(" ++ fields.variableType ++ ")") :=
      ((neutral_literal (by decide)).append htype).append (neutral_literal (by decide))
    exact List.forall_mem_cons.mpr ⟨hlabel, List.forall_mem_cons.mpr ⟨hname.separable,
      separable_pair htypeof.separable (neutral_boolText _).separable⟩⟩
  case enumPopup =>
    have hname := neutral_of_isDottedName hbound
    refine hone ?_ htexts
    rw [List.append_assoc, List.append_assoc, List.append_assoc]
    refine (((hname.append (neutral_literal (by decide))).append htype).append
      (neutral_literal (by decide))).append (hlabel.append ?_)
    exact (loose_literal (by decide) (by decide)).append
      (hname.append (neutral_literal (by decide)))
  case helpBox =>
    refine hone ?_ htexts
    rw [List.append_assoc, List.append_assoc, List.append_assoc]
    refine (neutral_literal (by decide)).append ((separable_quote _).append ?_)
    exact (loose_literal (by decide) (by decide)).append
      ((neutral_name_severity _).append (neutral_literal (by decide)))
  case space =>
    exact hone (((neutral_literal (by decide)).append (neutral_intText _)).append
      (neutral_literal (by decide))) htexts
  case separator =>
    refine hone ?_ htexts
    have hshape : ("EditorGUILayout.LabelField(\"\", GUI.skin.horizontalSlider);" : Text) =
        ("EditorGUILayout.LabelField(" : Text) ++ (quote [] ++
          (", GUI.skin.horizontalSlider);" : Text)) := by decide
    rw [hshape]
    exact (neutral_literal (by decide)).append
      ((separable_quote []).append (loose_literal (by decide) (by decide)))
  case header =>
    refine hone ?_ htexts
    have husual : Separable "EditorStyles.boldLabel".toList :=
      (neutral_literal (by decide)).separable
    have hstyle : Separable ((fields.style? "EditorStyles.boldLabel").getD
        "EditorStyles.boldLabel") := by
      cases hset : fields.style? "EditorStyles.boldLabel" with
      | none => exact husual
      | some style => exact separable_style husual hset
    rw [List.append_assoc, List.append_assoc, List.append_assoc]
    refine (neutral_literal (by decide)).append ((separable_quote _).append ?_)
    exact (loose_literal (by decide) (by decide)).append
      (hstyle.append (loose_literal (by decide) (by decide)))
  case progressBar =>
    have hname := neutral_of_isDottedName hbound
    refine hone ?_ htexts
    rw [List.append_assoc _ (quote _)]
    exact (((neutral_literal (by decide)).append hname).append (neutral_literal (by decide))).append
      (hlabel.append (loose_literal (by decide) (by decide)))

/-- The lines of one element are closed when the texts of its children are. -/
theorem closed_lines (h : fields.Enclosed) (hknown : fields.isOpaque = false)
    (hinner : ∀ text ∈ inner, LexicallyClosed text)
    (htexts : fields.lines width level kind inner = .ok texts) : ClosedTexts texts := by
  by_cases hsingle : fields.widget.isSingle
  · obtain ⟨statement, hneutral, rfl⟩ := exists_statement h hknown hsingle htexts
    exact .of_neutral hneutral width level
  · have hunchanged := htexts
    cases hwidget : fields.widget <;> simp only [lines, hwidget] at htexts
    case button => exact closed_button h hwidget hunchanged
    case textArea => exact closed_textArea h hknown hwidget hunchanged
    case foldout => exact closed_foldout h hknown hinner hwidget hunchanged
    case tabGroup => exact closed_tabGroup h hknown hwidget hunchanged
    case horizontalGroup | verticalGroup | scrollView | disabledGroup | box =>
      exact closed_group h hinner (Except.ok.inj htexts).symm
    all_goals exact absurd (by rw [hwidget]; rfl) hsingle

end Lines

end ElementFields

/-- An element's own text is closed when the texts of its children are. -/
theorem ElementFields.Enclosed.lexicallyClosed_render {fields : ElementFields} (h : fields.Enclosed)
    {width level : Nat} {kind : ScriptKind} {inner : List Text} {text : Text}
    (hinner : ∀ text ∈ inner, LexicallyClosed text)
    (htext : fields.render width level kind inner = .ok text) : LexicallyClosed text := by
  unfold ElementFields.render at htext
  split at htext
  · rename_i hknown
    obtain rfl := Except.ok.inj htext
    cases hparam : fields.actionParam with
    | none => exact lexicallyClosed_nil.reindent (by simp) _
    | some code =>
      have hcode := h.code (.inl hknown) code hparam
      exact hcode.closed.reindent hcode.noTab _
  · rename_i hknown
    rw [Bool.not_eq_true] at hknown
    cases htexts : fields.lines width level kind inner with
    | error reason => simp [htexts, Except.map] at htext
    | ok texts =>
      rw [htexts] at htext
      obtain rfl := Except.ok.inj htext
      exact (closed_lines h hknown hinner htexts).unlines

namespace Forest

/-- Writing some elements succeeds when writing the first and the others does. -/
theorem renderAll_cons {width level : Nat} {kind : ScriptKind} {element : Element}
    {rest : List Element} {texts : List Text}
    (h : renderAll width level kind (element :: rest) = .ok texts) :
    ∃ text others, element.render width level kind = .ok text ∧
      renderAll width level kind rest = .ok others ∧
      texts = if text.isEmpty then others else text :: others := by
  rw [renderAll] at h
  cases htext : element.render width level kind with
  | error reason => simp [htext, bind, Except.bind] at h
  | ok text =>
    cases hothers : renderAll width level kind rest with
    | error reason => simp [htext, hothers, bind, Except.bind] at h
    | ok others =>
      simp only [htext, hothers, bind, Except.bind, pure, Except.pure] at h
      exact ⟨text, others, rfl, rfl, (Except.ok.inj h).symm⟩

/-- Writing a container succeeds when writing what it shows of its children does. -/
theorem render_group {width level : Nat} {kind : ScriptKind} {fields : ElementFields}
    {children : List Element} {text : Text}
    (h : (Element.group fields children).render width level kind = .ok text) :
    ∃ inner, fields.render width level kind inner = .ok text ∧
      (inner = [] ∨ renderAll width (level + 1) kind children = .ok inner) := by
  rw [Element.render] at h
  split at h
  · cases hinner : renderAll width (level + 1) kind children with
    | error reason => simp [hinner, bind, Except.bind] at h
    | ok inner =>
      simp only [hinner, bind, Except.bind] at h
      exact ⟨inner, h, .inr rfl⟩
  · exact ⟨[], h, .inl rfl⟩

/-- What holds of an element's text when it holds of the texts of its children holds of all
texts of a forest. -/
theorem forall_mem_renderAll {property : ElementFields → Prop} {good : Text → Prop} {width : Nat}
    {kind : ScriptKind}
    (hstep : ∀ {fields : ElementFields} {level : Nat} {inner : List Text} {text : Text},
      property fields → (∀ text ∈ inner, good text) →
        fields.render width level kind inner = .ok text → good text)
    {forest : Forest} (h : forest.Everywhere property) {level : Nat} {texts : List Text}
    (htexts : renderAll width level kind forest = .ok texts) : ∀ text ∈ texts, good text := by
  induction forest using shapeInduction generalizing level texts with
  | nil =>
    rw [renderAll] at htexts
    obtain rfl := Except.ok.inj htexts
    exact List.forall_mem_nil _
  | leaf fields rest ih =>
    rw [everywhere_leaf_cons] at h
    obtain ⟨text, others, htext, hothers, rfl⟩ := renderAll_cons htexts
    rw [Element.render] at htext
    have hgood := hstep h.1 (List.forall_mem_nil _) htext
    split
    · exact ih h.2 hothers
    · exact List.forall_mem_cons.mpr ⟨hgood, ih h.2 hothers⟩
  | group fields children rest ihChildren ih =>
    rw [everywhere_group_cons] at h
    obtain ⟨text, others, htext, hothers, rfl⟩ := renderAll_cons htexts
    obtain ⟨inner, hrender, hinner⟩ := render_group htext
    have hgoodInner : ∀ text ∈ inner, good text := by
      rcases hinner with rfl | hinner
      · exact List.forall_mem_nil _
      · exact ihChildren h.2.1 hinner
    have hgood := hstep h.1 hgoodInner hrender
    split
    · exact ih h.2.2 hothers
    · exact List.forall_mem_cons.mpr ⟨hgood, ih h.2.2 hothers⟩

/-- Every element of such a forest is written as closed text. -/
theorem lexicallyClosed_renderAll {forest : Forest} (h : forest.Everywhere ElementFields.Enclosed)
    {width level : Nat} {kind : ScriptKind} {texts : List Text}
    (htexts : renderAll width level kind forest = .ok texts) :
    ∀ text ∈ texts, LexicallyClosed text :=
  forall_mem_renderAll (fun hfields hinner htext => hfields.lexicallyClosed_render hinner htext) h
    htexts

end Forest

/-- Closed texts with blank lines between them. -/
theorem lexicallyClosed_join_blank {texts : List Text} (h : ∀ text ∈ texts, LexicallyClosed text) :
    LexicallyClosed (Text.join "\n\n" texts) := by
  induction texts with
  | nil => exact lexicallyClosed_nil
  | cons text rest ih =>
    rw [List.forall_mem_cons] at h
    cases rest with
    | nil => simpa using h.1
    | cons next others =>
      have hshape : text ++ ("\n\n" ++ Text.join "\n\n" (next :: others)) =
          text ++ '\n' :: ('\n' :: Text.join "\n\n" (next :: others)) := rfl
      rw [Text.join_cons_cons, hshape, LexicallyClosed, Text.lines_append_newline,
        Text.lines_newline_cons]
      exact h.1.append (.cons (.blank 0) (ih h.2))

/-- A forest is written as closed text, whatever its labels, messages,
options, paths and styles are. -/
theorem Forest.lexicallyClosed_render {forest : Forest} (h : forest.Everywhere ElementFields.Enclosed) {width level : Nat}
    {kind : ScriptKind} {text : Text} (htext : forest.render width level kind = .ok text) :
    LexicallyClosed text := by
  unfold Forest.render at htext
  cases htexts : renderAll width level kind forest with
  | error reason => simp [htexts, Except.map] at htext
  | ok texts =>
    rw [htexts] at htext
    obtain rfl := Except.ok.inj htext
    exact lexicallyClosed_join_blank (lexicallyClosed_renderAll h htexts)

end EditorScript
