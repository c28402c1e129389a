import EditorScript.Proofs.ReadContainers
import EditorScript.Proofs.TabSwitch

/-!
# Labels of tabs

A label of a tab is written twice: as a literal in the call of the toolbar, and as it is
behind the case that its tab gets.  The literal gives the label back whatever it holds.  The
comment ends with its line, so further lines of a label stand in the switch as code: the
switch is still passed over where these lines do nothing (`recover_render_tabGroup`), and is
read as a statement of its own otherwise (`recover_brokenLabel`).
-/

namespace EditorScript

open ElementFields Step

variable {name : Text} {tabs : List Text}

/-! ## Code in front of a comment -/

/-- The code of a line of plain text is what stands in front of its comment. -/
theorem codeOf_comment {front : Text} {c : Char} (hfront : front.all isPlain) (hc : isPlain c)
    (comment : Text) :
    codeOf (front ++ c :: '/' :: '/' :: comment) = (front ++ [c]).trim := by
  obtain ⟨columns, hcolumns⟩ :=
    (Reads.of_plain hfront []).columns_append 0 (c :: '/' :: '/' :: comment)
  have hcomment : ∀ (passed : Text) (column : Nat),
      codeColumnsFrom .code passed column ('/' :: '/' :: comment) = [] := by
    intro passed column
    have hnext : Mode.code.next passed '/' (some '/') = .lineComment := rfl
    rw [codeColumnsFrom, List.head?_cons, hnext, codeColumnsFrom_lineComment]
    rfl
  have hend : codeEnd (front ++ c :: '/' :: '/' :: comment) = (front ++ [c]).length := by
    rw [codeEnd, codeColumns, hcolumns, codeColumnsFrom, Mode.next_code_of_isPlain hc, hcomment]
    simp
  have hline : front ++ c :: '/' :: '/' :: comment =
      (front ++ [c]) ++ '/' :: '/' :: comment := by simp
  rw [codeOf, stripLineComment, hend, hline, List.drop_left, List.take_left]
  have hcut : Text.cutAt? "//" ('/' :: '/' :: comment) = some ([], comment) := rfl
  rw [hcut]
  dsimp only
  rw [List.append_nil, Text.trim_trimRight]

/-! ## Cases -/

/-- A case without its comment. -/
def caseLabel (number : Nat) : Text :=
  "case".toList ++ ([' '] ++ (natText number ++ ([] ++ [':'])))

theorem idlePiece_caseLabel (number : Nat) : IdlePiece (caseLabel number) :=
  .case (List.cons_ne_nil _ _) (List.forall_mem_singleton.mpr isBlank_space)
    (natText_ne_nil number) (fun _ hc => isDecimal_of_isDigit (isDigit_of_mem_natText hc))
    (List.forall_mem_nil _)

theorem newline_notMem_caseLine (width level number : Nat) :
    '\n' ∉ indentation width level ++ "case " ++ natText number ++ ": // " := by
  have hmargin := (neutral_indentation width level [] calm_nil).oneLine
  have hnumber := (neutral_natText number [] calm_nil).oneLine
  simp only [List.mem_append, not_or]
  exact ⟨⟨⟨hmargin, by decide⟩, hnumber⟩, by decide⟩

theorem statement_break : Statement "break;" where
  neutral := neutral_literal (by decide)
  first := by
    rintro c ⟨⟩
    decide
  last := ⟨"break".toList, ';', rfl, by decide, by decide⟩

/-- The label of a tab is a comment behind its case. -/
theorem codeOf_caseLine (width level number : Nat) (comment : Text) :
    codeOf (indentation width level ++ "case " ++ natText number ++ ": // " ++ comment) =
      caseLabel number := by
  have hline : indentation width level ++ "case " ++ natText number ++ ": // " ++ comment =
      (indentation width level ++ caseLabel number) ++ ' ' :: '/' :: '/' :: (' ' :: comment) := by
    have hcase : ("case " : Text) = "case".toList ++ [' '] := by decide
    have hmark : (": // " : Text) = [':', ' ', '/', '/', ' '] := by decide
    rw [hcase, hmark, caseLabel]
    simp
  have hplain : (indentation width level ++ caseLabel number).all isPlain := by
    rw [List.all_append, (idlePiece_caseLabel number).all_isPlain, Bool.and_true]
    exact all_isPlain_of_blank (spaces_all_isBlank _)
  have hmargin : ∀ c ∈ indentation width level, isBlank c :=
    List.all_eq_true.mp (spaces_all_isBlank _)
  rw [hline, codeOf_comment hplain (by decide), List.append_assoc, Text.trim_blank_append hmargin,
    Text.trim_append_blank (List.forall_mem_singleton.mpr isBlank_space)]
  refine Text.trim_eq_self ?_ ?_
  · rintro c ⟨⟩
    decide
  · have hconcat : caseLabel number = ("case".toList ++ ([' '] ++ natText number)) ++ [':'] := by
      simp [caseLabel]
    rw [hconcat, List.getLast?_concat]
    rintro c ⟨⟩
    decide

/-- The cases of a switch over tabs do nothing exactly when the further lines of the labels do
nothing. -/
theorem beginsIdle_tabCases (width level number : Nat) (tabs : List Text) :
    (∀ line ∈ (tabCases width level number tabs).flatMap Text.lines, BeginsIdle line) ↔
      ∀ tab ∈ tabs, ∀ line ∈ tab.lines.tail, BeginsIdle line := by
  induction tabs generalizing number with
  | nil => simp [tabCases]
  | cons tab rest ih =>
    obtain ⟨first, further, hlines⟩ := List.exists_cons_of_ne_nil (Text.lines_ne_nil tab)
    have hcase : BeginsIdle (indentation width level ++ "case " ++ natText number ++ ": // " ++
        first) :=
      .inr ⟨_, [], idlePiece_caseLabel number, by rw [codeOf_caseLine, List.append_nil]⟩
    have hcaseLines : (indentation width level ++ "case " ++ natText number ++ ": // " ++
        tab : Text).lines = (indentation width level ++ "case " ++ natText number ++ ": // " ++
        first) :: further :=
      Text.lines_append_of_noNewline (newline_notMem_caseLine width level number) hlines
    have hbreak : BeginsIdle (indentation width (level + 1) ++ "break;") :=
      .inr ⟨"break;", [], .break (List.forall_mem_nil _), statement_break.codeOf_eq _⟩
    have hbreakLines : (indentation width (level + 1) ++ "break;" : Text).lines =
        [indentation width (level + 1) ++ "break;"] := statement_break.lines_eq _
    rw [tabCases, List.flatMap_cons, List.flatMap_cons, hcaseLines, hbreakLines,
      List.forall_mem_append, List.forall_mem_append, List.forall_mem_singleton,
      List.forall_mem_cons, List.forall_mem_cons, ih, hlines]
    exact ⟨fun h => ⟨h.1.2, h.2.2⟩, fun h => ⟨⟨hcase, h.1⟩, hbreak, h.2⟩⟩

/-! ## The lines of a group of tabs -/

theorem toolbarStatement_eq (name : Text) (tabs : List Text) :
    name ++ " = GUILayout.Toolbar(" ++ name ++ ", " ++ stringArray tabs ++ ");" =
      toolbarStatement name tabs := by
  have hcall : (" = GUILayout.Toolbar(" : Text) = " = ".toList ++ ("GUILayout.Toolbar".toList ++
      ['(']) := by decide
  have hcomma : (", " : Text) = [',', ' '] := by decide
  have hend : ("\x7d);" : Text) = "\x7d".toList ++ ");".toList := by decide
  rw [stringArray_eq, toolbarStatement, hcall, hcomma, hend]
  simp

theorem statement_toolbar (hne : name ≠ []) (hword : ∀ c ∈ name, isWord c) (tabs : List Text) :
    Statement (toolbarStatement name tabs) := by
  have hname : Neutral name := neutral_of_tame (tame_of_word hword)
  have hneutral : Neutral (toolbarStatement name tabs) := by
    rw [← toolbarStatement_eq]
    exact ((((hname.append (neutral_literal (by decide))).append hname).append
      (neutral_literal (by decide))).append (loose_stringArray tabs).neutral).append
      (neutral_literal (by decide))
  refine statement_of_call hneutral (head?_word_append hne hword _) ?_
  rw [← toolbarStatement_eq]
  exact List.suffix_append _ _

theorem tame_guard (hword : ∀ c ∈ name, isWord c) : (guardStatement "switch" name).all isTame := by
  have hshape : guardStatement "switch" name = "switch (".toList ++ (name ++ [')']) := rfl
  rw [hshape]
  exact tame_append (by decide) (tame_append (tame_of_word hword) (by decide))

theorem statement_guard (hword : ∀ c ∈ name, isWord c) :
    Statement (guardStatement "switch" name) where
  neutral := neutral_of_tame (tame_guard hword)
  first := by
    rintro c ⟨⟩
    decide
  last := ⟨"switch".toList ++ ' ' :: '(' :: name, ')', by simp [guardStatement], by decide,
    by decide⟩

/-- The group of tabs that is read back from a toolbar. -/
def tabGroup (name : Text) (tabs : List Text) : Element :=
  .ofFields { widget := .tabGroup, label := name, variableName := name, tabs := some tabs }

/-- What is captured from a toolbar. -/
theorem captured_toolbar {found : Position}
    (h : found.captures = [("tabs", CallShape.stringsInside tabs), ("variable", name)]) :
    found.captured "variable" = name ∧
      found.captured "tabs" = CallShape.stringsInside tabs := by
  rw [Position.captured, Position.captured, Position.captured?, Position.captured?, h]
  exact ⟨rfl, rfl⟩

theorem tabGroupOf_eq {found : Position}
    (h : found.captures = [("tabs", CallShape.stringsInside tabs), ("variable", name)]) :
    tabGroupOf found = tabGroup name tabs := by
  rw [tabGroupOf, (captured_toolbar h).1, (captured_toolbar h).2, literalTexts_stringsInside]
  rfl

/-- A toolbar stands for a group of tabs with its labels, whatever follows it. -/
theorem recoverLines_toolbar (hne : name ≠ []) (hword : ∀ c ∈ name, isWord c) (tabs : List Text)
    (count : Nat) (rest : List Text) :
    ∃ others warnings, recoverLines ((Text.spaces count ++ toolbarStatement name tabs) :: rest) =
      ⟨tabGroup name tabs :: others, warnings⟩ := by
  obtain ⟨found, hcall, hcaptures⟩ := match?_toolbarCall hne hword tabs
  rw [← (statement_toolbar hne hword tabs).codeOf_eq count] at hcall
  obtain ⟨behind, hstep⟩ : ∃ behind,
      tabGroup? (Text.spaces count ++ toolbarStatement name tabs) rest =
        some (.take (tabGroupOf found) [] behind) := by
    rw [tabGroup?, hcall, Option.map_some]
    dsimp only
    split
    · exact ⟨_, rfl⟩
    · exact ⟨_, rfl⟩
  rw [tabGroupOf_eq hcaptures] at hstep
  exact ⟨_, _, recoverLines_of_take (next_of_tabGroup? hstep)⟩

/-- The lines of a switch on a variable, its braces on lines of their own. -/
def switchLines (count : Nat) (name : Text) (inside : List Text) : List Text :=
  (Text.spaces count ++ guardStatement "switch" name) :: (Text.spaces count ++ ['\x7b']) ::
    (inside ++ [Text.spaces count ++ ['\x7d']])

/-- The switch behind a toolbar belongs to it exactly when its lines do nothing. -/
theorem recoverLines_toolbar_switch (hne : name ≠ []) (hword : ∀ c ∈ name, isWord c) (count : Nat)
    {inside : List Text} (hinside : Nests 0 inside 0) :
    (recoverLines ((Text.spaces count ++ toolbarStatement name tabs) ::
      switchLines count name inside)).elements = [tabGroup name tabs] ↔
      ∀ line ∈ inside, BeginsIdle line := by
  obtain ⟨found, hcall, hcaptures⟩ := match?_toolbarCall hne hword tabs
  obtain ⟨head, hguard, hafter⟩ := match?_guard "switch" hne hword
  have hswitch : (guard "switch" (found.captured "variable")).match?
      (guardStatement "switch" name) = some head := by
    rw [(captured_toolbar hcaptures).1, hguard]
  rw [← (statement_toolbar hne hword tabs).codeOf_eq count] at hcall
  have hcode : firstCode? (switchLines count name inside) =
      some (0, guardStatement "switch" name) := (statement_guard hword).firstCode?_eq count _
  have hheader : BlockHeader (Text.spaces count ++ guardStatement "switch" name) := by
    have hmargin : (Text.spaces count).all isTame :=
      List.all_eq_true.mpr fun c hc => (List.eq_of_mem_replicate hc).symm ▸ by decide
    exact blockHeader_of_tame (tame_append hmargin (tame_guard hword))
  have hblock : findBlock? ((switchLines count name inside).drop 0) 0 =
      some ⟨0, 1, count, 2 + inside.length, count⟩ := findBlock?_between hheader hinside [] [] count
  have hbody : Block.bodyLines ⟨0, 1, count, 2 + inside.length, count⟩
      ((switchLines count name inside).drop 0) = inside := bodyLines_between _ [] inside [] count
  have hopens : opensBlock head.after ((switchLines count name inside).drop (0 + 1)) :=
    hafter ▸ opensBlock_brace count _
  have hrecover := recoverLines_of_tabGroup hcall hcode hswitch hblock
  rw [hbody, tabGroupOf_eq hcaptures] at hrecover
  rw [hrecover, ← isEmptySwitch_iff]
  by_cases hempty : isEmptySwitch inside
  · have hbehind : ((switchLines count name inside).drop 0).drop (2 + inside.length + 1) = [] :=
      List.drop_of_length_le (by simp [switchLines]; omega)
    simp only [hempty, if_true, hbehind, recoverLines_nil]
  · obtain ⟨size, kept, -, hkept, -⟩ := recoverLines_of_switchGuard hword hcode hguard hopens hblock
    simp only [hempty, Bool.false_eq_true, if_false, hkept, List.cons.injEq, true_and,
      reduceCtorEq]

/-! ## Groups of tabs as they are written -/

/-- The text of a group of tabs, line by line. -/
theorem render_tabGroup {element : Element} (hwidget : element.widget = .tabGroup)
    (hknown : element.fields.isOpaque = false) (hword : ∀ c ∈ element.fields.variableName, isWord c)
    (hvariable : element.fields.variableName ≠ []) (htabs : element.fields.tabs = some tabs)
    (hne : tabs ≠ []) (width level : Nat) (kind : ScriptKind) :
    ∃ text, element.render width level kind = .ok text ∧
      text.lines = (Text.spaces (width * level) ++
          toolbarStatement element.fields.variableName tabs) ::
        switchLines (width * level) element.fields.variableName
          ((tabCases width (level + 1) 0 tabs).flatMap Text.lines) := by
  have hfields : element.fields.widget = .tabGroup := hwidget
  have hrender : element.render width level kind = element.fields.render width level kind [] := by
    cases element with
    | leaf fields => rw [Element.render]; rfl
    | group fields children =>
      have hshows : fields.showsChildren = false := by
        have hwidget : fields.widget = .tabGroup := hwidget
        rw [showsChildren, hwidget, Bool.and_false]
      rw [Element.render, hshows]
      rfl
  have hlist : listOr ["Tab 1", "Tab 2"] (some tabs) = tabs := by
    obtain ⟨first, rest, rfl⟩ := List.exists_cons_of_ne_nil hne
    rfl
  have hmargin : ∀ brace : Char, brace ≠ '\n' →
      (Text.spaces (width * level) ++ [brace]).lines =
        [Text.spaces (width * level) ++ [brace]] := by
    intro brace hbrace
    refine Text.lines_eq_singleton fun hmem => ?_
    rcases List.mem_append.mp hmem with hmem | hmem
    · exact absurd (List.eq_of_mem_replicate hmem) (by decide)
    · exact hbrace (List.mem_singleton.mp hmem).symm
  have hswitch : "switch (" ++ element.fields.variableName ++ ")" =
      guardStatement "switch" element.fields.variableName := by
    have hopening : ("switch (" : Text) = "switch".toList ++ [' ', '('] := by decide
    rw [hopening, guardStatement]
    simp
  have htexts : element.fields.lines width level kind [] =
      .ok ([Text.spaces (width * level) ++ toolbarStatement element.fields.variableName tabs,
        Text.spaces (width * level) ++ guardStatement "switch" element.fields.variableName,
        Text.spaces (width * level) ++ ['\x7b']] ++ tabCases width (level + 1) 0 tabs ++
          [Text.spaces (width * level) ++ ['\x7d']]) := by
    rw [lines, hfields, htabs, ← toolbarStatement_eq, ← hswitch]
    dsimp only
    rw [hlist]
    simp only [List.append_assoc]
    rfl
  refine ⟨_, by rw [hrender, render, hknown, if_neg Bool.false_ne_true, htexts]; rfl, ?_⟩
  rw [Text.lines_unlines (by simp), List.flatMap_append, List.flatMap_append, List.flatMap_cons,
    List.flatMap_cons, List.flatMap_singleton, List.flatMap_singleton,
    (statement_toolbar hvariable hword tabs).lines_eq, (statement_guard hword).lines_eq,
    hmargin _ (by decide), hmargin _ (by decide)]
  rfl

/-- A group of tabs is read back with its variable and its labels, whatever these are.  Nothing
else is read where no label has a line break, and where the cases are closed nothing else is
read exactly if the further lines of the labels do nothing. -/
theorem recover_render_tabGroup {element : Element} (hwidget : element.widget = .tabGroup)
    (hknown : element.fields.isOpaque = false) (hvariable : element.fields.variableName ≠ [])
    (hword : ∀ c ∈ element.fields.variableName, isWord c)
    (htabs : element.fields.tabs = some tabs) (hne : tabs ≠ []) (width level : Nat)
    (kind : ScriptKind) :
    ∃ text others, element.render width level kind = .ok text ∧
      (recover text).elements = tabGroup element.fields.variableName tabs :: others ∧
      ((∀ tab ∈ tabs, '\n' ∉ tab) → others = []) ∧
      (Nests 0 ((tabCases width (level + 1) 0 tabs).flatMap Text.lines) 0 →
        (others = [] ↔ ∀ tab ∈ tabs, ∀ line ∈ tab.lines.tail, BeginsIdle line)) := by
  obtain ⟨text, hrender, hlines⟩ :=
    render_tabGroup hwidget hknown hword hvariable htabs hne width level kind
  obtain ⟨others, warnings, hrecover⟩ := recoverLines_toolbar hvariable hword tabs
    (width * level) (switchLines (width * level) element.fields.variableName
      ((tabCases width (level + 1) 0 tabs).flatMap Text.lines))
  have helements : (recover text).elements =
      tabGroup element.fields.variableName tabs :: others := by
    rw [recover, hlines, hrecover]
  have halone : Nests 0 ((tabCases width (level + 1) 0 tabs).flatMap Text.lines) 0 →
      (others = [] ↔ ∀ tab ∈ tabs, ∀ line ∈ tab.lines.tail, BeginsIdle line) := by
    intro hclosed
    rw [← beginsIdle_tabCases width (level + 1) 0, ← recoverLines_toolbar_switch hvariable hword
      (width * level) hclosed, hrecover, List.cons.injEq, and_iff_right rfl]
  refine ⟨text, others, hrender, helements, fun hlabels => ?_, halone⟩
  refine (halone (nests_tabCases width (level + 1) 0 hlabels 0)).mpr fun tab htab line hline => ?_
  rw [Text.lines_eq_singleton (hlabels tab htab)] at hline
  cases hline

/-- A label with signs of code, and one over three lines that do nothing. -/
theorem recover_render_tabGroup_comments :
    let tabs : List Text := ["say \"\x7b\" // \x7d", "second\n// remark\nbreak;"]
    let element : Element := .group
      { widget := .tabGroup, label := "Pages", variableName := "page", tabs := some tabs } []
    element.widget = .tabGroup ∧ element.fields.isOpaque = false ∧
      element.fields.variableName ≠ [] ∧ (∀ c ∈ element.fields.variableName, isWord c) ∧
      element.fields.tabs = some tabs ∧ tabs ≠ [] ∧
      ∃ text, element.render 4 0 .editorWindow = .ok text ∧
        (recover text).elements = [tabGroup "page" tabs] := by
  intro tabs element
  have hwidget : element.widget = .tabGroup := rfl
  have hknown : element.fields.isOpaque = false := rfl
  have hvariable : element.fields.variableName ≠ [] := by decide
  have hword : ∀ c ∈ element.fields.variableName, isWord c := by decide
  have htabs : element.fields.tabs = some tabs := rfl
  have hne : tabs ≠ [] := by decide
  obtain ⟨text, others, hrender, hrecover, -, hothers⟩ :=
    recover_render_tabGroup hwidget hknown hvariable hword htabs hne 4 0 .editorWindow
  have hclosed : Nests 0 ((tabCases 4 1 0 tabs).flatMap Text.lines) 0 := by decide +kernel
  have hempty : isEmptySwitch (tabs.flatMap fun tab => tab.lines.tail) := by decide +kernel
  have hidle : ∀ tab ∈ tabs, ∀ line ∈ tab.lines.tail, BeginsIdle line := fun tab htab line hline =>
    isEmptySwitch_iff.mp hempty line (List.mem_flatMap.mpr ⟨tab, htab, hline⟩)
  rw [(hothers hclosed).mpr hidle] at hrecover
  exact ⟨hwidget, hknown, hvariable, hword, htabs, hne, text, hrender, hrecover⟩

/-- The second line of a label is code in the switch, and the switch is read as a statement of
its own. -/
theorem recover_brokenLabel :
    let element : Element := .group
      { widget := .tabGroup, label := "Pages", variableName := "tab", tabs := some ["a\nb"] } []
    let toolbar : Text := "tab = GUILayout.Toolbar(tab, new string[] \x7b \"a\\nb\" \x7d);"
    let switch : List Text := ["switch (tab)", "\x7b", "    case 0: // a", "b", "        break;",
      "\x7d"]
    element.render 4 0 .editorWindow = .ok (Text.unlines (toolbar :: switch)) ∧
      recover (Text.unlines (toolbar :: switch)) =
        ⟨[tabGroup "tab" ["a\nb"], .ofCode (Text.unlines switch)], []⟩ := by
  intro element toolbar switch
  have hrender : element.render 4 0 .editorWindow = .ok (Text.unlines (toolbar :: switch)) := by
    decide +kernel
  have hlines : (Text.unlines (toolbar :: switch)).lines = toolbar :: switch := by decide +kernel
  have hcall : toolbarCall.match?
      (codeOf "tab = GUILayout.Toolbar(tab, new string[] \x7b \"a\\nb\" \x7d);") =
      some ⟨some ';', [], [("tabs", " \"a\\nb\" "), ("variable", "tab")]⟩ := by cbv
  have hguard : (guard "switch" "tab").match? "switch (tab)" = some ⟨some ')', [], []⟩ := by cbv
  have hcode : firstCode? switch = some (0, "switch (tab)".toList) := by decide +kernel
  have hblock : findBlock? switch 0 = some ⟨0, 1, 0, 5, 0⟩ := by decide +kernel
  have hbusy : isEmptySwitch (Block.bodyLines ⟨0, 1, 0, 5, 0⟩ switch) = false := by decide +kernel
  have hgroup : tabGroupOf ⟨some ';', [], [("tabs", " \"a\\nb\" "), ("variable", "tab")]⟩ =
      tabGroup "tab" ["a\nb"] := by decide +kernel
  have hextent : extent switch = 5 := by
    have hown : ownExtent? "switch (tab)" (switch.drop 1) = some 5 := by decide +kernel
    show extent ("switch (tab)".toList :: switch.drop 1) = 5
    rw [extent, hown]
    rfl
  have hkept : recoverLines switch = ⟨[.ofCode (Text.unlines switch)], []⟩ := by
    have hhead : codeOf "switch (tab)" = "switch".toList ++ ([' '] ++ '(' :: "tab)".toList) := by
      decide +kernel
    have hstatement : statementText switch = Text.unlines switch := by
      rw [statementText, hextent]
      decide +kernel
    have hswitch : recoverLines switch =
        ⟨.ofCode (statementText switch) ::
            (recoverLines ((switch.drop 1).drop (extent switch))).elements,
          (recoverLines ((switch.drop 1).drop (extent switch))).warnings⟩ :=
      recoverLines_switch hhead (List.forall_mem_singleton.mpr isBlank_space)
    rw [hswitch, hstatement, hextent, List.drop_of_length_le (by decide), recoverLines_nil]
  have hrecover := recoverLines_of_tabGroup hcall hcode hguard hblock
  rw [List.drop_zero, hbusy, if_neg Bool.false_ne_true, hgroup, hkept] at hrecover
  exact ⟨hrender, by rw [recover, hlines, hrecover]⟩

end EditorScript
