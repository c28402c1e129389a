import EditorScript.Imported.File
import EditorScript.Proofs.DeclaredNames
import EditorScript.Proofs.WindowReading

/-!
# The texts that a window is read back with

The path in the menu and the title of a window are written as literals and read up to
the next quote, and its opener is told by a call without semicolons in it.  So a path or
a title comes back exactly if its literal escapes nothing, and the opener is not taken
for a method of the user's own exactly if the title holds no semicolon
(`importFile_windowTexts`).
-/

namespace EditorScript

open Pattern

/-! ## Texts without escapes -/

/-- Characters that stand in a literal behind a backslash. -/
def escapedChars : Text := "\\\"\n\t"

theorem escapeChar_eq_iff (c : Char) : escapeChar c = [c] ↔ c ∉ escapedChars := by
  unfold escapeChar escapedChars
  split_ifs with h1 h2 h3 h4 <;> simp_all

theorem length_le_escape (text : Text) : text.length ≤ (escape text).length := by
  induction text with
  | nil => exact Nat.le_refl 0
  | cons c rest ih =>
    have hone : 1 ≤ (escapeChar c).length := by
      unfold escapeChar
      split_ifs <;> simp
    rw [escape_cons, List.length_cons, List.length_append]
    omega

/-- Only a text without escapes is its own literal. -/
theorem escape_eq_iff {text : Text} : escape text = text ↔ ∀ c ∈ text, c ∉ escapedChars := by
  induction text with
  | nil => simp
  | cons c rest ih =>
    rw [escape_cons, List.forall_mem_cons, ← ih, ← escapeChar_eq_iff]
    constructor
    · intro heq
      have hlength := congrArg List.length heq
      have hrest := length_le_escape rest
      have hone : (escapeChar c).length = 1 := by
        have hpos : 1 ≤ (escapeChar c).length := by
          unfold escapeChar
          split_ifs <;> simp
        rw [List.length_append, List.length_cons] at hlength
        omega
      have hsplit : escapeChar c = [c] ∧ escape rest = rest :=
        List.append_inj (heq.trans (List.singleton_append).symm) hone
      exact hsplit
    · rintro ⟨hc, hrest⟩
      rw [hc, hrest, List.singleton_append]

/-- Up to the first quote of its literal a text is read as it is exactly if it is written
without escapes. -/
theorem untilQuote_eq_iff {text : Text} :
    untilQuote text = text ↔ ∀ c ∈ text, c ∉ escapedChars := by
  rw [← escape_eq_iff]
  constructor
  · intro heq
    have hquote : '"' ∉ text := heq ▸ quote_notMem_untilQuote text
    have hescape : ∀ {text : Text}, '"' ∉ text → '"' ∉ escape text := by
      intro text hquote
      induction text with
      | nil => exact List.not_mem_nil
      | cons c rest ih =>
        rw [List.mem_cons, not_or] at hquote
        rw [escape_cons, List.mem_append, not_or]
        refine ⟨?_, ih hquote.2⟩
        unfold escapeChar
        split_ifs <;> simp_all
    have hall : ∀ c ∈ escape text, (c != '"') = true := by
      intro c hc
      rw [bne_iff_ne]
      rintro rfl
      exact hescape hquote hc
    rwa [untilQuote, List.takeWhile_eq_self_iff.mpr hall] at heq
  · intro heq
    have hquote : '"' ∉ text := fun hmem =>
      escape_eq_iff.mp heq _ hmem (by decide)
    rw [untilQuote, heq, List.takeWhile_eq_self_iff]
    intro c hc
    rw [bne_iff_ne]
    rintro rfl
    exact hquote hc

/-! ## Declarations of variables -/

/-- A line that declares a variable of an element. -/
structure VariableLine (line : Text) : Prop where
  closed : ClosedLine line
  shape : ∃ count front, line = Text.spaces count ++ ("private " ++ (front ++ [';']))
  noMethod : methodName? line.trim = none

namespace VariableLine

variable {line : Text} (h : VariableLine line)
include h

theorem codeOf_eq : codeOf line = line.trim := by
  obtain ⟨count, front, hline⟩ := h.shape
  obtain ⟨chars, hreads, -⟩ := h.closed.reads
  refine @codeOf_of_reads _ (Text.spaces count ++ ("private " ++ front)) _ ';' ?_ hreads (by decide)
  rw [hline]
  simp only [List.append_assoc]

theorem exists_trim_eq : ∃ rest, line.trim = 'p' :: rest := by
  obtain ⟨count, front, hline⟩ := h.shape
  have hfirst : ("private " : Text) = 'p' :: "rivate " := by decide
  refine ⟨"rivate " ++ (front ++ [';']), ?_⟩
  rw [hline, Text.trim_spaces_append]
  · rw [hfirst]
    rfl
  · rw [hfirst]
    rintro c ⟨⟩
    decide
  · rw [List.getLast?_append, List.getLast?_concat]
    rintro c ⟨⟩
    decide

theorem startsMember : StartsMember line := by
  obtain ⟨rest, htrim⟩ := h.exists_trim_eq
  have hfirst : attributeLine.accepts ('p' :: rest) = false := rfl
  constructor
  · rw [h.codeOf_eq, htrim]
    exact List.cons_ne_nil _ _
  · rw [h.codeOf_eq, htrim]
    rfl
  · rw [h.codeOf_eq, htrim, hfirst]
  · rw [htrim]
    rfl

theorem startsAnew (behind : List Text) : StartsAnew (codeText .code (line :: behind)) := by
  obtain ⟨count, front, hline⟩ := h.shape
  have hfirst : ("private " : Text) = 'p' :: "rivate " := by decide
  rw [hline, hfirst]
  exact startsAnew_line (by decide) (by decide) (by decide) _ _ _

/-- A declaration is a member, and no method. -/
theorem exists_membersOf_cons {kind : ScriptKind} {className : Text} {members : List Member}
    {guiBody? : Option (List Text)} {behind : List Text}
    (hbehind : StartsAnew (codeText .code behind)) :
    ∃ member : Member, member.role ≠ .custom ∧
      membersOf kind className [] members guiBody? (line :: behind) =
        membersOf kind className [] (member :: members) guiBody? behind := by
  obtain ⟨chars, hreads, hnesting⟩ := h.closed.reads
  have hend : memberEnd (line :: ([] ++ behind)) 0 (line :: ([] ++ behind)).length =
      ([] : List Text).length := by
    obtain ⟨count, front, hline⟩ := h.shape
    have hconcat : line = (Text.spaces count ++ ("private " ++ front)) ++ [';'] := by
      rw [hline]
      simp only [List.append_assoc]
    rw [hconcat] at hreads
    have hmember := (isMember_of_reads hreads hnesting).memberEnd_eq hbehind
    rwa [← hconcat] at hmember
  obtain ⟨role, hrole, hclassify⟩ : ∃ role, role ≠ .custom ∧
      classify kind className guiBody?.isSome [] [line] = .kept role := by
    rw [classify, List.headD_cons, h.codeOf_eq]
    dsimp only
    rw [h.noMethod]
    dsimp only
    split
    · exact ⟨.innerType, by decide, rfl⟩
    · exact ⟨.field, by decide, rfl⟩
  have hread := @membersOf_member kind className [] members guiBody? _ [] behind h.startsMember hend
  refine ⟨⟨role, [] ++ [line]⟩, hrole, hread.trans ?_⟩
  rw [hclassify]

end VariableLine

/-- Declarations are members, and none of them is a method. -/
theorem exists_membersOf_declarations {kind : ScriptKind} {className : Text}
    {guiBody? : Option (List Text)} {lines behind : List Text}
    (h : ∀ line ∈ lines, VariableLine line) (hbehind : StartsAnew (codeText .code behind))
    (members : List Member) :
    ∃ fields : List Member, (∀ member ∈ fields, member.role ≠ .custom) ∧
      membersOf kind className [] members guiBody? (lines ++ behind) =
        membersOf kind className [] (fields ++ members) guiBody? behind := by
  induction lines generalizing members with
  | nil => exact ⟨[], List.forall_mem_nil _, rfl⟩
  | cons line rest ih =>
    rw [List.forall_mem_cons] at h
    have hanew : StartsAnew (codeText .code (rest ++ behind)) := by
      cases rest with
      | nil => exact hbehind
      | cons next others => exact (h.2 next List.mem_cons_self).startsAnew _
    obtain ⟨member, hrole, hstep⟩ := @VariableLine.exists_membersOf_cons _ h.1 kind className
      members guiBody? _ hanew
    obtain ⟨fields, hroles, hrest⟩ := ih h.2 (member :: members)
    refine ⟨fields ++ [member], List.forall_mem_append.mpr
      ⟨hroles, List.forall_mem_singleton.mpr hrole⟩, ?_⟩
    rw [List.cons_append, hstep, hrest, List.append_assoc, List.singleton_append]

namespace ElementFields

variable {fields : ElementFields}

/-- The line for the variable of an element declares it. -/
theorem Confined.variableLine (h : fields.Confined) (hbound : fields.needsVariable)
    (width level : Nat) :
    VariableLine (indentation width level ++ fields.declaration false) := by
  have hopen : ∀ {name : Text}, isDottedName name → '(' ∉ name := fun hname hmem =>
    absurd (List.all_eq_true.mp hname _ hmem) (by decide)
  have hshape : fields.declaration false = "private " ++ ((fields.variableType ++ " " ++
      fields.variableName ++ " = " ++ fields.initialValue) ++ [';']) := by
    have hassoc : ∀ a b c d e f g : Text,
        [] ++ a ++ b ++ c ++ d ++ e ++ f ++ g = a ++ ((b ++ c ++ d ++ e ++ f) ++ g) := by
      intro a b c d e f g
      simp only [List.append_assoc, List.nil_append]
    exact hassoc _ _ _ _ _ _ _
  refine ⟨h.closedLine_declaration hbound false width level, ⟨width * level, _, congrArg _ hshape⟩,
    ?_⟩
  have hassigned : fields.declaration false = ("private " ++ (fields.variableType ++ (" " ++
      (fields.variableName ++ " ")))) ++ '=' :: (" " ++ (fields.initialValue ++ [';'])) := by
    have hequals : (" = " : Text) = " " ++ '=' :: " " := by decide
    have hassoc : ∀ (a b c d e f g : Text) (q : Char),
        a ++ ((b ++ c ++ d ++ (c ++ q :: e) ++ f) ++ g) =
          (a ++ (b ++ (c ++ (d ++ c)))) ++ q :: (e ++ (f ++ g)) := by
      intro a b c d e f g q
      simp only [List.append_assoc, List.cons_append]
    exact (hshape.trans (congrArg (fun equals => "private ".toList ++ ((fields.variableType ++
      " ".toList ++ fields.variableName ++ equals ++ fields.initialValue) ++ [';'])) hequals)).trans
        (hassoc _ _ _ _ _ _ _ _)
  have htrim : (indentation width level ++ fields.declaration false).trim =
      fields.declaration false := by
    refine Text.trim_spaces_append _ ?_ ?_
    · rw [hshape]
      rintro c ⟨⟩
      decide
    · rw [hshape, List.getLast?_append, List.getLast?_concat]
      rintro c ⟨⟩
      decide
  rw [htrim, hassigned]
  refine methodName?_assignment ?_ _
  exact notMem_append (by decide) (notMem_append (hopen (isDottedName_variableType h.toEnclosed))
    (notMem_append (by decide) (notMem_append (hopen (h.variableName hbound)) (by decide))))

end ElementFields

namespace Imported

variable {stamp : Stamp} {gate : Gate} {file : SourceFile}

theorem settings_importFile :
    (importFile stamp gate file).project.settings = (Outline.ofSource file.content).1.settings := by
  unfold importFile
  dsimp only
  split
  · exact withBody_methods.2.2.2.trans settings_ofOutline
  · exact settings_ofOutline

theorem customMethods_importFile (h : (Outline.ofSource file.content).1.foundClass) :
    (importFile stamp gate file).project.customMethods =
      (Outline.ofSource file.content).1.body.texts .custom := by
  have hplain : (ofOutline stamp file.name (Outline.ofSource file.content).1
      (Outline.ofSource file.content).2).project.customMethods =
        (Outline.ofSource file.content).1.body.texts .custom := by
    rw [ofOutline, if_pos h]
  unfold importFile
  dsimp only
  split
  · exact withBody_methods.2.1.trans hplain
  · exact hplain

end Imported

namespace Project

variable {project : Project} {width : Nat}

/-- A window that carries nothing along from a source. -/
structure FreshWindow (project : Project) : Prop where
  bare : project.BareWindow
  confined : project.Confined
  fieldDeclarations : project.fieldDeclarations = []
  innerTypes : project.innerTypes = []
  lifecycleMethods : project.lifecycleMethods = []
  customMethods : project.customMethods = []

namespace FreshWindow

variable (h : project.FreshWindow)
include h

theorem variableLine (width level : Nat) :
    ∀ line ∈ variableDeclarations width level false [] project.elements,
      VariableLine line := by
  intro line hline
  rcases List.mem_append.mp hline with hline | hline
  · obtain ⟨fields, hfields, rfl⟩ := List.mem_map.mp hline
    obtain ⟨hconfined, hbound⟩ := h.confined.elements.of_mem_firstBindings hfields
    exact hconfined.variableLine hbound width level
  · split at hline
    · obtain rfl := List.mem_singleton.mp hline
      have hneutral := (((neutral_indentation width level).append
        (neutral_of_tame (by decide : List.all "private Vector2 " isTame))).append
          (neutral_of_tame (by decide : List.all scrollVariable isTame))).append
            (neutral_of_tame (by decide : List.all ";" isTame))
      have hshape : indentation width level ++ "private Vector2 " ++ scrollVariable ++ ";" =
          Text.spaces (width * level) ++ ("private " ++ (("Vector2 " ++ scrollVariable) ++ [';'])) := by
        have hstatement : ("private Vector2 " : Text) ++ (scrollVariable ++ ";") =
            "private " ++ (("Vector2 " ++ scrollVariable) ++ [';']) := by decide
        rw [List.append_assoc, List.append_assoc]
        exact congrArg _ hstatement
      refine ⟨hneutral.closedLine, ⟨_, _, hshape⟩, ?_⟩
      have htrim := @Text.trim_spaces_append (width * level)
        ("private " ++ (("Vector2 " ++ scrollVariable) ++ [';'])) (by decide) (by decide)
      rw [hshape, htrim]
      decide +kernel
    · cases hline

/-- The drawing method holds closed lines. -/
theorem exists_gui_eq {gui : List Text}
    (hgui : project.guiMethod width (project.level + 1) = .ok gui) :
    ∃ content, LexicallyClosed content ∧
      gui = [blockText width (project.level + 1) guiHeader [content]] := by
  unfold guiMethod at hgui
  rw [h.bare.kind] at hgui
  simp only [ScriptKind.guiSignature?, ScriptKind.guiPrologue, ScriptKind.guiEpilogue,
    ite_self] at hgui
  cases hcontent : project.guiContent width (project.level + 1 + 1) with
  | error reason => simp [hcontent, bind, Except.bind] at hgui
  | ok content =>
    rw [hcontent] at hgui
    exact ⟨content, lexicallyClosed_guiContent h.confined hcontent, (Except.ok.inj hgui).symm⟩

theorem membersBehind_eq (gui : List Text) :
    project.membersBehind width gui = project.fieldMembers width (project.level + 1) ++ gui := by
  have hdeclarations : project.declarationSections width (project.level + 1) = [] := by
    rw [declarationSections, h.fieldDeclarations, h.innerTypes]
    rfl
  have hmethods : project.methodSections width (project.level + 1) = [] := by
    rw [methodSections, h.lifecycleMethods, h.customMethods]
    rfl
  rw [membersBehind, hdeclarations, hmethods, List.append_nil, List.append_nil]

/-- Behind the method that opens the window stand the declarations of its variables, if it
has any, and the drawing method. -/
theorem exists_lines_eq {gui : List Text}
    (hgui : project.guiMethod width (project.level + 1) = .ok gui) :
    ∃ declared content, (∀ line ∈ declared, VariableLine line) ∧ LexicallyClosed content ∧
      ((project.membersBehind width gui).flatMap fun text => [] :: text.lines) =
        (if declared.isEmpty then [] else [] :: declared) ++
          [] :: blockLines (width * (project.level + 1)) guiHeader content.lines := by
  obtain ⟨content, hclosed, rfl⟩ := h.exists_gui_eq hgui
  have hdeclares := h.variableLine width (project.level + 1)
  refine ⟨variableDeclarations width (project.level + 1) false [] project.elements, content,
    hdeclares, hclosed, ?_⟩
  have hfields : ((project.fieldMembers width (project.level + 1)).flatMap
      fun text => [] :: text.lines) =
        if (variableDeclarations width (project.level + 1) false [] project.elements).isEmpty then []
        else [] :: variableDeclarations width (project.level + 1) false [] project.elements := by
    have hvariables : variableDeclarations width (project.level + 1)
        (ScriptKind.serializesFields .editorWindow) (declaredNames []) project.elements =
          variableDeclarations width (project.level + 1) false [] project.elements := rfl
    rw [fieldMembers, h.bare.kind, h.fieldDeclarations, hvariables]
    cases hdeclared : variableDeclarations width (project.level + 1) false [] project.elements with
    | nil => rfl
    | cons first others =>
      have hlines : ∀ line ∈ first :: others, '\n' ∉ line := fun line hline =>
        (hdeclares line (hdeclared ▸ hline)).closed.oneLine
      dsimp only
      rw [List.flatMap_singleton, Text.lines_unlines (List.cons_ne_nil _ _),
        Text.flatMap_lines hlines]
      rfl
  rw [h.membersBehind_eq, List.flatMap_append, hfields, List.flatMap_singleton,
    lines_blockText (by decide), List.flatMap_singleton]

/-- Behind the method that opens the window no member is a method of the user's own. -/
theorem exists_membersOf_eq {gui : List Text}
    (hgui : project.guiMethod width (project.level + 1) = .ok gui) (members : List Member) :
    ∃ (fields : List Member) (body : List Text), (∀ member ∈ fields, member.role ≠ .custom) ∧
      membersOf .editorWindow project.settings.className [] members none
        ((project.membersBehind width gui).flatMap fun text => [] :: text.lines) =
          (fields ++ members, some body) := by
  obtain ⟨declared, content, hdeclares, hclosed, hlines⟩ := h.exists_lines_eq hgui
  have hbehind : StartsAnew (codeText .code
      ([] :: blockLines (width * (project.level + 1)) guiHeader content.lines)) := by
    rw [startsAnew_blank_cons]
    simpa using startsAnew_gui (width * (project.level + 1)) content.lines []
  have hdrawn : ∀ members : List Member, membersOf .editorWindow project.settings.className []
      members none ([] :: blockLines (width * (project.level + 1)) guiHeader content.lines) =
        (members, some content.lines) := by
    intro members
    have hgui := @membersOf_gui project.settings.className _ [] members
      (width * (project.level + 1)) hclosed startsAnew_nil
    rw [List.append_nil] at hgui
    rw [membersOf_blank (by decide), attachLines_nil, hgui, membersOf]
    rfl
  rw [hlines]
  by_cases hempty : declared.isEmpty
  · rw [if_pos hempty, List.nil_append, hdrawn]
    exact ⟨[], content.lines, List.forall_mem_nil _, rfl⟩
  · obtain ⟨fields, hroles, hread⟩ := @exists_membersOf_declarations .editorWindow
      project.settings.className none _ _ hdeclares hbehind members
    rw [if_neg hempty, List.cons_append, membersOf_blank (by decide), attachLines_nil, hread, hdrawn]
    exact ⟨fields, content.lines, hroles, rfl⟩

/-- The members of the window close their braces. -/
theorem nests_membersBehind {gui : List Text}
    (hgui : project.guiMethod width (project.level + 1) = .ok gui) :
    Nests 0 ((project.membersBehind width gui).flatMap fun text => [] :: text.lines) 0 := by
  obtain ⟨opener, hmembers, -⟩ := h.bare.members_eq width gui
  have hclosed : ∀ text ∈ project.membersBehind width gui, LexicallyClosed text := fun text htext =>
    lexicallyClosed_members h.confined hgui text (hmembers ▸ List.mem_cons_of_mem _ htext)
  revert hclosed
  generalize project.membersBehind width gui = texts
  intro hclosed
  induction texts with
  | nil => exact .nil 0
  | cons text rest ih =>
    rw [List.forall_mem_cons] at hclosed
    rw [List.flatMap_cons]
    exact (Nests.cons (.blank 0) hclosed.1).append (ih hclosed.2)

end FreshWindow

/-! ## What is read back -/

section

variable {content : Text} (h : project.FreshWindow) (hcontent : project.source width = .ok content)
include h hcontent

/-- Path and title are read up to the first quote of their literals. -/
theorem FreshWindow.extractSettings_eq (hmenu : project.settings.menuPath ≠ [])
    (hopens : OpensNothing project.settings.menuPath)
    (hcomponent : componentPattern.occurs content = false) :
    let settings := extractSettings content .editorWindow project.settings.className ["EditorWindow"]
    settings.menuPath = untilQuote project.settings.menuPath ∧
      settings.windowTitle = untilQuote project.settings.windowTitle := by
  obtain ⟨gui, -, hlines⟩ := h.bare.source_lines hcontent
  have htext := Text.unlines_lines content
  rw [hlines, unlines_windowLines] at htext
  have hcomponentRead : capturedIn? componentPattern "path" content = none := by
    rw [Pattern.occurs, Option.isSome_eq_false_iff, Option.isNone_iff_eq_none] at hcomponent
    rw [capturedIn?, hcomponent]
    rfl
  have hmenuRead : capturedIn? menuPattern "path" content =
      some (untilQuote project.settings.menuPath) := by
    rw [← htext]
    exact menu_windowText h.bare.className.2 h.bare.namespaceName hmenu _ _ _
  have htitleRead : capturedIn? titlePattern "title" content =
      some (untilQuote project.settings.windowTitle) := by
    rw [← htext]
    exact title_windowText h.bare.className h.bare.namespaceName hopens _ _ _
  exact ⟨congrArg₂ (fun component menu : Option Text => (component.or menu).getD _)
    hcomponentRead hmenuRead,
    congrArg (fun title : Option Text => (title.or _).getD _) htitleRead⟩

/-- What is read from the source of such a window. -/
theorem FreshWindow.exists_ofSource_eq (hreturn : content.withoutReturns = content) :
    ∃ outline : Outline, Outline.ofSource content = (outline, []) ∧ outline.foundClass ∧
      outline.settings =
        extractSettings content .editorWindow project.settings.className ["EditorWindow"] ∧
      (outline.body.texts .custom = [] ↔ ';' ∉ project.settings.windowTitle) := by
  obtain ⟨gui, hgui, hlines⟩ := h.bare.source_lines hcontent
  have houtline := ofSource_window h.bare.className h.bare.namespaceName
    ((nests_openerLines h.bare.className.2 _ _).append (h.nests_membersBehind hgui)) hreturn
    (detectKind_window h.bare.kind hcontent) hlines
  refine ⟨_, houtline, rfl, rfl, ?_⟩
  have hbehind : StartsAnew (codeText .code
      ((project.membersBehind width gui).flatMap fun text => [] :: text.lines)) := by
    obtain ⟨declared, content, hdeclares, -, hmembers⟩ := h.exists_lines_eq hgui
    have hdrawn := startsAnew_gui (width * (project.level + 1)) content.lines []
    rw [List.append_nil] at hdrawn
    rw [hmembers]
    cases declared with
    | nil => exact startsAnew_blank_cons.mpr hdrawn
    | cons first others =>
      exact startsAnew_blank_cons.mpr ((hdeclares first List.mem_cons_self).startsAnew _)
  have hopener := @membersOf_opener project.settings.className project.settings.menuPath _ [] none
    (width * (project.level + 1)) h.bare.className project.settings.windowTitle
    (width * (project.level + 2)) hbehind
  obtain ⟨fields, body, hroles, hmembers⟩ := h.exists_membersOf_eq hgui
    (if ';' ∈ project.settings.windowTitle then
      [⟨.custom, openerLines (width * (project.level + 1)) (width * (project.level + 2))
        project.settings.menuPath project.settings.className project.settings.windowTitle⟩]
      else [])
  have hfields : fields.filter (·.role = .custom) = [] :=
    List.filter_eq_nil_iff.mpr fun member hmem => by simpa using hroles member hmem
  rw [ClassBody.ofLines, hopener, hmembers, ClassBody.texts]
  dsimp only
  rw [List.map_eq_nil_iff, List.filter_reverse, List.reverse_eq_nil_iff, List.filter_append, hfields,
    List.nil_append]
  by_cases htitle : ';' ∈ project.settings.windowTitle
  · rw [if_pos htitle]
    simp [htitle]
  · rw [if_neg htitle]
    simp [htitle]

/-- The path in the menu and the title of a window survive exactly if nothing in them is
escaped, and its opener is not taken for a method of the user's own exactly if the title
holds no semicolon. -/
theorem importFile_windowTexts (hmenu : project.settings.menuPath ≠ [])
    (hopens : OpensNothing project.settings.menuPath)
    (hcomponent : componentPattern.occurs content = false)
    (hreturn : content.withoutReturns = content) (stamp : Stamp) (gate : Gate) (file : Text) :
    let read := (importFile stamp gate ⟨file, content⟩).project
    (read.settings.menuPath = project.settings.menuPath ↔
        ∀ c ∈ project.settings.menuPath, c ∉ escapedChars) ∧
      (read.settings.windowTitle = project.settings.windowTitle ↔
        ∀ c ∈ project.settings.windowTitle, c ∉ escapedChars) ∧
      (read.customMethods = [] ↔ ';' ∉ project.settings.windowTitle) := by
  obtain ⟨outline, houtline, hfound, hsettings, hcustom⟩ := h.exists_ofSource_eq hcontent hreturn
  obtain ⟨hpath, htitle⟩ := h.extractSettings_eq hcontent hmenu hopens hcomponent
  have hread := @Imported.settings_importFile stamp gate ⟨file, content⟩
  have hmethods := @Imported.customMethods_importFile stamp gate ⟨file, content⟩
  rw [houtline] at hread hmethods
  dsimp only at hread hmethods
  intro read
  rw [hread, hmethods hfound, hsettings, hpath, htitle]
  exact ⟨untilQuote_eq_iff, untilQuote_eq_iff, hcustom⟩

end

/-- A window with a text field, and with quotes in its path in the menu. -/
def quotedWindow : Project where
  name := "Foo"
  settings := { className := "Foo", menuPath := "Say \"hi\"", windowTitle := "Foo (beta)" }
  elements := [.leaf { widget := .textField, label := "Name", variableName := "title" }]

theorem fieldMembers_quotedWindow (level : Nat) : quotedWindow.fieldMembers 4 level =
    [indentation 4 level ++ "private string title = \"\";"] := by
  have hbound : Forest.bound quotedWindow.elements =
      [{ widget := .textField, label := "Name", variableName := "title" }] := by
    simp [quotedWindow, Forest.bound, Forest.flatten, Element.fields, ElementFields.needsVariable,
      Widget.hasNoVariable]
  have hscroll : Forest.hasScrollView quotedWindow.elements = false := by
    simp [quotedWindow, Forest.hasScrollView, Forest.flatten, Element.widget, Element.fields]
  have hdeclaration : ElementFields.declaration false
      { widget := .textField, label := "Name", variableName := "title" } =
        "private string title = \"\";" := by decide
  have hdeclarations : variableDeclarations 4 level quotedWindow.kind.serializesFields
      (declaredNames quotedWindow.fieldDeclarations) quotedWindow.elements =
        [indentation 4 level ++ "private string title = \"\";"] := by
    unfold variableDeclarations
    rw [hbound, hscroll]
    exact congrArg (fun declaration => [indentation 4 level ++ declaration]) hdeclaration
  rw [fieldMembers, hdeclarations]
  dsimp only
  rw [Text.unlines_singleton]

theorem freshWindow_quotedWindow : quotedWindow.FreshWindow where
  bare :=
    { kind := rfl
      className := by decide
      namespaceName := List.forall_mem_nil _
      usings := .inl rfl
      interfaces := rfl
      classAttributes := rfl }
  confined :=
    { className := by decide
      namespaceName := by decide
      targetType := by decide
      targetAttribute := by decide
      requireComponents := by decide
      interfaces := by decide
      classAttributes := by decide
      usings := by decide
      elements := Forest.everywhere_leaf_cons.mpr ⟨by decide, Forest.everywhere_nil⟩
      fieldDeclarations := by decide
      innerTypes := by decide
      lifecycleMethods := by decide
      customMethods := by decide
      outerCode := by decide
      rawBody := by decide }
  fieldDeclarations := rfl
  innerTypes := rfl
  lifecycleMethods := rfl
  customMethods := rfl

/-- In the source of that window stands no path of a component, and no line of it ends with
a carriage return. -/
theorem exists_source_quotedWindow : ∃ content, quotedWindow.source 4 = .ok content ∧
    componentPattern.occurs content = false ∧ content.withoutReturns = content := by
  have hsource : (quotedWindow.source 4).toOption.any (fun content =>
      !componentPattern.occurs content && content.withoutReturns == content) = true := by
    simp only [source, insideClass, members, fieldMembers_quotedWindow]
    decide +kernel
  cases hcontent : quotedWindow.source 4 with
  | error reason => simp [hcontent, Except.toOption] at hsource
  | ok content =>
    rw [hcontent] at hsource
    have hboth : (!componentPattern.occurs content && content.withoutReturns == content) = true :=
      hsource
    rw [Bool.and_eq_true, Bool.not_eq_true', beq_iff_eq] at hboth
    exact ⟨content, rfl, hboth⟩

theorem importFile_windowTexts_quotedWindow : ∃ content, quotedWindow.source 4 = .ok content ∧
    let read := (importFile ⟨[], []⟩ {} ⟨"Foo.cs", content⟩).project
    (read.settings.menuPath = quotedWindow.settings.menuPath ↔
        ∀ c ∈ quotedWindow.settings.menuPath, c ∉ escapedChars) ∧
      (read.settings.windowTitle = quotedWindow.settings.windowTitle ↔
        ∀ c ∈ quotedWindow.settings.windowTitle, c ∉ escapedChars) ∧
      (read.customMethods = [] ↔ ';' ∉ quotedWindow.settings.windowTitle) := by
  obtain ⟨content, hcontent, hcomponent, hreturn⟩ := exists_source_quotedWindow
  exact ⟨content, hcontent, importFile_windowTexts freshWindow_quotedWindow hcontent (by decide)
    (.inl (by decide)) hcomponent hreturn ⟨[], []⟩ {} "Foo.cs"⟩

/-- Of the path in the menu of that window a backslash is left where its first quote was. -/
theorem importFile_quotedWindow : ∃ content, quotedWindow.source 4 = .ok content ∧
    (importFile ⟨[], []⟩ {} ⟨"Foo.cs", content⟩).project.settings.menuPath = "Say \\" ∧
      quotedWindow.settings.menuPath = "Say \"hi\"" := by
  obtain ⟨content, hcontent, hcomponent, hreturn⟩ := exists_source_quotedWindow
  obtain ⟨outline, houtline, -, hsettings, -⟩ :=
    freshWindow_quotedWindow.exists_ofSource_eq hcontent hreturn
  obtain ⟨hpath, -⟩ := freshWindow_quotedWindow.extractSettings_eq hcontent (by decide)
    (.inl (by decide)) hcomponent
  have hread := @Imported.settings_importFile ⟨[], []⟩ {} ⟨"Foo.cs", content⟩
  rw [houtline] at hread
  dsimp only at hread
  have huntil : untilQuote quotedWindow.settings.menuPath = "Say \\" := by decide
  refine ⟨content, hcontent, ?_, rfl⟩
  rw [hread, hsettings, hpath, huntil]

end Project

end EditorScript
