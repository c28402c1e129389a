import EditorScript.Imported.File
import EditorScript.Proofs.MovedRecovery
import EditorScript.Proofs.WindowReading
import EditorScript.Proofs.WellFormed
import EditorScript.Proofs.WordsInLines

/-!
# Bodies kept as text

A drawing method in which too much is not recognised is kept as text.  Written at the
margin of its method and read again, the body is cut into the same statements, so it is
given up again; what is kept is the body without its margin, and writing the project
anew gives the same source (`importFile_rawBody`).
-/

namespace EditorScript

/-! ## Lines at another margin -/

namespace Text

/-- Lines that differ in their margins only are the same when trimmed. -/
theorem trim_eq_of_sameButMargin {line other : Text} (h : SameButMargin line other) :
    line.trim = other.trim := by
  obtain ⟨m, n, core, rfl, rfl⟩ | ⟨hline, hother⟩ := h
  · rw [trim_blank_append (List.all_eq_true.mp (spaces_all_isBlank m)),
      trim_blank_append (List.all_eq_true.mp (spaces_all_isBlank n))]
  · have hnil : ∀ {line : Text}, line.blank → line.trim = [] := fun hblank => by
      have htrim := trim_blank_append (List.all_eq_true.mp hblank) []
      rwa [List.append_nil] at htrim
    rw [hnil hline, hnil hother]

/-- Each line of a fragment at another margin is blank or a line of the fragment. -/
theorem trim_of_mem_reindent {text line : Text} (h : '\t' ∉ text) {count : Nat}
    (hline : line ∈ (reindent count text).lines) :
    line.trim = [] ∨ ∃ other ∈ text.lines, other.trim = line.trim := by
  rw [lines_reindent] at hline
  obtain ⟨piece, hpiece, rfl⟩ := List.mem_map.mp hline
  rw [← trim_eq_of_sameButMargin (sameButMargin_indentLine count piece)]
  rw [lines_dedent h] at hpiece
  have hkept : piece = [] ∨ piece ∈ trimEmpty
      (text.lines.map (removeMargin (commonMargin text.lines))) := by
    revert hpiece
    cases trimEmpty (text.lines.map (removeMargin (commonMargin text.lines))) with
    | nil => exact fun hpiece => .inl (List.mem_singleton.mp hpiece)
    | cons first rest => exact .inr
  rcases hkept with rfl | hkept
  · exact .inl rfl
  · obtain ⟨other, hother, rfl⟩ := List.mem_map.mp (mem_of_mem_trimEmpty hkept)
    exact .inr ⟨other, hother, trim_eq_of_sameButMargin
      (sameButMargin_removeMargin fun hspaces => commonMargin_le hother hspaces)⟩

end Text

/-! ## What the lines of a window start with -/

/-- A line that does not start with a word. -/
def StartsOther (word line : Text) : Prop :=
  line.trim.startsWith word = false

variable {word : Text}

theorem startsOther_of_head {line : Text} {c : Char} (hword : word.head? = some c)
    (h : line.trim.head? ≠ some c) : StartsOther word line := by
  rw [StartsOther, ← Bool.not_eq_true]
  intro hstarts
  obtain ⟨rest, hrest⟩ := List.isPrefixOf_iff_prefix.mp hstarts
  obtain ⟨others, rfl⟩ := List.head?_eq_some_iff.mp hword
  refine h ?_
  rw [← hrest]
  rfl

theorem Statement.startsOther {statement : Text} (h : Statement statement) {c : Char}
    (hword : word.head? = some c) (hfirst : statement.head? ≠ some c) (count : Nat) :
    StartsOther word (Text.spaces count ++ statement) :=
  startsOther_of_head hword (by rwa [h.trim_margin])

theorem startsOther_brace {c brace : Char} (hword : word.head? = some c)
    (hblank : isBlank brace = false) (h : brace ≠ c) (count : Nat) :
    StartsOther word (Text.spaces count ++ [brace]) := by
  have hends : ∀ c ∈ [brace].head?, isBlank c = false := by
    rintro c ⟨⟩
    exact hblank
  refine startsOther_of_head hword ?_
  rw [Text.trim_spaces_append count hends hends]
  simpa using h

/-- The lines of a method that begins with a statement. -/
theorem startsOther_blockLines {c : Char} (hword : word.head? = some c)
    (hbraces : c ∉ "\x7b\x7d".toList) {header : Text} (hheader : Statement header)
    (hfirst : header.head? ≠ some c) {inside : List Text}
    (hinside : ∀ line ∈ inside, StartsOther word line) (count : Nat) :
    ∀ line ∈ blockLines count header inside, StartsOther word line := by
  have hopening : '\x7b' ≠ c := fun heq => hbraces (heq ▸ by decide)
  have hclosing : '\x7d' ≠ c := fun heq => hbraces (heq ▸ by decide)
  exact List.forall_mem_cons.mpr ⟨hheader.startsOther hword hfirst count,
    List.forall_mem_cons.mpr ⟨startsOther_brace hword (by decide) hopening count,
      List.forall_mem_append.mpr ⟨hinside, List.forall_mem_singleton.mpr
        (startsOther_brace hword (by decide) hclosing count)⟩⟩⟩

variable {settings : Settings} {members below : List Text} {outer count inner : Nat}

/-- Behind the imports of a window, no line starts with a word that neither its other
members nor what follows the class start with. -/
theorem startsOther_windowLines {c : Char} (hword : word.head? = some c)
    (hc : c ∉ "p[\x7bG\x7d".toList) (hname : ∀ c ∈ settings.className, isWord c)
    (hnamespace : ∀ c ∈ settings.namespaceName, isWord c)
    (hn : settings.namespaceName = [] ∨ c ≠ 'n')
    (hmembers : ∀ line ∈ members, StartsOther word line)
    (hbelow : ∀ line ∈ below, StartsOther word line) :
    ∃ others, windowLines outer count inner settings members below = windowUsings ++ others ∧
      ∀ line ∈ others, StartsOther word line := by
  have hne : ∀ d ∈ "p[\x7bG\x7d".toList, some d ≠ some c := fun d hd heq =>
    hc (Option.some.inj heq ▸ hd)
  have hbraces : c ∉ "\x7b\x7d".toList := fun hmem => by
    have hsubset : "\x7b\x7d".toList ⊆ "p[\x7bG\x7d".toList := by decide
    exact hc (hsubset hmem)
  have hopening := fun count => @startsOther_brace _ _ '\x7b' hword (by decide)
    (fun heq => hc (heq ▸ by decide)) count
  have hclosing := fun count => @startsOther_brace _ _ '\x7d' hword (by decide)
    (fun heq => hc (heq ▸ by decide)) count
  have hheader := (statement_windowHeader hname).startsOther hword (hne 'p' (by decide)) outer
  have hmenu := (statement_menuLine settings.menuPath).startsOther hword (hne '[' (by decide)) count
  have hcall := (@statement_openerCall _ settings.windowTitle hname).startsOther hword
    (hne 'G' (by decide)) inner
  have hopener := startsOther_blockLines hword hbraces statement_openerHeader
    (hne 'p' (by decide)) (List.forall_mem_singleton.mpr hcall) count
  have hempty : StartsOther word [] := startsOther_of_head hword (by rintro ⟨⟩)
  refine ⟨_, by rw [windowLines, windowAbove, List.append_assoc], ?_⟩
  refine List.forall_mem_append.mpr ⟨List.forall_mem_cons.mpr ⟨hempty, ?_⟩,
    List.forall_mem_cons.mpr ⟨hheader, List.forall_mem_cons.mpr ⟨hopening outer,
      List.forall_mem_append.mpr ⟨List.forall_mem_append.mpr
        ⟨List.forall_mem_cons.mpr ⟨hmenu, hopener⟩, hmembers⟩,
          List.forall_mem_cons.mpr ⟨hclosing outer, hbelow⟩⟩⟩⟩⟩
  split
  · exact List.forall_mem_nil _
  · rename_i hnonempty
    have hn' : some 'n' ≠ some c := fun heq =>
      (hn.resolve_left (by simpa using hnonempty)) (Option.some.inj heq).symm
    have hline := (statement_namespaceLine hnamespace (by simpa using hnonempty)).startsOther
      hword hn' 0
    exact List.forall_mem_cons.mpr ⟨hline, List.forall_mem_singleton.mpr (hopening 0)⟩

/-! ## The settings that are read back -/

/-- Settings that a window is written alike with. -/
structure Settings.SameWindow (settings other : Settings) : Prop where
  className : other.className = settings.className
  namespaceName : other.namespaceName = settings.namespaceName
  menuPath : other.menuPath = settings.menuPath
  windowTitle : other.windowTitle = settings.windowTitle
  interfaces : other.interfaces = []
  classAttributes : other.classAttributes = []

/-- The attribute of a component is looked for in vain where no line names it. -/
theorem notInfix_of_lines {word : Text} (hne : word ≠ [])
    (hword : ∀ c ∈ word, isBlank c = false) (hbrace : ¬ word <:+: ['\x7d'])
    (hmembers : ∀ line ∈ members, ¬ word <:+: line) (hbelow : ∀ line ∈ below, ¬ word <:+: line) :
    ¬ word <:+: '\n' :: Text.unlines ((Text.spaces count ++ ['\x7d']) ::
      (members ++ (Text.spaces outer ++ ['\x7d']) :: below)) := by
  intro hinside
  have hmargin : ∀ count, ¬ word <:+: Text.spaces count ++ ['\x7d'] := fun count hinside =>
    hbrace (infix_of_infix_blank_append hne hword
      (List.all_eq_true.mp (spaces_all_isBlank count)) hinside)
  rcases @infix_append_blank_cons _ hne hword [] _ _ (by decide) hinside with hnil | hrest
  · exact hne (List.infix_nil.mp hnil)
  · obtain ⟨piece, hpiece, hinside⟩ := exists_infix_of_unlines hne hword hrest
    have hnone : ∀ piece ∈ (Text.spaces count ++ ['\x7d']) ::
        (members ++ (Text.spaces outer ++ ['\x7d']) :: below), ¬ word <:+: piece :=
      List.forall_mem_cons.mpr ⟨hmargin count, List.forall_mem_append.mpr
        ⟨hmembers, List.forall_mem_cons.mpr ⟨hmargin outer, hbelow⟩⟩⟩
    exact hnone piece hpiece hinside

/-- A window is read with the settings that it was written with. -/
theorem sameWindow_extractSettings {text : Text}
    (hlines : text.lines = windowLines outer count inner settings members below)
    (hname : IsVariableName settings.className)
    (hnamespace : ∀ c ∈ settings.namespaceName, isWord c) (hne : settings.menuPath ≠ [])
    (hmenu : ∀ c ∈ settings.menuPath, isPlainTextChar c)
    (htitle : ∀ c ∈ settings.windowTitle, isPlainTextChar c)
    (hcomponent : ∀ line ∈ members ++ below, ¬ "AddComponentMenu".toList <:+: line)
    (hstarts : ∀ line ∈ members ++ below, StartsOther "namespace" line) :
    settings.SameWindow
      (extractSettings text .editorWindow settings.className ["EditorWindow"]) := by
  rw [List.forall_mem_append] at hcomponent hstarts
  have htext := Text.unlines_lines text
  rw [hlines, unlines_windowLines] at htext
  have hword : ∀ c ∈ "AddComponentMenu".toList, isWord c := List.all_eq_true.mp (by rfl)
  have hrest := @notInfix_of_lines _ _ outer count "AddComponentMenu".toList
    (by decide) (fun c hc => isBlank_of_isWord (hword c hc)) (by decide)
    hcomponent.1 hcomponent.2
  have hmenuRead := @menu_windowText _ _ _ settings.windowTitle ('\n' :: Text.unlines
    ((Text.spaces count ++ ['\x7d']) :: (members ++ (Text.spaces outer ++ ['\x7d']) :: below)))
    hname.2 hnamespace hne outer count inner
  have hcomponentRead := component_windowText hname.2 hnamespace hmenu htitle hrest outer count inner
  have htitleRead := @title_windowText _ _ _ settings.windowTitle ('\n' :: Text.unlines
    ((Text.spaces count ++ ['\x7d']) :: (members ++ (Text.spaces outer ++ ['\x7d']) :: below)))
    hname hnamespace (opensNothing_of_plain hmenu) outer count inner
  rw [untilQuote_of_plain hmenu] at hmenuRead
  rw [untilQuote_of_plain htitle] at htitleRead
  have hnamespaceRead : (capturedIn? namespacePattern "name" text).getD [] =
      settings.namespaceName := by
    by_cases hempty : settings.namespaceName = []
    · have husings : ∀ line ∈ windowUsings, StartsOther "namespace" line := by
        unfold StartsOther
        decide
      obtain ⟨others, hothers, hnone⟩ := @startsOther_windowLines "namespace".toList _ _ _ outer count inner 'n' rfl (by decide) hname.2
        hnamespace (.inl hempty) hstarts.1 hstarts.2
      have hsearch := @search?_namespacePattern text (by
        rw [hlines, hothers]
        exact List.forall_mem_append.mpr ⟨husings, hnone⟩)
      rw [capturedIn?, hsearch, hempty]
      rfl
    · rw [← htext, namespace_windowText hnamespace hempty]
      rfl
  rw [htext] at hmenuRead hcomponentRead htitleRead
  have hinterfaces : (["EditorWindow"] : List Text).filter
      (fun base => !engineBases.contains (shortTypeName base)) = [] := by decide
  exact ⟨rfl, hnamespaceRead,
    congrArg₂ (fun component menu : Option Text => (component.or menu).getD _)
      hcomponentRead hmenuRead,
    congrArg (fun title : Option Text => (title.or _).getD _) htitleRead, hinterfaces, rfl⟩

/-! ## Windows with a body kept as text -/

/-- A body without other white space than spaces and newlines that closes its braces, in
which no line looks like an import, a namespace or the path of a component. -/
structure QuietBody (body : Text) : Prop where
  plainBlanks : PlainBlanks body
  closed : LexicallyClosed body
  noImport : ∀ line ∈ body.lines, StartsOther "using" line
  noNamespace : ∀ line ∈ body.lines, StartsOther "namespace" line
  noComponent : ¬ "AddComponentMenu".toList <:+: body

namespace QuietBody

variable {body : Text} (h : QuietBody body)
include h

theorem startsOther_reindent {c : Char} (hword : word.head? = some c)
    (hbody : ∀ line ∈ body.lines, StartsOther word line) :
    ∀ line ∈ (Text.reindent count body).lines, StartsOther word line := by
  intro line hline
  rcases Text.trim_of_mem_reindent h.plainBlanks.tab_notMem hline with hempty | ⟨other, hother, heq⟩
  · refine startsOther_of_head hword ?_
    rw [hempty]
    rintro ⟨⟩
  · rw [StartsOther, ← heq]
    exact hbody other hother

theorem notInfix_reindent : ∀ line ∈ (Text.reindent count body).lines,
    ¬ "AddComponentMenu".toList <:+: line := by
  have hword : ∀ c ∈ "AddComponentMenu".toList, isWord c := List.all_eq_true.mp (by rfl)
  have htrim := fun line : Text => @infix_trim_iff "AddComponentMenu".toList (by decide)
    (fun c hc => isBlank_of_isWord (hword c hc)) line
  intro line hline hinside
  rcases Text.trim_of_mem_reindent h.plainBlanks.tab_notMem hline with hempty | ⟨other, hother, heq⟩
  · rw [← htrim, hempty] at hinside
    exact absurd (List.infix_nil.mp hinside) (by decide)
  · rw [← htrim, ← heq, htrim] at hinside
    exact h.noComponent (hinside.trans (Text.infix_of_mem_lines hother))

end QuietBody

namespace Project

variable {project : Project} {width : Nat}

/-- A plain window that holds nothing but a body kept as text. -/
structure RawWindow (project : Project) : Prop extends project.PlainWindow where
  fieldDeclarations : project.fieldDeclarations = []
  innerTypes : project.innerTypes = []
  lifecycleMethods : project.lifecycleMethods = []
  customMethods : project.customMethods = []
  outerCode : project.outerCode = []
  notBlank : project.rawBody.blank = false

/-- The lines of the body where it is written. -/
def rawLines (project : Project) (width : Nat) : List Text :=
  (Text.reindent (width * (project.level + 2)) project.rawBody).lines

/-- Behind the method that opens the window stands the drawing method alone. -/
theorem RawWindow.memberLines_eq (h : project.RawWindow) :
    project.memberLines width =
      [] :: blockLines (width * (project.level + 1)) guiHeader (project.rawLines width) := by
  have hraw : project.isRaw = true := by
    rw [isRaw, h.elements, h.notBlank]
    rfl
  have hdeclarations : project.declarationSections width (project.level + 1) = [] := by
    rw [declarationSections, h.fieldDeclarations, h.innerTypes]
    rfl
  have hmethods : project.methodSections width (project.level + 1) = [] := by
    rw [methodSections, h.lifecycleMethods, h.customMethods]
    rfl
  rw [memberLines, windowMembers, hdeclarations, hmethods, List.nil_append, List.append_nil,
    List.flatMap_singleton, lines_blockText (by decide), List.flatMap_singleton, guiText,
    if_pos hraw, rawLines]

/-- Below the class stands nothing but the end of its namespace. -/
theorem RawWindow.linesBelow_eq (h : project.RawWindow) :
    project.linesBelow = (if project.settings.namespaceName.isEmpty then [] else [['\x7d']]) ++
      [[]] := by
  rw [linesBelow, belowClass, outerText, h.outerCode]
  split <;> rfl

/-- Windows with the same settings and bodies that are written alike have the same source. -/
theorem RawWindow.source_congr {other : Project} (h : project.RawWindow) (h' : other.RawWindow)
    (hsettings : project.settings.SameWindow other.settings)
    (hbody : ∀ count, Text.reindent count other.rawBody = Text.reindent count project.rawBody) :
    other.source width = project.source width := by
  have hlevel : other.level = project.level := by rw [level, level, hsettings.namespaceName]
  obtain ⟨text, htext, -⟩ := h.source_lines width
  obtain ⟨text', htext', -⟩ := h'.source_lines width
  have hwindow : text'.lines = text.lines := by
    rw [h.lines_of_source htext, h'.lines_of_source htext', h.memberLines_eq, h'.memberLines_eq,
      h.linesBelow_eq, h'.linesBelow_eq, rawLines, rawLines, hlevel, hbody]
    unfold windowLines
    rw [hsettings.namespaceName, hsettings.className, hsettings.menuPath, hsettings.windowTitle]
  rw [htext, htext', ← Text.unlines_lines text', hwindow, Text.unlines_lines]

/-! ## Reading them again -/

theorem nests_rawLines (hbody : QuietBody project.rawBody) : Nests 0 (project.rawLines width) 0 :=
  hbody.closed.reindent hbody.plainBlanks.tab_notMem _

section

variable (h : project.RawWindow) (hbody : QuietBody project.rawBody)
include h hbody

theorem RawWindow.nests_memberLines : Nests 0 (project.memberLines width) 0 := by
  rw [h.memberLines_eq]
  exact .cons (.blank 0) (endsWithBlock_between (tame_marginLine (by decide))
    (notMem_append (notMem_spaces (by decide) _) (by decide))
      (nests_rawLines hbody) _).nests

/-- No line of the members starts with a word that is not in the generated ones. -/
theorem RawWindow.startsOther_memberLines {c : Char} (hword : word.head? = some c)
    (hbraces : c ∉ "\x7b\x7d".toList) (hc : c ≠ 'p')
    (hlines : ∀ line ∈ project.rawBody.lines, StartsOther word line) :
    ∀ line ∈ project.memberLines width, StartsOther word line := by
  rw [h.memberLines_eq]
  refine List.forall_mem_cons.mpr ⟨startsOther_of_head hword (by rintro ⟨⟩),
    startsOther_blockLines hword hbraces statement_guiHeader ?_
      (hbody.startsOther_reindent hword hlines) _⟩
  rintro ⟨⟩
  exact hc rfl

theorem RawWindow.notInfix_memberLines :
    ∀ line ∈ project.memberLines width, ¬ "AddComponentMenu".toList <:+: line := by
  have hword : ∀ c ∈ "AddComponentMenu".toList, isWord c := List.all_eq_true.mp (by rfl)
  have hmargin : ∀ {line : Text}, ¬ "AddComponentMenu".toList <:+: line → ∀ count,
      ¬ "AddComponentMenu".toList <:+: Text.spaces count ++ line := fun hline count hinside =>
    hline (infix_of_infix_blank_append (by decide) (fun c hc => isBlank_of_isWord (hword c hc))
      (List.all_eq_true.mp (spaces_all_isBlank count)) hinside)
  rw [h.memberLines_eq]
  exact List.forall_mem_cons.mpr ⟨by decide, List.forall_mem_cons.mpr ⟨hmargin (by decide) _,
    List.forall_mem_cons.mpr ⟨hmargin (by decide) _, List.forall_mem_append.mpr
      ⟨hbody.notInfix_reindent, List.forall_mem_singleton.mpr (hmargin (by decide) _)⟩⟩⟩⟩

theorem RawWindow.return_notMem_memberLines : ∀ line ∈ project.memberLines width, '\r' ∉ line := by
  have hmargin : ∀ {line : Text}, '\r' ∉ line → ∀ count, '\r' ∉ Text.spaces count ++ line :=
    fun hline count => notMem_append (notMem_spaces (by decide) count) hline
  rw [h.memberLines_eq]
  exact List.forall_mem_cons.mpr ⟨by decide, List.forall_mem_cons.mpr ⟨hmargin (by decide) _,
    List.forall_mem_cons.mpr ⟨hmargin (by decide) _, List.forall_mem_append.mpr
      ⟨fun line hline => (Text.plain_of_mem_reindent hbody.plainBlanks hline).return_notMem,
        List.forall_mem_singleton.mpr (hmargin (by decide) _)⟩⟩⟩⟩

/-- The members of such a window are nothing but the body. -/
theorem RawWindow.ofLines_eq :
    ClassBody.ofLines .editorWindow project.settings.className
      (openerLines (width * (project.level + 1)) (width * (project.level + 2))
        project.settings.menuPath project.settings.className project.settings.windowTitle ++
          project.memberLines width) = ⟨[], some (project.rawLines width)⟩ := by
  have hbehind : StartsAnew (codeText .code
      ([] :: blockLines (width * (project.level + 1)) guiHeader (project.rawLines width))) := by
    rw [startsAnew_blank_cons]
    simpa using startsAnew_gui (width * (project.level + 1)) (project.rawLines width) []
  have hgui := @membersOf_gui project.settings.className _ _ []
    (width * (project.level + 1)) (@nests_rawLines _ width hbody) startsAnew_nil
  rw [List.append_nil] at hgui
  rw [ClassBody.ofLines, h.memberLines_eq, membersOf_opener h.className _ _ hbehind,
    if_neg (notMem_of_plainText h.windowTitle (by decide)),
    membersOf_blank (by decide), attachLines_nil, hgui, membersOf]
  rfl

/-- What is read from the source of such a window. -/
theorem RawWindow.outline_eq {text : Text} (htext : project.source width = .ok text) :
    ∃ settings, project.settings.SameWindow settings ∧ Outline.ofSource text =
      ({ usings := windowUsings
         kind := .editorWindow
         settings := settings
         foundClass := true
         body := ⟨[], some (project.rawLines width)⟩
         outerCode := [] }, []) := by
  have hlines := h.lines_of_source htext
  have hbelow : ∀ line ∈ project.linesBelow, line = [] ∨ line = ['\x7d'] := by
    rw [h.linesBelow_eq]
    split <;> decide
  have houtline := h.ofSource_eq htext (h.nests_memberLines hbody)
    (h.return_notMem_memberLines hbody) fun line hline => by
      rcases hbelow line hline with rfl | rfl <;> decide
  have husings : importsOf text = windowUsings := by
    obtain ⟨others, hothers, hnone⟩ := @startsOther_windowLines "using".toList _ _ _
      (width * project.level) (width * (project.level + 1)) (width * (project.level + 2)) 'u' rfl (by decide) h.className.2 h.namespaceName
      (.inr (by decide)) (h.startsOther_memberLines hbody rfl (by decide) (by decide)
        hbody.noImport) fun line hline => by
          rcases hbelow line hline with rfl | rfl <;> (unfold StartsOther; decide)
    rw [importsOf_append (hlines.trans hothers) hnone]
    decide +kernel
  have hsettings := sameWindow_extractSettings hlines h.className h.namespaceName h.menuPath_ne
    h.menuPath h.windowTitle (List.forall_mem_append.mpr ⟨h.notInfix_memberLines hbody,
      fun line hline => by rcases hbelow line hline with rfl | rfl <;> decide⟩)
    (List.forall_mem_append.mpr ⟨h.startsOther_memberLines hbody rfl (by decide) (by decide)
      hbody.noNamespace, fun line hline => by
        rcases hbelow line hline with rfl | rfl <;> (unfold StartsOther; decide)⟩)
  have houter : splitOuterCode project.linesBelow = [] := by
    rw [h.linesBelow_eq]
    split <;> decide +kernel
  refine ⟨_, hsettings, ?_⟩
  rw [houtline, husings, h.ofLines_eq hbody, houter]

end

/-- The project that is read from the source of such a window, when its body is given up. -/
theorem RawWindow.importFile_eq (h : project.RawWindow) (hbody : QuietBody project.rawBody)
    {gate : Gate} (hgate : gate.fallsBack (recover project.rawBody).elements) {content : Text}
    (hcontent : project.source width = .ok content) (stamp : Stamp) (file : Text) :
    ∃ settings name, project.settings.SameWindow settings ∧
      (importFile stamp gate ⟨file, content⟩).project =
        { Project.create stamp (displayName file) with
          kind := .editorWindow
          settings := settings
          usings := windowUsings
          name := name
          rawBody := project.rawBody.dedent } := by
  obtain ⟨settings, hsettings, houtline⟩ := h.outline_eq hbody hcontent
  have hagain : gate.fallsBack (recover (Text.unlines (project.rawLines width))).elements = true := by
    rw [rawLines, Text.unlines_lines]
    exact (gate.fallsBack_eq (opaqueRoots_reindent hbody.plainBlanks.tab_notMem _)).trans hgate
  have hne : (recover (Text.unlines (project.rawLines width))).elements.isEmpty = false := by
    rw [List.isEmpty_eq_false_iff]
    intro hnil
    rw [hnil, Gate.fallsBack_nil] at hagain
    cases hagain
  have hraw : Text.dedent (Text.unlines (project.rawLines width)) = project.rawBody.dedent := by
    rw [rawLines, Text.unlines_lines, Text.dedent_reindent hbody.plainBlanks]
  refine ⟨settings, (present? (some settings.className)).getD
    (Project.create stamp (displayName file)).name, hsettings, ?_⟩
  rw [importFile, houtline]
  dsimp only
  rw [Imported.withBody, Imported.withRecovered, hne, if_neg (by decide), hagain, if_pos rfl, hraw]
  rfl

/-- A body that is given up is given up again, and kept as it was but for its margin; the
project that is read has the same source. -/
theorem importFile_rawBody (h : project.RawWindow) (hbody : QuietBody project.rawBody)
    {gate : Gate} (hgate : gate.fallsBack (recover project.rawBody).elements) (width : Nat)
    (stamp : Stamp) (file : Text) :
    ∃ content, project.source width = .ok content ∧
      (importFile stamp gate ⟨file, content⟩).project.elements = [] ∧
      (importFile stamp gate ⟨file, content⟩).project.rawBody = project.rawBody.dedent ∧
      (importFile stamp gate ⟨file, content⟩).project.source width = .ok content := by
  obtain ⟨content, hcontent, -⟩ := h.source_lines width
  obtain ⟨settings, name, hsettings, hread⟩ := h.importFile_eq hbody hgate hcontent stamp file
  have hnotBlank : project.rawBody.dedent.blank = false := by
    obtain ⟨c, hc, hblank⟩ := List.all_eq_false.mp h.notBlank
    exact List.all_eq_false.mpr ⟨c, Text.mem_dedent hc (by simpa using hblank), hblank⟩
  have hagain : ({ Project.create stamp (displayName file) with
      kind := .editorWindow
      settings := settings
      usings := windowUsings
      name := name
      rawBody := project.rawBody.dedent } : Project).RawWindow :=
    { kind := rfl
      className := hsettings.className ▸ h.className
      namespaceName := hsettings.namespaceName ▸ h.namespaceName
      usings := .inr rfl
      interfaces := hsettings.interfaces
      classAttributes := hsettings.classAttributes
      elements := rfl
      menuPath_ne := hsettings.menuPath ▸ h.menuPath_ne
      menuPath := hsettings.menuPath ▸ h.menuPath
      windowTitle := hsettings.windowTitle ▸ h.windowTitle
      fieldDeclarations := rfl
      innerTypes := rfl
      lifecycleMethods := rfl
      customMethods := rfl
      outerCode := rfl
      notBlank := hnotBlank }
  refine ⟨content, hcontent, ?_, ?_, ?_⟩
  · rw [hread]
    rfl
  · rw [hread]
  · have hsame := @RawWindow.source_congr _ width _ h hagain hsettings
      fun count => Text.reindent_dedent hbody.plainBlanks count
    rw [hread, hsame, hcontent]

/-- A window that draws with a loop, kept with a margin of its own. -/
def loopWindow : Project where
  name := "Grid"
  settings :=
    { className := "Grid", menuPath := "Tools/Grid", windowTitle := "Grid", namespaceName := "Maps" }
  rawBody := "  for (int i = 0; i < 3; i++)\n  \x7b\n    DrawRow(i);\n  \x7d\n"

theorem rawWindow_loopWindow : loopWindow.RawWindow where
  kind := rfl
  className := by decide
  namespaceName := List.all_eq_true.mp rfl
  usings := .inl rfl
  interfaces := rfl
  classAttributes := rfl
  elements := rfl
  menuPath_ne := by decide
  menuPath := List.all_eq_true.mp rfl
  windowTitle := List.all_eq_true.mp rfl
  fieldDeclarations := rfl
  innerTypes := rfl
  lifecycleMethods := rfl
  customMethods := rfl
  outerCode := rfl
  notBlank := by decide

theorem quietBody_loopWindow : QuietBody loopWindow.rawBody where
  plainBlanks := by decide +kernel
  closed := by decide +kernel
  noImport := by unfold StartsOther; decide +kernel
  noNamespace := by unfold StartsOther; decide +kernel
  noComponent := by decide +kernel

theorem importFile_rawBody_loopWindow : ∃ content, loopWindow.source 4 = .ok content ∧
    (importFile ⟨[], []⟩ {} ⟨"Grid.cs", content⟩).project.elements = [] ∧
    (importFile ⟨[], []⟩ {} ⟨"Grid.cs", content⟩).project.rawBody =
      "for (int i = 0; i < 3; i++)\n\x7b\n  DrawRow(i);\n\x7d" ∧
    (importFile ⟨[], []⟩ {} ⟨"Grid.cs", content⟩).project.source 4 = .ok content := by
  obtain ⟨content, hcontent, helements, hbody, hagain⟩ := @importFile_rawBody _ rawWindow_loopWindow
    quietBody_loopWindow {} (by decide +kernel) 4 ⟨[], []⟩ "Grid.cs"
  have hdedent : loopWindow.rawBody.dedent =
      "for (int i = 0; i < 3; i++)\n\x7b\n  DrawRow(i);\n\x7d" := by decide +kernel
  exact ⟨content, hcontent, helements, hbody.trans hdedent, hagain⟩

end Project

end EditorScript
