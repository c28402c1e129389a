import EditorScript.Proofs.Dedenting
import EditorScript.Proofs.WindowSettings

/-!
# The source of a window without elements

The source of a plain window is known line by line: the imports, the namespace and the
header of the class, the method that opens the window, and behind an empty line each of
the other members.
-/

namespace EditorScript

/-- A window without elements whose path in the menu and title are plain texts. -/
structure Project.PlainWindow (project : Project) : Prop extends project.BareWindow where
  elements : project.elements = []
  menuPath_ne : project.settings.menuPath ≠ []
  menuPath : ∀ c ∈ project.settings.menuPath, isPlainTextChar c
  windowTitle : ∀ c ∈ project.settings.windowTitle, isPlainTextChar c

namespace Text

/-- Texts put together with an empty line between neighbours. -/
theorem lines_join_blank (first : Text) (others : List Text) :
    (join "\n\n" (first :: others)).lines =
      first.lines ++ others.flatMap fun text => [] :: text.lines := by
  have hbreak : ("\n\n" : Text) = '\n' :: '\n' :: [] := by decide
  rewrite [hbreak]
  induction others generalizing first with
  | nil => rw [join_singleton, List.flatMap_nil, List.append_nil]
  | cons next rest ih =>
    rw [join_cons_cons, List.cons_append, List.cons_append, List.nil_append, lines_append_newline,
      lines_newline_cons, ih, List.flatMap_cons]
    rfl

/-- Lines are what they are the lines of. -/
theorem flatMap_lines {pieces : List Text} (h : ∀ piece ∈ pieces, '\n' ∉ piece) :
    pieces.flatMap lines = pieces := by
  induction pieces with
  | nil => rfl
  | cons piece rest ih =>
    rw [List.forall_mem_cons] at h
    rw [List.flatMap_cons, lines_eq_singleton h.1, ih h.2, List.singleton_append]

end Text

theorem newline_notMem_windowAbove {namespaceName : Text} (h : ∀ c ∈ namespaceName, isWord c) :
    ∀ line ∈ windowAbove namespaceName, '\n' ∉ line := by
  have husings : ∀ line ∈ windowUsings, '\n' ∉ line := by decide
  refine List.forall_mem_append.mpr ⟨husings, List.forall_mem_cons.mpr ⟨List.not_mem_nil, ?_⟩⟩
  split
  · exact List.forall_mem_nil _
  · exact List.forall_mem_cons.mpr ⟨notMem_append (by decide) (notMem_of_word h (by decide)),
      List.forall_mem_singleton.mpr (by decide)⟩

/-- The lines of a signature with its block. -/
theorem lines_blockText {signature : Text} (h : '\n' ∉ signature) (width level : Nat)
    (body : List Text) :
    (blockText width level signature body).lines =
      blockLines (width * level) signature (body.flatMap Text.lines) := by
  have hbrace : ∀ brace : Char, brace ≠ '\n' →
      (Text.spaces (width * level) ++ [brace]).lines = [Text.spaces (width * level) ++ [brace]] :=
    fun brace hbrace => Text.lines_eq_singleton
      (notMem_append (notMem_spaces (by decide) _) (by simpa using hbrace.symm))
  have hsignature : (Text.spaces (width * level) ++ signature).lines =
      [Text.spaces (width * level) ++ signature] :=
    Text.lines_eq_singleton (notMem_append (notMem_spaces (by decide) _) h)
  have hopening := hbrace '\x7b' (by decide)
  have hclosing := hbrace '\x7d' (by decide)
  have hopen : ("\x7b" : Text) = ['\x7b'] := rfl
  have hclose : ("\x7d" : Text) = ['\x7d'] := rfl
  unfold blockText
  dsimp only
  rw [Text.lines_unlines (by simp), List.flatMap_append, List.flatMap_append, List.flatMap_cons,
    List.flatMap_singleton, List.flatMap_singleton, hopen, hclose, indentation, hsignature,
    hopening, hclosing, blockLines, List.append_assoc]
  rfl

/-- The lines of a window around its other members and above what follows the class. -/
def windowLines (outer count inner : Nat) (settings : Settings) (members below : List Text) :
    List Text :=
  windowAbove settings.namespaceName ++ (Text.spaces outer ++ windowHeader settings.className) ::
    (Text.spaces outer ++ ['\x7b']) ::
      ((openerLines count inner settings.menuPath settings.className settings.windowTitle ++ members) ++
        (Text.spaces outer ++ ['\x7d']) :: below)

namespace Project

variable {project : Project} {width : Nat}

/-- What the drawing method of a window without elements draws. -/
def guiText (project : Project) (width level : Nat) : Text :=
  if project.isRaw then Text.reindent (width * level) project.rawBody
  else indentation width level ++ emptyGuiComment

/-- The members of a window behind the method that opens it. -/
def windowMembers (project : Project) (width : Nat) : List Text :=
  project.declarationSections width (project.level + 1) ++
    [blockText width (project.level + 1) guiHeader [project.guiText width (project.level + 2)]] ++
    project.methodSections width (project.level + 1)

/-- The drawing method of a bare window, given what it draws. -/
theorem BareWindow.guiMethod_eq (h : project.BareWindow) {content : Text}
    (hcontent : project.guiContent width (project.level + 2) = .ok content) :
    project.guiMethod width (project.level + 1) =
      .ok [blockText width (project.level + 1) guiHeader [content]] := by
  unfold guiMethod
  rw [h.kind]
  simp only [ScriptKind.guiSignature?, ScriptKind.guiPrologue, ScriptKind.guiEpilogue, ite_self]
  rw [hcontent]
  rfl

theorem BareWindow.exists_source (h : project.BareWindow) {content : Text}
    (hcontent : project.guiContent width (project.level + 2) = .ok content) :
    ∃ text, project.source width = .ok text := by
  unfold source
  rw [h.guiMethod_eq hcontent]
  exact ⟨_, rfl⟩

theorem PlainWindow.guiContent_eq (h : project.PlainWindow) (level : Nat) :
    project.guiContent width level = .ok (project.guiText width level) := by
  have hempty : (!project.elements.isEmpty) = false := by rw [h.elements]; rfl
  rw [guiContent, guiText, hempty, if_neg (by decide)]
  split <;> rfl

theorem PlainWindow.guiMethod_eq (h : project.PlainWindow) :
    project.guiMethod width (project.level + 1) = .ok
      [blockText width (project.level + 1) guiHeader
        [project.guiText width (project.level + 2)]] :=
  h.toBareWindow.guiMethod_eq (h.guiContent_eq _)

/-- The members of a bare window behind the method that opens it, the drawing method being
given. -/
def membersBehind (project : Project) (width : Nat) (gui : List Text) : List Text :=
  project.fieldMembers width (project.level + 1) ++
    project.declarationSections width (project.level + 1) ++ gui ++
    project.methodSections width (project.level + 1)

/-- The text of the method that opens a window. -/
theorem BareWindow.members_eq (h : project.BareWindow) (width : Nat) (gui : List Text) :
    ∃ opener, project.members width gui = opener :: project.membersBehind width gui ∧
      opener.lines = openerLines (width * (project.level + 1)) (width * (project.level + 2))
        project.settings.menuPath project.settings.className project.settings.windowTitle := by
  have hbefore : project.membersBeforeGui width (project.level + 1) = [] := by
    rw [membersBeforeGui, h.kind]
  have hafter : project.membersAfterGui width (project.level + 1) = [] := by
    rw [membersAfterGui, h.kind]
  refine ⟨indentation width (project.level + 1) ++ menuLine project.settings.menuPath ++ '\n' ::
    blockText width (project.level + 1) openerHeader
      [indentation width (project.level + 2) ++
        openerCall project.settings.className project.settings.windowTitle], ?_, ?_⟩
  · have hopener : project.leadingMembers width (project.level + 1) = [indentation width
        (project.level + 1) ++ menuLine project.settings.menuPath ++ '\n' ::
          blockText width (project.level + 1) openerHeader
            [indentation width (project.level + 2) ++
              openerCall project.settings.className project.settings.windowTitle]] := by
      have hbreak : (")]\n" : Text) = ")]" ++ ['\n'] := by decide
      have hcall : ∀ a b c d e f : Text,
          a ++ b ++ c ++ d ++ e ++ f = a ++ (b ++ (c ++ (d ++ (e ++ f)))) := by
        intro a b c d e f
        simp only [List.append_assoc]
      have hmember : ∀ a b c d e : Text,
          a ++ b ++ c ++ (d ++ ['\n']) ++ e = a ++ (b ++ (c ++ d)) ++ '\n' :: e := by
        intro a b c d e
        simp only [List.append_assoc, List.singleton_append]
      rw [leadingMembers, h.kind]
      exact congrArg (fun member => [member]) ((congrArg₂ (fun ending call =>
        indentation width (project.level + 1) ++ "[MenuItem(".toList ++
          quote project.settings.menuPath ++ ending ++
            blockText width (project.level + 1) openerHeader [call]) hbreak
              (hcall _ _ _ _ _ _)).trans (hmember _ _ _ _ _))
    rw [members, hopener, hbefore, hafter, membersBehind]
    simp only [List.append_nil, List.append_assoc, List.cons_append, List.nil_append]
  · have hcall := (@statement_openerCall _ project.settings.windowTitle h.className.2)
    rw [Text.lines_append_newline, indentation, (statement_menuLine _).lines_eq,
      lines_blockText (by decide), List.flatMap_singleton, indentation, hcall.lines_eq]
    rfl

/-- The lines of a bare window. -/
theorem BareWindow.source_lines (h : project.BareWindow) {text : Text}
    (htext : project.source width = .ok text) :
    ∃ gui, project.guiMethod width (project.level + 1) = .ok gui ∧
      text.lines = windowLines (width * project.level) (width * (project.level + 1))
        (width * (project.level + 2)) project.settings
        ((project.membersBehind width gui).flatMap fun text => [] :: text.lines)
        (project.belowClass.flatMap Text.lines ++ [[]]) := by
  have hheader : '\n' ∉ project.settings.classHeader project.kind := by
    rw [h.classHeader_eq]
    exact ((statement_windowHeader h.className.2).neutral [] calm_nil).oneLine
  obtain ⟨gui, hgui, hlines⟩ := lines_of_source hheader htext
  obtain ⟨opener, hmembers, hopener⟩ := h.members_eq width gui
  have hinside : (project.insideClass width gui).flatMap Text.lines =
      opener.lines ++ (project.membersBehind width gui).flatMap fun text => [] :: text.lines := by
    rw [insideClass, hmembers]
    exact (List.flatMap_singleton _ _).trans (Text.lines_join_blank _ _)
  have habove := Text.flatMap_lines (newline_notMem_windowAbove h.namespaceName)
  refine ⟨gui, hgui, ?_⟩
  rw [hlines, sourceLines, h.aboveClass_eq, h.classHeader_eq, hinside, habove, hopener]
  rfl

/-- The lines of a window without elements. -/
theorem PlainWindow.source_lines (h : project.PlainWindow) (width : Nat) :
    ∃ text, project.source width = .ok text ∧
      text.lines = windowLines (width * project.level) (width * (project.level + 1))
        (width * (project.level + 2)) project.settings
        ((project.windowMembers width).flatMap fun text => [] :: text.lines)
        (project.belowClass.flatMap Text.lines ++ [[]]) := by
  have hgui := @PlainWindow.guiMethod_eq _ width h
  obtain ⟨text, htext⟩ := h.toBareWindow.exists_source (@h.guiContent_eq _ width _)
  obtain ⟨gui, hgui', hlines⟩ := h.toBareWindow.source_lines htext
  obtain rfl := Except.ok.inj (hgui.symm.trans hgui')
  rw [membersBehind, fieldMembers_nil h.elements, List.nil_append] at hlines
  exact ⟨text, htext, hlines⟩

end Project

/-- The lines of a window are those of a text that begins like one. -/
theorem unlines_windowLines (outer count inner : Nat) (settings : Settings)
    (members below : List Text) :
    Text.unlines (windowLines outer count inner settings members below) =
      windowText outer count inner settings.namespaceName settings.className settings.menuPath
        settings.windowTitle ('\n' :: Text.unlines ((Text.spaces count ++ ['\x7d']) ::
          (members ++ (Text.spaces outer ++ ['\x7d']) :: below))) := by
  have hsplit : windowLines outer count inner settings members below =
      (windowAbove settings.namespaceName ++
        [Text.spaces outer ++ windowHeader settings.className, Text.spaces outer ++ ['\x7b']]) ++
          (openerLines count inner settings.menuPath settings.className settings.windowTitle ++
            (members ++ (Text.spaces outer ++ ['\x7d']) :: below)) := by
    rw [windowLines, List.append_assoc, List.append_assoc]
    rfl
  have hopener : ∀ behind, Text.unlines (openerLines count inner settings.menuPath
      settings.className settings.windowTitle ++ behind) =
      Text.spaces count ++ (menuLine settings.menuPath ++ (openerFront count inner ++
        (openerCall settings.className settings.windowTitle ++
          '\n' :: Text.unlines ((Text.spaces count ++ ['\x7d']) :: behind)))) := by
    intro behind
    simp only [openerLines, blockLines, openerFront, List.cons_append, List.nil_append,
      Text.unlines_cons_cons, List.append_assoc]
  rw [hsplit, Text.unlines_append (by simp) (by simp [openerLines]), hopener, windowText,
    windowFront, List.append_assoc]
  rfl

end EditorScript
