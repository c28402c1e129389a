import EditorScript.Proofs.WindowSource

/-!
# Reading the source of a plain window

The outline of the source of a plain window is known but for the other members and
what follows the class: its class is found, the members are read behind the method
that opens it, and the settings are the ones that it was written with.
-/

namespace EditorScript

open Pattern

variable {className menuPath title : Text}

/-- The method that opens a window closes its braces. -/
theorem nests_openerLines (hname : ∀ c ∈ className, isWord c) (count inner : Nat) :
    Nests 0 (openerLines count inner menuPath className title) 0 := by
  have hmenu := (neutral_spaces count).append (statement_menuLine menuPath).neutral
  have hcall := (neutral_spaces inner).append
    (@statement_openerCall _ title hname).neutral
  exact .cons (.of_neutral hmenu 0) (endsWithBlock_between (tame_marginLine (by decide))
    (notMem_append (notMem_spaces (by decide) count) (by decide)) (.of_neutral hcall 0) count).nests

/-- No carriage return stands in the lines of a window but in its other members and
below its class. -/
theorem return_notMem_windowLines {settings : Settings} {members below : List Text}
    (hname : ∀ c ∈ settings.className, isWord c)
    (hnamespace : ∀ c ∈ settings.namespaceName, isWord c)
    (hmenu : ∀ c ∈ settings.menuPath, isPlainTextChar c)
    (htitle : ∀ c ∈ settings.windowTitle, isPlainTextChar c)
    (hmembers : ∀ line ∈ members, '\r' ∉ line) (hbelow : ∀ line ∈ below, '\r' ∉ line)
    (outer count inner : Nat) :
    ∀ line ∈ windowLines outer count inner settings members below, '\r' ∉ line := by
  have husings : ∀ line ∈ windowUsings, '\r' ∉ line := by decide
  have hclass := notMem_of_word hname (c := '\r') (by decide)
  have hmargin := fun count => notMem_spaces (c := '\r') (by decide) count
  have hbrace : ∀ (brace : Char) (count : Nat), brace ≠ '\r' →
      '\r' ∉ Text.spaces count ++ [brace] := fun brace count hbrace =>
    notMem_append (hmargin count) (by simpa using hbrace.symm)
  have hquote : ∀ text : Text, (∀ c ∈ text, isPlainTextChar c) → '\r' ∉ quote text := by
    intro text htext
    rw [quote_of_plain htext]
    exact List.not_mem_cons_of_ne_of_not_mem (by decide)
      (notMem_append (notMem_of_plainText htext (by decide)) (by decide))
  have habove : ∀ line ∈ windowAbove settings.namespaceName, '\r' ∉ line := by
    refine List.forall_mem_append.mpr ⟨husings, List.forall_mem_cons.mpr ⟨List.not_mem_nil, ?_⟩⟩
    split
    · exact List.forall_mem_nil _
    · exact List.forall_mem_cons.mpr
        ⟨notMem_append (by decide) (notMem_of_word hnamespace (by decide)),
          List.forall_mem_singleton.mpr (by decide)⟩
  have hheader : '\r' ∉ windowHeader settings.className :=
    notMem_append (by decide) (notMem_append hclass (by decide))
  have hmenuLine : '\r' ∉ menuLine settings.menuPath :=
    notMem_append (by decide) (notMem_append (hquote _ hmenu) (by decide))
  have hcall : '\r' ∉ openerCall settings.className settings.windowTitle :=
    notMem_append (by decide) (notMem_append hclass (notMem_append (by decide)
      (notMem_append (hquote _ htitle) (by decide))))
  have hopener : ∀ line ∈ openerLines count inner settings.menuPath settings.className
      settings.windowTitle, '\r' ∉ line :=
    List.forall_mem_cons.mpr ⟨notMem_append (hmargin count) hmenuLine,
      List.forall_mem_cons.mpr ⟨notMem_append (hmargin count) (by decide),
        List.forall_mem_cons.mpr ⟨hbrace _ count (by decide),
          List.forall_mem_cons.mpr ⟨notMem_append (hmargin inner) hcall,
            List.forall_mem_singleton.mpr (hbrace _ count (by decide))⟩⟩⟩⟩
  exact List.forall_mem_append.mpr ⟨habove,
    List.forall_mem_cons.mpr ⟨notMem_append (hmargin outer) hheader,
      List.forall_mem_cons.mpr ⟨hbrace _ outer (by decide),
        List.forall_mem_append.mpr ⟨List.forall_mem_append.mpr ⟨hopener, hmembers⟩,
          List.forall_mem_cons.mpr ⟨hbrace _ outer (by decide), hbelow⟩⟩⟩⟩⟩

namespace Project

variable {project : Project} {width : Nat} {text : Text}

/-- The lines of the members of a window behind the method that opens it. -/
def memberLines (project : Project) (width : Nat) : List Text :=
  (project.windowMembers width).flatMap fun text => [] :: text.lines

/-- The lines below the class of a window. -/
def linesBelow (project : Project) : List Text :=
  project.belowClass.flatMap Text.lines ++ [[]]

theorem PlainWindow.lines_of_source (h : project.PlainWindow)
    (htext : project.source width = .ok text) :
    text.lines = windowLines (width * project.level) (width * (project.level + 1))
      (width * (project.level + 2)) project.settings (project.memberLines width)
      project.linesBelow := by
  obtain ⟨other, hother, hlines⟩ := h.source_lines width
  obtain rfl := Except.ok.inj (hother.symm.trans htext)
  exact hlines

/-- What is read from the source of a plain window. -/
theorem PlainWindow.ofSource_eq (h : project.PlainWindow)
    (htext : project.source width = .ok text) (hmembers : Nests 0 (project.memberLines width) 0)
    (hmemberReturn : ∀ line ∈ project.memberLines width, '\r' ∉ line)
    (hbelowReturn : ∀ line ∈ project.linesBelow, '\r' ∉ line) :
    Outline.ofSource text =
      ({ usings := importsOf text
         kind := .editorWindow
         settings := extractSettings text .editorWindow project.settings.className ["EditorWindow"]
         foundClass := true
         body := .ofLines .editorWindow project.settings.className
           (openerLines (width * (project.level + 1)) (width * (project.level + 2))
             project.settings.menuPath project.settings.className project.settings.windowTitle ++
               project.memberLines width)
         outerCode := splitOuterCode project.linesBelow }, []) := by
  have hlines := h.lines_of_source htext
  have hreturn : '\r' ∉ text := by
    rw [← Text.unlines_lines text, hlines]
    exact Text.notMem_join (by decide) (return_notMem_windowLines h.className.2 h.namespaceName
      h.menuPath h.windowTitle hmemberReturn hbelowReturn _ _ _)
  exact ofSource_window h.className h.namespaceName
    ((nests_openerLines h.className.2 _ _).append hmembers) (Text.withoutReturns_eq hreturn)
    (detectKind_window h.kind htext) hlines

end Project

end EditorScript
