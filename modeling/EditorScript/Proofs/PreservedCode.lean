import EditorScript.Proofs.KeptMembers
import EditorScript.Proofs.OuterTypes

/-!
# Fragments that survive

A window carries fields, types and methods along inside its class, and further types below
it.  Between the methods that are written anew each of them stands at the margin of the
class, behind a marker or an empty line.  Reading the source of a window that draws nothing
gives back every one of them, in its order and with the text that it had
(`importFile_fragments`).
-/

namespace EditorScript

/-! ## What is written between members -/

namespace Adds

variable {kind : ScriptKind} {className : Text} {before after : Option (List Text)}
  {lines inside : List Text} {added : List Member}

theorem blank_cons (h : Adds kind className before after lines added) :
    Adds kind className before after ([] :: lines) added :=
  Adds.blank.append h

/-- A marker at a margin leaves nothing. -/
theorem marker_margin {marker : Text} (h : marker ∈ generatedMarkers) (count : Nat) :
    Adds kind className before before [Text.spaces count ++ marker] [] := by
  have hmarkers : ∀ marker ∈ generatedMarkers,
      codeOf marker = [] ∧ marker.trim = marker ∧ '\r' ∉ marker := by decide +kernel
  obtain ⟨hcode, htrim, hreturn⟩ := hmarkers marker h
  have hspaces := spaces_all_isBlank count
  refine .marker ?_ ?_ (notMem_append (notMem_spaces (by decide) count) hreturn)
  · rw [codeOf_blanks hspaces, hcode]
  · rw [Text.trim_blank_append (List.all_eq_true.mp hspaces), htrim]
    exact h

/-- The drawing method leaves its body. -/
theorem gui (hinside : Nests 0 inside 0) (hreturn : ∀ line ∈ inside, '\r' ∉ line) (count : Nat) :
    Adds .editorWindow className none (some inside) (blockLines count guiHeader inside) [] where
  nests := (endsWithBlock_between (tame_marginLine (by decide))
    (notMem_append (notMem_spaces (by decide) count) (by decide)) hinside count).nests
  return_notMem := by
    have hmargin : ∀ {line : Text}, '\r' ∉ line → '\r' ∉ Text.spaces count ++ line := fun hline =>
      notMem_append (notMem_spaces (by decide) count) hline
    exact List.forall_mem_cons.mpr ⟨hmargin (by decide), List.forall_mem_cons.mpr
      ⟨hmargin (by decide), List.forall_mem_append.mpr
        ⟨hreturn, List.forall_mem_singleton.mpr (hmargin (by decide))⟩⟩⟩
  startsAnew _ := startsAnew_gui count inside _
  read _ _ hbehind := membersOf_gui hinside hbehind

end Adds

/-- The members of a class behind the method that opens the window. -/
theorem ofLines_opener {className menuPath title : Text} {body : Option (List Text)}
    {lines : List Text} {added : List Member} (hname : IsVariableName className)
    (htitle : ';' ∉ title) (count inner : Nat)
    (h : Adds .editorWindow className none body lines added) :
    ClassBody.ofLines .editorWindow className
      (openerLines count inner menuPath className title ++ lines) = ⟨added, body⟩ := by
  have hanew := h.startsAnew startsAnew_nil
  have hread := h.read [] startsAnew_nil
  rw [List.append_nil] at hanew hread
  rw [ClassBody.ofLines, membersOf_opener hname _ _ hanew, if_neg htitle, hread, membersOf,
    attachLines_nil]
  dsimp only
  rw [List.append_nil, List.reverse_reverse]

namespace ClassBody

theorem texts_append (members more : List Member) (body : Option (List Text)) (role : MemberRole) :
    (⟨members ++ more, body⟩ : ClassBody).texts role =
      (⟨members, body⟩ : ClassBody).texts role ++ (⟨more, body⟩ : ClassBody).texts role := by
  unfold texts
  rw [List.filter_append, List.map_append]

/-- Fragments come back in the role that they are read in, and in no other one. -/
theorem texts_ofCode {codes : List Text} (h : ∀ code ∈ codes, IsFragment code) (count : Nat)
    (role other : MemberRole) (body : Option (List Text)) :
    (⟨codes.map (Member.ofCode count role), body⟩ : ClassBody).texts other =
      if role = other then codes else [] := by
  induction codes with
  | nil =>
    split <;> rfl
  | cons code rest ih =>
    rw [List.forall_mem_cons] at h
    have hone : (⟨[Member.ofCode count role code], body⟩ : ClassBody).texts other =
        if role = other then [code] else [] := by
      unfold texts
      by_cases heq : role = other
      · rw [if_pos heq, List.filter_cons_of_pos (by simp [Member.ofCode, heq]), List.filter_nil,
          List.map_singleton, h.1.text_ofCode]
      · rw [if_neg heq, List.filter_cons_of_neg (by simp [Member.ofCode, heq])]
        rfl
    rw [List.map_cons, ← List.singleton_append, texts_append, hone, ih h.2]
    split <;> rfl

end ClassBody

namespace Project

variable {project : Project} {width : Nat}

/-! ## Windows that draw nothing -/

/-- The fragments that a project carries along in a role. -/
def fragments (project : Project) : MemberRole → List Text
  | .field => project.fieldDeclarations
  | .innerType => project.innerTypes
  | .lifecycle => project.lifecycleMethods
  | .custom => project.customMethods

/-- A window that draws nothing, with plain texts, and with fragments that are each what they
are kept as. -/
structure FragmentWindow (project : Project) : Prop extends project.BareWindow where
  elements : project.elements = []
  rawBody : project.rawBody.blank
  menuPath : ∀ c ∈ project.settings.menuPath, isPlainTextChar c
  windowTitle : ∀ c ∈ project.settings.windowTitle, isPlainTextChar c
  fieldDeclarations : ∀ code ∈ project.fieldDeclarations, IsFragment code ∧ IsFieldDeclaration code
  innerTypes : ∀ code ∈ project.innerTypes, IsFragment code ∧ IsInnerType code
  lifecycleMethods : ∀ code ∈ project.lifecycleMethods, IsFragment code ∧
    ∃ name ∈ lifecycleNames, IsMethod name code
  customMethods : ∀ code ∈ project.customMethods, IsFragment code ∧
    ∃ name ∉ lifecycleNames, name ≠ "ShowWindow".toList ∧ IsMethod name code
  outerCode : ∀ code ∈ project.outerCode, IsOuterType code

/-- The members that are read for the fragments at a margin. -/
def fragmentMembers (project : Project) (count : Nat) : List Member :=
  (project.fieldDeclarations.map (Member.ofCode count .field) ++
    project.innerTypes.map (Member.ofCode count .innerType)) ++
  (project.lifecycleMethods.map (Member.ofCode count .lifecycle) ++
    project.customMethods.map (Member.ofCode count .custom))

namespace FragmentWindow

variable (h : project.FragmentWindow)
include h

theorem isMemberText (role : MemberRole) : ∀ code ∈ project.fragments role,
    IsMemberText role code := by
  intro code hcode
  cases role with
  | field => exact (h.fieldDeclarations code hcode).2.isMemberText (h.fieldDeclarations code hcode).1
  | innerType => exact (h.innerTypes code hcode).2.isMemberText (h.innerTypes code hcode).1
  | lifecycle =>
    obtain ⟨hfragment, name, hname, hmethod⟩ := h.lifecycleMethods code hcode
    have hrole := hmethod.isMemberText hfragment (by rintro rfl; exact absurd hname (by decide))
    rwa [if_pos (by simpa using hname)] at hrole
  | custom =>
    obtain ⟨hfragment, name, hname, hopener, hmethod⟩ := h.customMethods code hcode
    have hrole := hmethod.isMemberText hfragment hopener
    rwa [if_neg (by simpa using hname)] at hrole

/-- The fragments of a role come back with the texts that they had. -/
theorem texts_fragmentMembers (count : Nat) (body : Option (List Text)) (role : MemberRole) :
    (⟨project.fragmentMembers count, body⟩ : ClassBody).texts role = project.fragments role := by
  have hread : ∀ other : MemberRole, (⟨(project.fragments other).map (Member.ofCode count other),
      body⟩ : ClassBody).texts role = if other = role then project.fragments other else [] :=
    fun other => ClassBody.texts_ofCode
      (fun code hcode => (h.isMemberText other code hcode).toIsFragment) count other role body
  have hsplit : (⟨project.fragmentMembers count, body⟩ : ClassBody).texts role =
      ((if MemberRole.field = role then project.fragments .field else []) ++
        (if MemberRole.innerType = role then project.fragments .innerType else [])) ++
      ((if MemberRole.lifecycle = role then project.fragments .lifecycle else []) ++
        (if MemberRole.custom = role then project.fragments .custom else [])) := by
    rw [← hread .field, ← hread .innerType, ← hread .lifecycle, ← hread .custom,
      ← ClassBody.texts_append, ← ClassBody.texts_append, ← ClassBody.texts_append]
    rfl
  rw [hsplit]
  cases role <;> simp

/-! ## Reading its members -/

variable {drawn : Option (List Text)}

/-- Behind an empty line each fragment leaves its member. -/
theorem adds_fragments {role : MemberRole} (count : Nat)
    (hdrawn : role = .lifecycle ∨ role = .custom → drawn.isSome) :
    Adds .editorWindow project.settings.className drawn drawn
      ((project.fragments role).flatMap fun code => [] :: (Text.reindent count code).lines)
      ((project.fragments role).map (Member.ofCode count role)) :=
  .flatMap fun code hcode => ((h.isMemberText role code hcode).adds count hdrawn).blank_cons

/-- Fields stand below their marker, and types below theirs. -/
theorem adds_declarationSections (level : Nat) :
    Adds .editorWindow project.settings.className drawn drawn
      ((project.declarationSections width level).flatMap fun text => [] :: text.lines)
      (project.fieldDeclarations.map (Member.ofCode (width * level) .field) ++
        project.innerTypes.map (Member.ofCode (width * level) .innerType)) := by
  have hmarked : ∀ marker ∈ generatedMarkers, (indentation width level ++ marker).lines =
      [Text.spaces (width * level) ++ marker] := by
    intro marker hmarker
    have hline : ∀ marker ∈ generatedMarkers, '\n' ∉ marker := by decide
    exact Text.lines_eq_singleton (notMem_append (notMem_spaces (by decide) _) (hline marker hmarker))
  have hfields : Adds .editorWindow project.settings.className drawn drawn
      ((if project.fieldDeclarations.isEmpty then [] else
        [Text.unlines ((indentation width level ++ declarationsMarker) ::
          project.fieldDeclarations.map (Text.reindent (width * level)))]).flatMap
            fun text => [] :: text.lines)
      (project.fieldDeclarations.map (Member.ofCode (width * level) .field)) := by
    have hadds : Adds .editorWindow project.settings.className drawn drawn
        (project.fieldDeclarations.flatMap fun code => (Text.reindent (width * level) code).lines)
        (project.fieldDeclarations.map (Member.ofCode (width * level) .field)) :=
      .flatMap fun code hcode =>
        (h.isMemberText .field code hcode).adds _ fun hrole => absurd hrole (by decide)
    cases hfields : project.fieldDeclarations with
    | nil => exact .nil
    | cons first others =>
      rw [hfields] at hadds
      rw [if_neg (by simp), List.flatMap_singleton, Text.lines_unlines (List.cons_ne_nil _ _),
        List.flatMap_cons, hmarked _ (by decide), List.flatMap_map]
      exact ((Adds.marker_margin (by decide) _).append hadds).blank_cons
  have hinner : Adds .editorWindow project.settings.className drawn drawn
      ((if project.innerTypes.isEmpty then [] else
        [indentation width level ++ innerTypesMarker ++ "\n" ++
          Text.join "\n\n" (project.innerTypes.map (Text.reindent (width * level)))]).flatMap
            fun text => [] :: text.lines)
      (project.innerTypes.map (Member.ofCode (width * level) .innerType)) := by
    have htypes : ∀ code ∈ project.innerTypes, Adds .editorWindow project.settings.className
        drawn drawn (Text.reindent (width * level) code).lines
          [Member.ofCode (width * level) .innerType code] :=
      fun code hcode =>
        (h.isMemberText .innerType code hcode).adds _ fun hrole => absurd hrole (by decide)
    cases htypesEq : project.innerTypes with
    | nil => exact .nil
    | cons first others =>
      rw [htypesEq, List.forall_mem_cons] at htypes
      have hothers : Adds .editorWindow project.settings.className drawn drawn
          (others.flatMap fun code => [] :: (Text.reindent (width * level) code).lines)
          (others.map (Member.ofCode (width * level) .innerType)) :=
        .flatMap fun code hcode => (htypes.2 code hcode).blank_cons
      have hbreak : ("\n" : Text) = ['\n'] := rfl
      rw [if_neg (by simp), List.flatMap_singleton, hbreak, List.append_assoc,
        List.singleton_append, Text.lines_append_newline,
        hmarked _ (by decide), List.map_cons, Text.lines_join_blank, List.flatMap_map]
      exact ((Adds.marker_margin (by decide) _).append (htypes.1.append hothers)).blank_cons
  rw [declarationSections, List.flatMap_append]
  exact hfields.append hinner

/-- Methods stand behind the drawing method. -/
theorem adds_methodSections (level : Nat) (hdrawn : drawn.isSome) :
    Adds .editorWindow project.settings.className drawn drawn
      ((project.methodSections width level).flatMap fun text => [] :: text.lines)
      (project.lifecycleMethods.map (Member.ofCode (width * level) .lifecycle) ++
        project.customMethods.map (Member.ofCode (width * level) .custom)) := by
  rw [methodSections, List.flatMap_map, List.flatMap_append]
  exact (@adds_fragments _ h drawn .lifecycle _ fun _ => hdrawn).append
    (@adds_fragments _ h drawn .custom _ fun _ => hdrawn)

/-! ## Reading its source -/

theorem guiContent_eq (level : Nat) :
    project.guiContent width level = .ok (indentation width level ++ emptyGuiComment) := by
  have hraw : project.isRaw = false := by rw [isRaw, h.rawBody, h.elements]; rfl
  rw [guiContent, hraw, h.elements]
  rfl

/-- Behind the method that opens the window stand its fragments, and the drawing method with
a comment. -/
theorem adds_membersBehind :
    Adds .editorWindow project.settings.className none
      (some [indentation width (project.level + 2) ++ emptyGuiComment])
      ((project.membersBehind width [blockText width (project.level + 1) guiHeader
        [indentation width (project.level + 2) ++ emptyGuiComment]]).flatMap
          fun text => [] :: text.lines)
      (project.fragmentMembers (width * (project.level + 1))) := by
  have hcomment : Neutral (indentation width (project.level + 2)) := neutral_indentation _ _
  have hlines : (indentation width (project.level + 2) ++ emptyGuiComment).lines =
      [indentation width (project.level + 2) ++ emptyGuiComment] :=
    Text.lines_eq_singleton (notMem_append (notMem_spaces (by decide) _) (by decide))
  have hinside : Nests 0 [indentation width (project.level + 2) ++ emptyGuiComment] 0 :=
    .of_neutral_comment hcomment " Add UI elements from the palette" 0
  have hgui := @Adds.gui project.settings.className _ hinside
    (List.forall_mem_singleton.mpr (notMem_append (notMem_spaces (by decide) _) (by decide)))
      (width * (project.level + 1))
  have hbefore := (@adds_declarationSections _ width h none (project.level + 1)).append
    hgui.blank_cons
  rw [membersBehind, fieldMembers_nil h.elements, List.nil_append, List.flatMap_append,
    List.flatMap_append, List.flatMap_singleton, lines_blockText (by decide),
    List.flatMap_singleton, hlines]
  rw [List.append_nil] at hbefore
  exact hbefore.append (h.adds_methodSections _ rfl)

/-- No carriage return stands below the class of such a window. -/
theorem return_notMem_linesBelow : ∀ line ∈ project.linesBelow, '\r' ∉ line := by
  have houter : '\r' ∉ project.outerText := by
    rw [outerText]
    split
    · exact List.not_mem_nil
    · exact Text.notMem_join (by decide) (List.forall_mem_cons.mpr ⟨by decide,
        fun code hcode => (h.outerCode code hcode).plainBlanks.return_notMem⟩)
  have hbelow : ∀ text ∈ project.belowClass, '\r' ∉ text := by
    refine List.forall_mem_append.mpr ⟨?_, ?_⟩
    · split
      · exact List.forall_mem_nil _
      · exact List.forall_mem_singleton.mpr (by decide)
    · split
      · exact List.forall_mem_nil _
      · exact List.forall_mem_cons.mpr ⟨List.not_mem_nil, List.forall_mem_singleton.mpr houter⟩
  refine List.forall_mem_append.mpr ⟨fun line hline => ?_, List.forall_mem_singleton.mpr
    List.not_mem_nil⟩
  obtain ⟨text, htext, hline⟩ := List.mem_flatMap.mp hline
  exact fun hmem => hbelow text htext (Text.subset_of_mem_lines hline hmem)

/-- The outline of the source of such a window holds its fragments. -/
theorem exists_ofSource_eq {content : Text} (hcontent : project.source width = .ok content) :
    ∃ outline : Outline, Outline.ofSource content = (outline, []) ∧ outline.foundClass ∧
      outline.body = ⟨project.fragmentMembers (width * (project.level + 1)),
        some [indentation width (project.level + 2) ++ emptyGuiComment]⟩ ∧
      outline.kind = .editorWindow ∧ outline.outerCode = project.outerCode := by
  obtain ⟨gui, hgui, hlines⟩ := h.source_lines hcontent
  obtain rfl := Except.ok.inj (hgui.symm.trans (h.guiMethod_eq (h.guiContent_eq _)))
  have hmembers := @adds_membersBehind _ width h
  have hreturn : '\r' ∉ content := by
    rw [← Text.unlines_lines content, hlines]
    exact Text.notMem_join (by decide) (return_notMem_windowLines h.className.2 h.namespaceName
      h.menuPath h.windowTitle hmembers.return_notMem h.return_notMem_linesBelow _ _ _)
  have houtline := ofSource_window h.className h.namespaceName
    ((nests_openerLines h.className.2 _ _).append hmembers.nests) (Text.withoutReturns_eq hreturn)
    (detectKind_window h.kind hcontent) hlines
  refine ⟨_, houtline, rfl, ?_, rfl, Project.splitOuterCode_linesBelow h.outerCode⟩
  exact ofLines_opener h.className (notMem_of_plainText h.windowTitle (by decide)) _ _ hmembers

end FragmentWindow

end Project

namespace Imported

variable {stamp : Stamp} {gate : Gate} {imported : Imported} {body path : Text}
  {outline : Outline} {warnings : List Text}

theorem fragments_ofOutline (h : outline.foundClass) (role : MemberRole) :
    (ofOutline stamp path outline warnings).project.fragments role = outline.body.texts role := by
  rw [ofOutline, if_pos h]
  cases role <;> rfl

theorem outerCode_ofOutline (h : outline.foundClass) :
    (ofOutline stamp path outline warnings).project.outerCode = outline.outerCode := by
  rw [ofOutline, if_pos h]

/-- A body without elements is kept if it holds anything, and changes nothing else. -/
theorem withRecovered_nil {recovered : Recovered} (h : recovered.elements = []) :
    (imported.withRecovered stamp gate body recovered).project =
      { imported.project with
        elements := []
        rawBody := if imported.project.kind.hasContent body.dedent then body.dedent else [] } := by
  rw [withRecovered]
  dsimp only
  rw [h, List.isEmpty_nil, if_pos rfl]

end Imported

namespace Project

variable {project : Project}

/-- The comment in a drawing method stands for no body. -/
theorem hasContent_emptyGuiComment (kind : ScriptKind) (count : Nat) :
    kind.hasContent (Text.dedent (Text.spaces count ++ emptyGuiComment)) = false := by
  have hdedent : emptyGuiComment.dedent = emptyGuiComment := by decide +kernel
  have hline : emptyGuiComment.lines = [emptyGuiComment] := by decide +kernel
  have hreindent : Text.reindent count emptyGuiComment = Text.spaces count ++ emptyGuiComment := by
    rw [Text.reindent, hdedent, hline, List.map_singleton, Text.unlines_singleton, Text.indentLine,
      if_neg (by decide)]
  rw [← hreindent, Text.dedent_reindent (by decide +kernel), hdedent, ScriptKind.hasContent, hline]
  have htrim : emptyGuiComment.trim = emptyGuiComment := by decide +kernel
  simp [htrim]

/-- Nothing is recovered from it. -/
theorem recover_emptyGuiComment (count : Nat) :
    (recover (Text.spaces count ++ emptyGuiComment)).elements = [] := by
  have hlines : (Text.spaces count ++ emptyGuiComment).lines =
      [Text.spaces count ++ emptyGuiComment] :=
    Text.lines_eq_singleton (notMem_append (notMem_spaces (by decide) count) (by decide))
  have hcode : codeOf (Text.spaces count ++ emptyGuiComment) = [] := by
    rw [codeOf_blanks (spaces_all_isBlank count)]
    decide +kernel
  have hstep : Step.next (Text.spaces count ++ emptyGuiComment) [] = .skip [] := by
    rw [Step.next, hcode]
    rfl
  rw [recover, hlines, recoverLines_of_skip hstep, recoverLines_nil]

/-- What a window that draws nothing carries along is read back from its source: inside the
class fields, types and methods, and below it further types, each in their order and with the
texts that they had. -/
theorem importFile_fragments (h : project.FragmentWindow) (width : Nat) (stamp : Stamp)
    (gate : Gate) (file : Text) :
    ∃ content, project.source width = .ok content ∧
      let read := (importFile stamp gate ⟨file, content⟩).project
      read.fieldDeclarations = project.fieldDeclarations ∧ read.innerTypes = project.innerTypes ∧
        read.lifecycleMethods = project.lifecycleMethods ∧
        read.customMethods = project.customMethods ∧ read.outerCode = project.outerCode ∧
        read.elements = [] ∧ read.rawBody = [] := by
  obtain ⟨content, hcontent⟩ := h.exists_source (@FragmentWindow.guiContent_eq _ width h _)
  obtain ⟨outline, houtline, hfound, hbody, hkind, houter⟩ := h.exists_ofSource_eq hcontent
  have htexts := fun role => h.texts_fragmentMembers (width * (project.level + 1))
    (some [indentation width (project.level + 2) ++ emptyGuiComment]) role
  have hread : (importFile stamp gate ⟨file, content⟩).project =
      { (Imported.ofOutline stamp file outline []).project with elements := [], rawBody := [] } := by
    rw [importFile, houtline]
    dsimp only
    rw [hbody]
    dsimp only
    rw [Text.unlines_singleton, Imported.withBody, indentation,
      Imported.withRecovered_nil (recover_emptyGuiComment _), hasContent_emptyGuiComment,
      if_neg (by decide)]
  have hkept := fun role => (@Imported.fragments_ofOutline stamp file outline [] hfound role).trans
    ((congrArg (·.texts role) hbody).trans (htexts role))
  refine ⟨content, hcontent, ?_⟩
  rw [hread]
  exact ⟨hkept .field, hkept .innerType, hkept .lifecycle, hkept .custom,
    (Imported.outerCode_ofOutline hfound).trans houter, rfl, rfl⟩

/-- A window that carries fragments of every role along, and two types outside its class. -/
def carryingWindow : Project where
  name := "Map"
  settings :=
    { className := "MapTool", menuPath := "Tools/Map", windowTitle := "Map tool",
      namespaceName := "Maps" }
  fieldDeclarations := ["private Tile first = new Tile \x7b \x7d;"]
  innerTypes := ["enum Mode\n\x7b\n    Draw // \x7d\n\x7d"]
  lifecycleMethods := ["void OnEnable()\n\x7b\n    Load(\"\x7d\");\n\x7d"]
  customMethods := ["int Count() => 3;"]
  outerCode := ["[Serializable]\nclass Tile\n\x7b\n\x7d", "enum Layer \x7b Sky \x7d"]

theorem fragmentWindow_carryingWindow : carryingWindow.FragmentWindow where
  kind := rfl
  className := by decide
  namespaceName := List.all_eq_true.mp rfl
  usings := .inl rfl
  interfaces := rfl
  classAttributes := rfl
  elements := rfl
  rawBody := rfl
  menuPath := List.all_eq_true.mp rfl
  windowTitle := List.all_eq_true.mp rfl
  fieldDeclarations := List.forall_mem_singleton.mpr ⟨⟨by decide +kernel, by decide +kernel⟩,
    @IsFieldDeclaration.assigned ["private", "Tile"] "first" "new Tile \x7b \x7d" (by decide)
      (by decide) (by decide) (by decide) (by decide)⟩
  innerTypes := List.forall_mem_singleton.mpr ⟨⟨by decide +kernel, by decide +kernel⟩,
    by decide +kernel, @endsWithBlock_between "enum Mode" (by decide) (by decide)
      ["    Draw // \x7d"] (by decide +kernel) 0⟩
  lifecycleMethods := List.forall_mem_singleton.mpr ⟨⟨by decide +kernel, by decide +kernel⟩,
    "OnEnable", by decide, ⟨["void"], ")", by decide, by decide +kernel⟩, by decide, by decide,
    .inl (@endsWithBlock_between "void OnEnable()" (by decide) (by decide)
      ["    Load(\"\x7d\");"] (by decide +kernel) 0)⟩
  customMethods := List.forall_mem_singleton.mpr ⟨⟨by decide +kernel, by decide +kernel⟩,
    "Count", by decide, by decide, ⟨["int"], ") => 3;", by decide, by decide +kernel⟩,
    by decide, by decide, .inr ⟨by decide +kernel,
      ⟨"intCount()=>3", by decide +kernel, by decide, .inl rfl⟩,
      [], "int Count() => 3;", by decide +kernel, by decide +kernel⟩⟩
  outerCode := List.forall_mem_cons.mpr
    ⟨⟨⟨by decide +kernel, by decide +kernel⟩, by decide +kernel,
      ⟨["[Serializable]"], "class Tile", ["\x7b", "\x7d"], 0, by decide +kernel,
        by decide +kernel, by decide +kernel, by decide +kernel, by decide, by decide +kernel,
        by decide +kernel⟩, by decide +kernel⟩,
    List.forall_mem_singleton.mpr ⟨⟨by decide +kernel, by decide +kernel⟩, by decide +kernel,
      ⟨[], "enum Layer \x7b Sky \x7d", [], 0, by decide +kernel, rfl, rfl, by decide +kernel,
        by decide, by decide +kernel, rfl⟩, by decide +kernel⟩⟩

theorem importFile_fragments_carryingWindow : ∃ content, carryingWindow.source 4 = .ok content ∧
    let read := (importFile ⟨[], []⟩ {} ⟨"MapTool.cs", content⟩).project
    read.fieldDeclarations = carryingWindow.fieldDeclarations ∧
      read.innerTypes = carryingWindow.innerTypes ∧
      read.lifecycleMethods = carryingWindow.lifecycleMethods ∧
      read.customMethods = carryingWindow.customMethods ∧
      read.outerCode = carryingWindow.outerCode ∧ read.elements = [] ∧ read.rawBody = [] :=
  importFile_fragments fragmentWindow_carryingWindow 4 ⟨[], []⟩ {} "MapTool.cs"

end Project

end EditorScript
