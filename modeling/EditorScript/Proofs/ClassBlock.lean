import EditorScript.Proofs.BlockBetween
import EditorScript.Proofs.ClosedSource
import EditorScript.Proofs.Writable

/-!
# The block of the class

The lines of a source are those above the class, its header, the lines of its
members between two braces, and those below.  The lines above open the namespace
and the lines below close it, so the source as a whole is closed, and the first
block behind the header is exactly the one that holds the members.
-/

namespace EditorScript

namespace Project

variable {project : Project} {width : Nat}

/-- The lines above the class open the namespace, if there is one. -/
theorem nests_aboveClass (h : project.Confined) :
    Nests 0 ((project.aboveClass width).flatMap Text.lines) project.level := by
  have husings : Nests 0
      ((mergeUsings project project.kind.usualUsings ++ [[]]).flatMap Text.lines) 0 :=
    .flatMap (List.forall_mem_append.mpr ⟨lexicallyClosed_mergeUsings h,
      List.forall_mem_singleton.mpr lexicallyClosed_nil⟩)
  have hnamespace : Nests 0
      ((if project.settings.namespaceName.isEmpty then []
        else [("namespace " : Text) ++ project.settings.namespaceName, ['\x7b']]).flatMap Text.lines)
      project.level := by
    unfold level
    split
    · exact .nil 0
    · have hline : Neutral ("namespace " ++ project.settings.namespaceName) :=
        (neutral_literal (by decide)).append (neutral_of_isDottedName h.namespaceName)
      simp only [List.flatMap_cons, List.flatMap_nil, List.append_nil]
      exact (nests_line hline 0).append (nests_opening width 0 0)
  have htypes : ∀ text ∈ (if (project.leadingTypes width project.level).isEmpty then []
      else project.leadingTypes width project.level ++ [[]]), LexicallyClosed text :=
    forall_mem_unless (List.forall_mem_append.mpr ⟨lexicallyClosed_leadingTypes h,
      List.forall_mem_singleton.mpr lexicallyClosed_nil⟩)
  have hattributes : ∀ text ∈ (project.settings.kindAttributes project.kind ++
      project.settings.classAttributes).map (indentation width project.level ++ ·),
      LexicallyClosed text := by
    intro text htext
    obtain ⟨line, hline, rfl⟩ := List.mem_map.mp htext
    rcases List.mem_append.mp hline with hline | hline
    · exact nests_statement (neutral_kindAttributes h line hline) width _ 0
    · exact lexicallyClosed_simpleCode (neutral_indentation _ _) (h.classAttributes line hline)
  unfold aboveClass
  dsimp only
  rw [List.flatMap_append, List.flatMap_append, List.flatMap_append]
  exact ((husings.append hnamespace).append (.flatMap fun text htext =>
    (htypes text htext).of_zero _)).append (.flatMap fun text htext =>
      (hattributes text htext).of_zero _)

/-- The lines below the class close the namespace, if there is one. -/
theorem nests_belowClass (h : project.Confined) :
    Nests project.level (project.belowClass.flatMap Text.lines) 0 := by
  have houter : LexicallyClosed project.outerText := by
    unfold outerText
    split
    · exact lexicallyClosed_nil
    · exact lexicallyClosed_unlines (List.forall_mem_cons.mpr
        ⟨nests_comment 0 0 " === Preserved outer code ===".toList (by decide) 0,
          fun code hcode => (h.outerCode code hcode).closed⟩)
  have hlines : ∀ text ∈ (if project.outerText.isEmpty then [] else [[], project.outerText]),
      LexicallyClosed text :=
    forall_mem_unless (List.forall_mem_cons.mpr ⟨lexicallyClosed_nil,
      List.forall_mem_singleton.mpr houter⟩)
  unfold belowClass level
  rw [List.flatMap_append]
  refine Nests.append ?_ (.flatMap hlines)
  split
  · exact .nil 0
  · simpa [indentation, Text.spaces] using nests_closing 0 0 0

/-- The header of the class is code without braces. -/
theorem tame_classHeader (h : project.Confined) :
    (project.settings.classHeader project.kind).all isTame := by
  have hnames : ∀ name ∈ project.kind.baseClass :: project.settings.interfaces,
      isDottedName name :=
    List.forall_mem_cons.mpr ⟨by cases project.kind <;> decide, h.interfaces⟩
  have hjoin : ∀ {names : List Text}, (∀ name ∈ names, isDottedName name) →
      (Text.join ", " names).all isTame := by
    intro names hdotted
    induction names with
    | nil => rfl
    | cons name rest ih =>
      rw [List.forall_mem_cons] at hdotted
      cases rest with
      | nil => simpa using tame_of_isDottedName hdotted.1
      | cons next others =>
        rw [Text.join_cons_cons, List.all_append, List.all_append,
          tame_of_isDottedName hdotted.1, ih hdotted.2]
        decide
  have hfront : List.all "public class " isTame := by decide
  have hcolon : List.all " : " isTame := by decide
  have hall : ∀ {first second third last : Text}, first.all isTame → second.all isTame →
      third.all isTame → last.all isTame → (first ++ second ++ third ++ last).all isTame := by
    intro first second third last h1 h2 h3 h4
    simp only [List.all_append, h1, h2, h3, h4, Bool.and_self]
  exact hall hfront (tame_of_isDottedName h.className) hcolon (hjoin hnames)

/-! ## The whole source -/

/-- The lines of a source, those of the drawing method being given. -/
def sourceLines (project : Project) (width : Nat) (gui : List Text) : List Text :=
  let margin := indentation width project.level
  (project.aboveClass width).flatMap Text.lines ++
    (margin ++ project.settings.classHeader project.kind) :: (margin ++ ['\x7b']) ::
      ((project.insideClass width gui).flatMap Text.lines ++
        (margin ++ ['\x7d']) :: (project.belowClass.flatMap Text.lines ++ [[]]))

/-- The block of the class in a source. -/
def classBlock (project : Project) (width : Nat) (gui : List Text) : Block :=
  let headerLine := ((project.aboveClass width).flatMap Text.lines).length
  let margin := width * project.level
  ⟨headerLine, headerLine + 1, margin,
    headerLine + 2 + ((project.insideClass width gui).flatMap Text.lines).length, margin⟩

theorem tame_headerLine (h : project.Confined) :
    (indentation width project.level ++ project.settings.classHeader project.kind).all isTame := by
  have hmargin : (indentation width project.level).all isTame := by
    refine List.all_eq_true.mpr fun c hc => ?_
    rw [(List.mem_replicate.mp hc).2]
    decide
  rw [List.all_append, hmargin, tame_classHeader h]
  rfl

theorem lines_brace (width level : Nat) {brace : Char} (h : brace ≠ '\n') :
    (indentation width level ++ [brace]).lines = [indentation width level ++ [brace]] := by
  have hmargin := (neutral_indentation width level [] calm_nil).oneLine
  exact Text.lines_eq_singleton (by simp [hmargin, h.symm])

/-- Sources are written line by line. -/
theorem lines_of_source (h : '\n' ∉ project.settings.classHeader project.kind) {text : Text}
    (htext : project.source width = .ok text) :
    ∃ gui, project.guiMethod width (project.level + 1) = .ok gui ∧
      text.lines = project.sourceLines width gui := by
  unfold source at htext
  cases hgui : project.guiMethod width (project.level + 1) with
  | error reason => simp [hgui, bind, Except.bind] at htext
  | ok gui =>
    simp only [hgui, bind, Except.bind, pure, Except.pure] at htext
    obtain rfl := Except.ok.inj htext
    refine ⟨gui, rfl, ?_⟩
    have hheader : (indentation width project.level ++
        project.settings.classHeader project.kind).lines =
          [indentation width project.level ++ project.settings.classHeader project.kind] := by
      have hmargin := (neutral_indentation width project.level [] calm_nil).oneLine
      exact Text.lines_eq_singleton (by simp [hmargin, h])
    have hopening := lines_brace width project.level (show '\x7b' ≠ '\n' by decide)
    have hclosing := lines_brace width project.level (show '\x7d' ≠ '\n' by decide)
    have hbreak : ("\n" : Text) = '\n' :: [] := rfl
    have hbrace : ("\x7b" : Text) = ['\x7b'] := rfl
    rw [hbreak, Text.lines_append_newline, Text.lines_unlines (by simp), hbrace]
    simp only [List.flatMap_append, List.flatMap_cons, List.flatMap_nil, List.append_nil]
    rw [hheader, hopening, hclosing]
    simp [sourceLines]

/-- No text of a project breaks the braces of its source: the source is closed,
and the block behind the header of the class is the one that holds its members,
from the brace below the header to the last one of the class. -/
theorem source_closed (h : project.Confined) {text : Text}
    (htext : project.source width = .ok text) :
    LexicallyClosed text ∧
      ∃ gui, project.guiMethod width (project.level + 1) = .ok gui ∧
        text.lines = project.sourceLines width gui ∧
        findBlock? text.lines ((project.aboveClass width).flatMap Text.lines).length =
          some (project.classBlock width gui) ∧
        (project.classBlock width gui).bodyLines text.lines =
          (project.insideClass width gui).flatMap Text.lines := by
  have hheader := ((neutral_of_tame (tame_classHeader h)) [] calm_nil).oneLine
  obtain ⟨gui, hgui, hlines⟩ := lines_of_source hheader htext
  have hinside : Nests 0 ((project.insideClass width gui).flatMap Text.lines) 0 :=
    .flatMap (lexicallyClosed_insideClass h hgui)
  refine ⟨?_, gui, hgui, hlines, ?_, ?_⟩
  · have hheader : Nests project.level
        [indentation width project.level ++ project.settings.classHeader project.kind]
        project.level := .of_neutral (neutral_of_tame (tame_headerLine h)) _
    have hopening := nests_opening width project.level project.level
    have hclosing := nests_closing width project.level project.level
    rw [lines_brace _ _ (by decide)] at hopening hclosing
    rw [LexicallyClosed, hlines]
    refine (nests_aboveClass h).append (.cons hheader (.cons hopening ?_))
    have hbelow := (nests_belowClass h).append (.blank 0)
    simpa using (hinside.of_zero (project.level + 1)).append (.cons hclosing hbelow)
  · rw [hlines]
    exact findBlock?_between (blockHeader_of_tame (tame_headerLine h)) hinside _ _ _
  · rw [hlines]
    exact bodyLines_between _ _ _ _ _

/-- A window whose texts are full of quotes, braces and comment openers. -/
def tangled : Project where
  name := "Tangled"
  settings := { menuPath := "Tools/\"Quoted\" \x7b", windowTitle := "// \\ /* \x7d @" }
  elements := [
    .group { widget := .disabledGroup, label := "\x7d", disableCondition := some "!ready" } [
      .leaf { widget := .button, label := "say \"\x7d\" @", action := some .customCode,
              actionParam := some "if (ready)\n\x7b\n    Run(\"\x7d\"); // \x7b\n\x7d" }],
    .leaf { widget := .textField, label := "*/ \x7b", variableName := "title",
            defaultValue := some "\x7d\\" }]
  rawBody := "// unused"

theorem confined_tangled : tangled.Confined where
  className := by decide
  namespaceName := by decide
  targetType := by decide
  targetAttribute := by decide
  requireComponents := by decide
  interfaces := by decide
  classAttributes := by decide
  usings := by decide
  elements := by
    refine Forest.everywhere_group_cons.mpr ⟨?_, Forest.everywhere_leaf_cons.mpr
      ⟨?_, Forest.everywhere_nil⟩, Forest.everywhere_leaf_cons.mpr ⟨?_, Forest.everywhere_nil⟩⟩
    all_goals decide
  fieldDeclarations := by decide
  innerTypes := by decide
  lifecycleMethods := by decide
  customMethods := by decide
  outerCode := by decide
  rawBody := by decide

theorem source_closed_tangled : ∃ text gui, tangled.source 4 = .ok text ∧
    LexicallyClosed text ∧ tangled.guiMethod 4 1 = .ok gui ∧
    findBlock? text.lines ((tangled.aboveClass 4).flatMap Text.lines).length =
      some (tangled.classBlock 4 gui) := by
  have hwritable : Forest.Writable tangled.elements := by
    refine Forest.everywhere_group_cons.mpr ⟨?_, Forest.everywhere_leaf_cons.mpr
      ⟨?_, Forest.everywhere_nil⟩, Forest.everywhere_leaf_cons.mpr ⟨?_, Forest.everywhere_nil⟩⟩
    all_goals decide
  obtain ⟨text, htext⟩ := source_ok hwritable 4
  obtain ⟨hclosed, gui, hgui, -, hblock, -⟩ := source_closed confined_tangled htext
  exact ⟨text, gui, htext, hclosed, hgui, hblock⟩

end Project

end EditorScript
