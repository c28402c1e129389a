import EditorScript.Proofs.LineStarts
import EditorScript.Proofs.StoppedSearch
import EditorScript.Proofs.WindowOutline
import Mathlib.Data.List.Find

/-!
# Sources below a block comment

Signs of a kind are searched for in the whole text, and imports and headers on each line
by itself, so the lines of a block comment count like all others.  A comment above a
source changes nothing exactly as far as none of this is found in it: then the same
class is read with the same members (`Outline.ofSource_blockComment`).
-/

namespace EditorScript

open Pattern

/-- A text as a block comment between two lines of its own. -/
def blockComment (text : Text) : Text :=
  "/*\n" ++ text ++ "\n*/\n"

namespace Pattern

/-- A pattern that neither begins with what closes a comment nor reads over it. -/
structure StaysInComment (pattern : Pattern) : Prop where
  stops : pattern.StopsAt '*'
  begins : ∃ first ∉ "*/\n".toList, pattern.BeginsWith first

/-- Below a comment in which a pattern does not occur, it occurs as without the comment. -/
theorem StaysInComment.occurs_blockComment {pattern : Pattern} (hpattern : pattern.StaysInComment) {text : Text}
    (h : pattern.occurs (blockComment text) = false) (content : Text) :
    pattern.occurs (blockComment text ++ content) = pattern.occurs content := by
  obtain ⟨first, hfirst, hbegins⟩ := hpattern.begins
  have hshape : ∀ content, blockComment text ++ content =
      ("/*\n" ++ text ++ "\n") ++ '*' :: ("/\n" ++ content) := by
    intro content
    simp [blockComment]
  have hnone : pattern.searchFrom none (("/*\n" ++ text ++ "\n") ++ '*' :: "/\n") = none := by
    have hcomment := hshape []
    rw [List.append_nil, List.append_nil] at hcomment
    rw [← hcomment]
    simpa [occurs, search?] using h
  have hbody : Passes pattern none ("/*\n" ++ text ++ "\n") ('*' :: ("/\n" ++ content)) :=
    .of_stopsAt hpattern.stops (passes_of_searchFrom hnone)
  have hclosing : ∀ before, Passes pattern before "*/\n" content :=
    passes_of_notMem (fun c rest before hc => run_of_beginsWith hbegins hc before []) hfirst
  have hall : Passes pattern none (blockComment text) content := by
    have hparts : blockComment text = ("/*\n" ++ text ++ "\n") ++ "*/\n" := by
      simp [blockComment]
    rw [hparts]
    exact hbody.append (hclosing _)
  rw [occurs, search?, searchFrom_append hall, searchFrom_before_of_beginsWith hbegins _ none,
    occurs, search?]
  simp

end Pattern

/-! ## The signs of a kind -/

theorem stopsAt_engineNamespace : engineNamespace.StopsAt '*' := by
  refine ⟨⟨⟨stopsAt_text (by decide), ?_⟩, stopsAt_text (by decide)⟩, trivial⟩
  exact ⟨stopsAt_text (by decide), stopsAt_text (by decide)⟩

theorem staysInComment_derivesFrom {type : String} (h : '*' ∉ type.toList) :
    (derivesFrom engineNamespace type).StaysInComment where
  stops := ⟨⟨⟨⟨stopsAt_text (by decide), stopsAt_blanks (by decide)⟩, stopsAt_engineNamespace⟩,
    stopsAt_text h⟩, stopsAt_boundary⟩
  begins := ⟨':', by decide, fun _ => eq_of_beq⟩

theorem stopsAt_attributeOf {name : String} (h : '*' ∉ name.toList) :
    (attributeOf engineNamespace name).StopsAt '*' :=
  ⟨⟨⟨stopsAt_text (by decide), stopsAt_blanks (by decide)⟩, stopsAt_engineNamespace⟩, stopsAt_text h⟩

/-- No sign of a kind begins with what closes a comment or reads over it. -/
theorem staysInComment_of_mem : ∀ entry ∈ kindSigns, ∀ sign ∈ entry.2, sign.StaysInComment := by
  have hattribute : ∀ {name last : String}, '*' ∉ name.toList → '*' ∉ last.toList →
      (attributeOf engineNamespace name ++ blanks ++ (last : Pattern)).StaysInComment :=
    fun hname hlast => ⟨⟨⟨stopsAt_attributeOf hname, stopsAt_blanks (by decide)⟩, stopsAt_text hlast⟩,
      '[', by decide, fun _ => eq_of_beq⟩
  simp only [kindSigns, List.forall_mem_cons, List.not_mem_nil, false_imp_iff, implies_true, and_true]
  exact ⟨staysInComment_derivesFrom (by decide),
    ⟨hattribute (by decide) (by decide), staysInComment_derivesFrom (by decide)⟩,
    staysInComment_derivesFrom (by decide), staysInComment_derivesFrom (by decide),
    ⟨hattribute (by decide) (by decide), staysInComment_derivesFrom (by decide)⟩,
    staysInComment_derivesFrom (by decide)⟩

/-! ## Lines below others -/

/-- A code character that stands by a count of lines further down. -/
def CodeChar.below (count : Nat) (c : CodeChar) : CodeChar :=
  { c with line := count + c.line }

/-- A block that stands by a count of lines further down. -/
def Block.below (count : Nat) (block : Block) : Block :=
  { block with
    startLine := count + block.startLine
    openLine := count + block.openLine
    endLine := count + block.endLine }

theorem codeCharsFrom_add (mode : Mode) (count number : Nat) (lines : List Text) :
    codeCharsFrom mode (count + number) lines =
      (codeCharsFrom mode number lines).map (·.below count) := by
  induction lines generalizing mode number with
  | nil => rfl
  | cons line rest ih =>
    rw [codeCharsFrom, codeCharsFrom, List.map_append, List.map_map, Nat.add_assoc, ih]
    rfl

theorem closingBrace?_below (count depth : Nat) (chars : List CodeChar) :
    closingBrace? depth (chars.map (·.below count)) =
      (closingBrace? depth chars).map (·.below count) := by
  fun_induction closingBrace? depth chars <;> simp_all [closingBrace?, CodeChar.below]

/-- Below other lines a block is found further down. -/
theorem findBlock?_append (above lines : List Text) (start : Nat) :
    findBlock? (above ++ lines) (above.length + start) =
      (findBlock? lines start).map (·.below above.length) := by
  have hchars : codeChars (above ++ lines) (above.length + start) =
      (codeChars lines start).map (·.below above.length) := by
    rw [codeChars, List.drop_length_add_append, codeCharsFrom_add, codeChars]
  have hdrop := @List.dropWhile_map _ _ (CodeChar.below above.length) (·.char != '\x7b')
    (codeChars lines start)
  have htest : ((fun c : CodeChar => c.char != '\x7b') ∘ CodeChar.below above.length) =
      (·.char != '\x7b') := rfl
  rw [htest] at hdrop
  rw [findBlock?, hchars, hdrop, findBlock?]
  cases (codeChars lines start).dropWhile (·.char != '\x7b') with
  | nil => rfl
  | cons opening rest =>
    rw [List.map_cons]
    dsimp only
    rw [closingBrace?_below, Option.map_map, Option.map_map]
    rfl

theorem slice_append (above lines : List Text) (start stop : Nat) :
    slice (above ++ lines) (above.length + start) (above.length + stop) =
      slice lines start stop := by
  rw [slice, List.take_length_add_append, List.drop_length_add_append, slice]

/-- A header that stands by a count of lines further down. -/
def ClassHeader.below (count : Nat) (header : ClassHeader) : ClassHeader :=
  { header with line := count + header.line }

theorem classHeadersFrom_add (count number : Nat) (lines : List Text) :
    classHeadersFrom (count + number) lines =
      (classHeadersFrom number lines).map (·.below count) := by
  induction lines generalizing number with
  | nil => rfl
  | cons line rest ih =>
    have hhere : (ClassHeader.ofCode? (count + number) (codeOf line)).toList =
        (ClassHeader.ofCode? number (codeOf line)).toList.map (·.below count) := by
      unfold ClassHeader.ofCode?
      cases classHeader.match? (codeOf line) <;> rfl
    rw [classHeadersFrom, classHeadersFrom, List.map_append, Nat.add_assoc, ih, hhere]

theorem mainHeader?_below (kind : ScriptKind) (count : Nat) (headers : List ClassHeader) :
    mainHeader? kind (headers.map (·.below count)) =
      (mainHeader? kind headers).map (·.below count) := by
  rw [mainHeader?, mainHeader?, List.find?_map, List.head?_map, Option.map_or]
  rfl

/-! ## The outline below a comment -/

/-- A text in which the lines hold no import and no header of a class, and which holds no
sign of a kind. -/
structure Unremarkable (content : Text) : Prop where
  noImport : ∀ line ∈ content.lines, importLine.accepts (codeOf line) = false
  noHeader : ∀ line ∈ (Text.withoutReturns content).lines,
    classHeader.match? (codeOf line) = none
  noSign : ∀ entry ∈ kindSigns, ∀ sign ∈ entry.2, sign.occurs content = false

namespace Unremarkable

variable {text : Text} (h : Unremarkable (blockComment text)) (content : Text)
include h

theorem detectKind_append : detectKind (blockComment text ++ content) = detectKind content := by
  have hfind : (kindSigns.find? fun entry => entry.2.any (·.occurs (blockComment text ++ content))) =
      kindSigns.find? fun entry => entry.2.any (·.occurs content) := by
    refine List.find?_congr fun entry hentry => ?_
    have hmap : entry.2.map (·.occurs (blockComment text ++ content)) =
        entry.2.map (·.occurs content) := List.map_congr_left fun sign hsign =>
      (staysInComment_of_mem entry hentry sign hsign).occurs_blockComment
        (h.noSign entry hentry sign hsign) content
    have hany := congrArg (List.any · id) hmap
    simpa [List.any_map] using hany
  rw [detectKind, hfind, detectKind]

theorem importsOf_append : importsOf (blockComment text ++ content) = importsOf content := by
  have hshape : ∀ content, blockComment text ++ content =
      ("/*\n" ++ text ++ "\n*/") ++ '\n' :: content := by
    intro content
    simp [blockComment]
  have hlines : (blockComment text).lines = Text.lines ("/*\n" ++ text ++ "\n*/") ++ [[]] := by
    have hcomment := hshape []
    rw [List.append_nil] at hcomment
    rw [hcomment, Text.lines_append_newline]
    rfl
  have hnone : ∀ line ∈ Text.lines ("/*\n" ++ text ++ "\n*/"),
      importLine.accepts (codeOf line) = false := fun line hline =>
    h.noImport line (hlines ▸ List.mem_append_left _ hline)
  rw [importsOf, hshape, Text.lines_append_newline, List.map_append, List.foldl_append]
  exact congrArg (fun imports => (content.lines.map codeOf).foldl addImport imports)
    (foldl_addImport hnone [])

/-- The lines of a comment stand above those of the source and hold no header. -/
theorem exists_lines_append : ∃ above,
    (Text.withoutReturns (blockComment text ++ content)).lines =
      above ++ (Text.withoutReturns content).lines ∧
    ∀ line ∈ above, classHeader.match? (codeOf line) = none := by
  have hshape : ∀ content, blockComment text ++ content =
      ("/*\n" ++ text ++ "\n*/") ++ '\n' :: content := by
    intro content
    simp [blockComment]
  obtain ⟨kept, hkept⟩ := Text.exists_withoutReturns ("/*\n" ++ text ++ "\n*/")
  have hlines : (Text.withoutReturns (blockComment text)).lines = kept.lines ++ [[]] := by
    have hcomment := hshape []
    rw [List.append_nil] at hcomment
    rw [hcomment, hkept, Text.lines_append_newline]
    rfl
  refine ⟨kept.lines, ?_, fun line hline => h.noHeader line (hlines ▸ List.mem_append_left _ hline)⟩
  rw [hshape, hkept, Text.lines_append_newline]

end Unremarkable

/-- Below lines without a header the class is the same, and so are its members. -/
theorem Outline.ofSource_below {content source : Text} {above : List Text}
    (hlines : (Text.withoutReturns source).lines = above ++ (Text.withoutReturns content).lines)
    (hheader : ∀ line ∈ above, classHeader.match? (codeOf line) = none)
    (hkind : detectKind source = detectKind content)
    (husings : importsOf source = importsOf content) :
    ∃ settings outerCode,
      settings.className = (Outline.ofSource content).1.settings.className ∧
      Outline.ofSource source =
        ({ (Outline.ofSource content).1 with settings, outerCode },
          (Outline.ofSource content).2) := by
  have hmain : mainHeader? (detectKind content) (classHeadersFrom 0 (Text.withoutReturns source).lines) =
      (mainHeader? (detectKind content) (classHeadersFrom 0 (Text.withoutReturns content).lines)).map
        (·.below above.length) := by
    rw [hlines, classHeadersFrom_append, classHeadersFrom_eq_nil hheader, List.nil_append,
      Nat.add_comm, classHeadersFrom_add, mainHeader?_below]
  rw [Outline.ofSource, Outline.ofSource]
  dsimp only
  rw [hkind, husings, hmain]
  cases mainHeader? (detectKind content) (classHeadersFrom 0 (Text.withoutReturns content).lines) with
  | none => exact ⟨_, _, rfl, rfl⟩
  | some header =>
    rw [Option.map_some]
    dsimp only
    rw [ClassHeader.below]
    dsimp only
    rw [hlines, findBlock?_append]
    cases findBlock? (Text.withoutReturns content).lines header.line with
    | none =>
      rw [Option.map_none]
      refine ⟨_, _, ?_, rfl⟩
      rfl
    | some block =>
      rw [Option.map_some]
      dsimp only
      rw [Block.below]
      dsimp only
      rw [Nat.add_assoc above.length block.openLine 1, slice_append]
      refine ⟨_, _, ?_, rfl⟩
      rfl

/-- Above a source, a block comment without imports, headers and signs of a kind is
ignored: kind, imports, class and members are read as without it. -/
theorem Outline.ofSource_blockComment {text : Text} (h : Unremarkable (blockComment text))
    (content : Text) :
    ∃ settings outerCode,
      settings.className = (Outline.ofSource content).1.settings.className ∧
      Outline.ofSource (blockComment text ++ content) =
        ({ (Outline.ofSource content).1 with settings, outerCode },
          (Outline.ofSource content).2) := by
  obtain ⟨above, hlines, hheader⟩ := h.exists_lines_append content
  exact ofSource_below hlines hheader (h.detectKind_append content) (h.importsOf_append content)

/-- A component of a scene. -/
def componentSource : Text :=
  "public class Foo : MonoBehaviour\n\x7b\n    public int speed;\n\x7d\n"

theorem unremarkable_remark : Unremarkable (blockComment "The class Bar was a window.") where
  noImport := by decide +kernel
  noHeader := by decide +kernel
  noSign := by decide +kernel

theorem Outline.ofSource_blockComment_remark :
    Unremarkable (blockComment "The class Bar was a window.") ∧
      ∃ settings outerCode, settings.className = ("Foo" : Text) ∧
        Outline.ofSource (blockComment "The class Bar was a window." ++ componentSource) =
          ({ (Outline.ofSource componentSource).1 with settings, outerCode }, []) := by
  obtain ⟨settings, outerCode, hname, hsource⟩ :=
    Outline.ofSource_blockComment unremarkable_remark componentSource
  have hfoo : (Outline.ofSource componentSource).1.settings.className = "Foo" := by decide +kernel
  have hwarnings : (Outline.ofSource componentSource).2 = [] := by decide +kernel
  rw [hwarnings] at hsource
  exact ⟨unremarkable_remark, settings, outerCode, hname.trans hfoo, hsource⟩

/-- A class header in a comment is taken for the class of the source below it. -/
theorem Outline.ofSource_blockComment_header :
    ¬ ("*/" : Text) <:+: "class Bar : EditorWindow" ∧
      ((Outline.ofSource componentSource).1.kind,
        (Outline.ofSource componentSource).1.settings.className) = (.monoBehaviour, ("Foo" : Text)) ∧
      ((Outline.ofSource (blockComment "class Bar : EditorWindow" ++ componentSource)).1.kind,
        (Outline.ofSource (blockComment "class Bar : EditorWindow" ++
          componentSource)).1.settings.className) = (.editorWindow, ("Bar" : Text)) := by
  refine ⟨by decide +kernel, by decide +kernel, by decide +kernel⟩

end EditorScript
