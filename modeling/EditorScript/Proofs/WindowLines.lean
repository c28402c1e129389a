import EditorScript.Extraction.Outline
import EditorScript.Proofs.ClassBlock
import EditorScript.Proofs.CodeLine
import EditorScript.Proofs.KindSigns

/-!
# The lines of a window

A bare window has nothing above its class but the usual imports and perhaps a
namespace, and nothing in the header of its class but its name and its base.  Its
source is read from the outside in: the header is the first one among the lines, the
block behind it holds the members, and around it stands nothing that is kept.
-/

namespace EditorScript

/-- The imports of a bare window. -/
def windowUsings : List Text := ["using UnityEditor;", "using UnityEngine;"]

/-- A window with no other imports than the usual ones and without interfaces and
attributes of its own, whose class and namespace are named by words. -/
structure Project.BareWindow (project : Project) : Prop where
  kind : project.kind = .editorWindow
  className : IsVariableName project.settings.className
  namespaceName : ∀ c ∈ project.settings.namespaceName, isWord c
  usings : project.usings = [] ∨ project.usings = windowUsings
  interfaces : project.settings.interfaces = []
  classAttributes : project.settings.classAttributes = []

/-! ## Words in code -/

theorem notMem_of_word {c : Char} {word : Text} (h : ∀ d ∈ word, isWord d)
    (hc : isWord c = false) : c ∉ word := fun hmem => by
  rw [h c hmem] at hc
  cases hc

theorem notMem_append {c : Char} {first second : Text} (h : c ∉ first) (h' : c ∉ second) :
    c ∉ first ++ second := fun hmem => (List.mem_append.mp hmem).elim h h'

theorem notMem_spaces {c : Char} (hc : c ≠ ' ') (count : Nat) : c ∉ Text.spaces count :=
  fun hmem => hc (List.mem_replicate.mp hmem).2

/-- Tame text that ends in something else than a quote or white space is a statement. -/
theorem statement_of_tame {text : Text} (h : text.all isTame)
    (hfirst : ∀ c ∈ text.head?, isBlank c = false)
    (hlast : ∃ front c, text = front ++ [c] ∧ isBlank c = false) : Statement text := by
  obtain ⟨front, c, rfl, hblank⟩ := hlast
  refine ⟨neutral_of_tame h, hfirst, front, c, rfl, ?_, hblank⟩
  rintro rfl
  exact absurd (List.all_eq_true.mp h '"' (by simp)) (by decide)

/-- The line that opens a namespace. -/
def namespaceLine (namespaceName : Text) : Text :=
  "namespace " ++ namespaceName

/-- The lines above the class of a bare window. -/
def windowAbove (namespaceName : Text) : List Text :=
  windowUsings ++ [] ::
    if namespaceName.isEmpty then [] else [namespaceLine namespaceName, ['\x7b']]

/-- The header of the class of a bare window. -/
def windowHeader (className : Text) : Text :=
  "public class " ++ (className ++ " : EditorWindow")

namespace Project

variable {project : Project} {width : Nat}

theorem BareWindow.aboveClass_eq (h : project.BareWindow) :
    project.aboveClass width = windowAbove project.settings.namespaceName := by
  have husings : mergeUsings project project.kind.usualUsings = windowUsings := by
    rw [mergeUsings, h.kind]
    rcases h.usings with husings | husings <;> rw [husings] <;> decide +kernel
  have htypes : project.leadingTypes width project.level = [] := by
    rw [leadingTypes, h.kind]
  have hattributes : project.settings.kindAttributes project.kind = [] := by
    rw [h.kind]
    rfl
  unfold windowAbove namespaceLine
  rewrite [aboveClass, husings, htypes, hattributes, h.classAttributes]
  simp only [List.isEmpty_nil, if_true, List.append_nil, List.map_nil, List.append_assoc,
    List.cons_append, List.nil_append]

theorem BareWindow.classHeader_eq (h : project.BareWindow) :
    project.settings.classHeader project.kind = windowHeader project.settings.className := by
  have hbase : (" : " : Text) ++ ScriptKind.baseClass .editorWindow = " : EditorWindow" := by
    decide
  unfold Settings.classHeader
  rewrite [h.interfaces, h.kind, Text.join_singleton, List.append_assoc, List.append_assoc]
  exact congrArg (fun behind => ("public class " : Text) ++ (project.settings.className ++ behind))
    hbase

end Project

theorem tame_windowHeader {className : Text} (h : ∀ c ∈ className, isWord c) :
    (windowHeader className).all isTame := by
  have hfront : List.all "public class " isTame := by decide
  have hback : List.all " : EditorWindow" isTame := by decide
  exact tame_append hfront (tame_append (tame_of_word h) hback)

theorem statement_windowHeader {className : Text} (h : ∀ c ∈ className, isWord c) :
    Statement (windowHeader className) := by
  have hback : (" : EditorWindow" : Text) = " : EditorWindo" ++ ['w'] := by decide
  refine statement_of_tame (tame_windowHeader h) ?_
    ⟨"public class " ++ (className ++ " : EditorWindo"), 'w', ?_, by decide⟩
  · rintro c ⟨⟩
    decide
  · rewrite [List.append_assoc, List.append_assoc]
    exact congrArg (fun behind => ("public class " : Text) ++ (className ++ behind)) hback

open Pattern in
/-- The header of the class of a bare window names the class and its base. -/
theorem match?_windowHeader {className : Text} (h : IsVariableName className) :
    Gives (classHeader.match? (windowHeader className)) fun found =>
      found.captured "name" = className ∧ found.captured "bases" = "EditorWindow".toList := by
  obtain ⟨hne, hword⟩ := h
  have hname : ∀ rest : Text, ∀ c ∈ (className ++ rest).head?, isBlank c = false := by
    obtain ⟨first, others, rfl⟩ := List.exists_cons_of_ne_nil hne
    rintro rest c ⟨⟩
    exact isBlank_of_isWord (hword first List.mem_cons_self)
  have hshape : windowHeader className = ("public".toList ++ [' ']) ++ ("class".toList ++
      ([' '] ++ (className ++ ' ' :: (":".toList ++ ' ' :: ("EditorWindow".toList ++ []))))) := rfl
  have hblank : ∀ c ∈ ([' '] : Text), isBlank c := List.forall_mem_singleton.mpr (by decide)
  rw [hshape]
  simp only [match?, matchAt, classHeader, run_append, run_start]
  refine run_many_once (List.cons_ne_nil _ _) (fun following hfollowing before => ?_)
    (fun following before => rfl) (fun before => ?_) none
  · refine Gives.or ?_ _
    refine run_text (fun before => ?_) before
    exact run_many1 (List.cons_ne_nil _ _) hblank (by rintro c ⟨⟩; decide) hfollowing before
  refine run_text (fun before => ?_) before
  refine run_many1 (List.cons_ne_nil _ _) hblank (hname _) (fun before => ?_) before
  refine run_capture_many1 hne hword (by rintro c ⟨⟩; decide) (fun before => ?_) before
  rw [run_opt_none rfl]
  refine run_blanks_space (by rintro c ⟨⟩; decide) (fun before => run_opt ?_) before
  refine run_text (fun before => ?_) before
  refine run_blanks_space (by rintro c ⟨⟩; decide) (fun before => ?_) before
  refine run_capture_many1 (by decide) (by decide) (by rintro c ⟨⟩) (fun before => ?_) before
  exact ⟨_, rfl, rfl, rfl⟩

end EditorScript
