import EditorScript.Proofs.CodeLine
import EditorScript.Proofs.Plain
import EditorScript.Proofs.ReadBack
import EditorScript.Proofs.ShapeTable

/-!
# Statements that show an element

A statement of one line shows an element when it is code, nothing that is tried
before the calls takes it, and the calls give the element.  It also keeps clear of
the names by which the calls around containers are found.
-/

namespace EditorScript

/-- A statement of one line that is read back as an element. -/
structure Shows (code : Text) (shown : ElementFields) : Prop where
  statement : Statement code
  ordinary : Step.Ordinary code
  call : ∃ name, matchCall? code = some (name, shown)
  avoids : Avoids containerCalls code
  widget : shown.widget ≠ .textArea

/-- A statement on which all shapes before its own fail. -/
theorem shows_of_match?_none {count : Nat} {shape : CallShape} {statement : Text}
    {shown : ElementFields} (hshape : CallShape.all[count]? = some shape)
    (hnone : ∀ pattern ∈ Step.earlierShapes ++ callsBefore count, pattern.match? statement = none)
    (hrecognise : shape.recognise? statement = some shown) (hstatement : Statement statement)
    (havoids : Avoids containerCalls statement) (hwidget : shown.widget ≠ .textArea) :
    Shows statement shown := by
  refine ⟨hstatement, ?_, ⟨shape.name, ?_⟩, havoids, hwidget⟩
  · exact Step.ordinary_of_match?_none fun pattern hpattern =>
      hnone pattern (List.mem_append_left _ hpattern)
  · exact matchCall?_of_recognise hshape
      (fun pattern hpattern => hnone pattern (List.mem_append_right _ hpattern)) hrecognise

/-- A statement of a sketch that rules out all shapes before its own. -/
theorem shows_of_sketch {count : Nat} {sketch : Sketch} {shape : CallShape} {statement : Text}
    {shown : ElementFields} (hshape : CallShape.all[count]? = some shape)
    (hrules : ∀ pattern ∈ Step.earlierShapes ++ callsBefore count, pattern.rulesOut sketch)
    (hfits : Fits sketch statement) (hrecognise : shape.recognise? statement = some shown)
    (hstatement : Statement statement) (havoids : Avoids containerCalls statement)
    (hwidget : shown.widget ≠ .textArea) : Shows statement shown :=
  shows_of_match?_none hshape (fun pattern hpattern =>
    Pattern.match?_eq_none_of_rulesOut (hrules pattern hpattern) hfits) hrecognise hstatement
      havoids hwidget

/-- A statement ends with the end of its call. -/
theorem statement_of_call {statement : Text} (hneutral : Neutral statement)
    (hfirst : ∀ c ∈ statement.head?, isBlank c = false) (hend : ");".toList <:+ statement) :
    Statement statement where
  neutral := hneutral
  first := hfirst
  last := by
    obtain ⟨front, rfl⟩ := hend
    exact ⟨front ++ [')'], ';', by simp, by decide, by decide⟩

/-- The end of a call as it is written with its arguments. -/
theorem callEnd_suffix (front arguments : Text) :
    ");".toList <:+ front ++ ("(".toList ++ (arguments ++ ");".toList)) :=
  ((List.suffix_append arguments _).trans (List.suffix_append _ _)).trans (List.suffix_append _ _)

/-! ## Names of containers -/

theorem avoids_nil : Avoids containerCalls [] := by
  decide

theorem avoids_quote {content : Text} (h : Avoids containerCalls content) :
    Avoids containerCalls (quote content) :=
  h.quote (by decide)

/-- A text without one of the letters in all names. -/
theorem avoids_of_notMem_G {text : Text} (h : 'G' ∉ text) : Avoids containerCalls text :=
  .of_notMem (by decide) h

theorem avoids_name {name : Text} (h : isName name) : Avoids containerCalls name := by
  refine .of_notMem (c := '.') (by decide) fun hmem => ?_
  exact absurd (isNameChar_of_mem h hmem) (by decide)

/-- A call keeps clear of the names when its front and its arguments do. -/
theorem avoids_call {front : Text} {arguments : List Text} (hfront : Avoids containerCalls front)
    (h : ∀ argument ∈ arguments, Avoids containerCalls argument) :
    Avoids containerCalls (front ++ ("(".toList ++ (Text.join ", " arguments ++ ");".toList))) := by
  have hjoin : Avoids containerCalls (Text.join ", " arguments) :=
    .join (by decide) h avoids_nil
  have hclose : isSeam containerCalls ");".toList := by decide
  have hend := hjoin.seam hclose avoids_nil
  rw [List.append_nil] at hend
  exact hfront.seam (by decide) hend

end EditorScript
