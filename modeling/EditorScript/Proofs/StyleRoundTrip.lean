import EditorScript.Proofs.ShownArgument

/-!
# Styles written again

A style that is read back is the style of the element that it is written for: an element
with the look that was read is written with the same style again
(`ElementFields.applyStyle?_restores`).
-/

namespace EditorScript

/-- The styles of calls without one of their own, one for each way to draw an element that
can have a style. -/
def usualStyles : List Text :=
  ["\"button\"", "\"box\"", "EditorStyles.label", "EditorStyles.boldLabel",
    "EditorStyles.textField", "EditorStyles.textArea"]

theorem styleBase_of_mem_usualStyles : ∀ usual ∈ usualStyles, StyleBase usual := by
  have hall : ∀ usual ∈ usualStyles,
      !usual.isEmpty && usual.all fun c => !isBlank c && c != ')' := by decide
  exact fun usual husual => styleBase_of_all (hall usual husual)

namespace ElementFields

variable {shown fresh : ElementFields} {usual style : Text}

/-- What a look leaves out of the changes of a style is no change. -/
theorem styleChanges_withLook (fresh shown : ElementFields) (usual : Text) :
    (fresh.withLook shown usual).styleChanges = shown.styleChanges := by
  have hstyle : ∀ style : Option FontStyle,
      namedChanges (style.filter (· != .normal)) shown.alignment =
        namedChanges style shown.alignment := by
    intro style
    rcases style with _ | _ | _ | _ | _ <;> rfl
  rw [styleChanges_eq, styleChanges_eq]
  refine congrArg₂ (· ++ ·) ?_ (hstyle shown.fontStyle)
  have hlook : (fresh.withLook shown usual).fontSize = shown.fontSize.filter (· != 0) := rfl
  rw [hlook]
  cases shown.fontSize with
  | none => rfl
  | some size => by_cases hzero : size = 0 <;> simp [hzero, Option.filter]

/-- A look keeps the name of every style but the usual one. -/
theorem present?_boxStyle_withLook (hname : ∀ name ∈ shown.boxStyle, quote name ≠ usual) :
    present? (fresh.withLook shown usual).boxStyle = present? shown.boxStyle := by
  show present? ((present? shown.boxStyle).filter (quote · != usual)) = present? shown.boxStyle
  cases hset : present? shown.boxStyle with
  | none => rfl
  | some name =>
    have hset' := eq_some_of_present? hset
    have hkept : (some name).filter (quote · != usual) = some name := by
      simp [hname name hset']
    rw [hkept]
    exact (congrArg present? hset').symm.trans hset

theorem style?_withLook (hname : ∀ name ∈ shown.boxStyle, quote name ≠ usual)
    (hwidget : fresh.widget = shown.widget) :
    (fresh.withLook shown usual).style? usual = shown.style? usual := by
  have hsame : (fresh.withLook shown usual).widget = shown.widget := hwidget
  rw [style?, style?, styleChanges_withLook, present?_boxStyle_withLook hname, hsame]

theorem isStyleExpression_style (h : shown.style? usual = some style) :
    isStyleExpression style := by
  rcases style?_cases h with ⟨name, -, rfl⟩ | rfl
  · exact isStyleExpression_quote name
  · exact isStyleExpression_newStyleText _ _

/-- What is written for the style of an element is a style expression.  Read for a fresh
element of the same widget it gives that one a look which is written as the same expression
again. -/
theorem applyStyle?_restores (husual : usual ∈ usualStyles)
    (hsize : ∀ size ∈ shown.fontSize, 0 ≤ size)
    (hname : ∀ name ∈ shown.boxStyle, ')' ∉ name ∧ quote name ≠ usual)
    (hfresh : fresh.Lookless) (hwidget : fresh.widget = shown.widget)
    (hstyle : shown.style? usual = some style) :
    isStyleExpression style ∧
      ∃ read : ElementFields, fresh.applyStyle? (some style) usual = some read ∧
        read.style? usual = some style := by
  have hstyleable : shown.widget.isStyleable := by
    by_contra hnone
    rw [style?, if_neg hnone] at hstyle
    cases hstyle
  have hread := applyStyle?_style_of_notMem hfresh hstyleable hsize
    (fun name hset => (hname name hset).1) (styleBase_of_mem_usualStyles usual husual)
  have hagain := @style?_withLook shown fresh usual (fun name hset => (hname name hset).2) hwidget
  rw [hstyle] at hread hagain
  exact ⟨isStyleExpression_style hstyle, _, hread, hagain⟩

/-- A text field whose style has a name like a list of changes. -/
def styledField : ElementFields where
  widget := .textField
  label := "A"
  variableName := "a"
  fontSize := some 14
  fontStyle := some .boldItalic
  alignment := some .center
  boxStyle := some "\" \x7b fontSize = 9 \x7d \\"

theorem applyStyle?_restores_styledField :
    let base : Text := "\"\\\" \x7b fontSize = 9 \x7d \\\\\""
    let style : Text := "new GUIStyle(" ++ base ++ ") \x7b fontSize = 14, " ++
      "fontStyle = FontStyle.BoldItalic, alignment = TextAnchor.MiddleCenter \x7d"
    styledField.style? "EditorStyles.textField" = some style ∧
      isStyleExpression style ∧
      ∃ read : ElementFields,
        ElementFields.applyStyle? { widget := .textField, label := "B" } (some style)
          "EditorStyles.textField" = some read ∧
        read.style? "EditorStyles.textField" = some style := by
  intro base style
  have hstyle : styledField.style? "EditorStyles.textField" = some style := by decide +kernel
  exact ⟨hstyle, @applyStyle?_restores styledField _ _ _ (by decide) (by decide) (by decide)
    ⟨rfl, rfl, rfl, rfl⟩ rfl hstyle⟩

end ElementFields

end EditorScript
