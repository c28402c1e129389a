import EditorScript.Emission.Statement
import EditorScript.Proofs.StyleLook

/-!
# What recovery makes of written elements

Recovery gives a written element back with the fields that its statements show:
the usual values of fields that were not set, the code of a click in place of the
action it came from, and no more of the look than differs from the usual one.
-/

namespace EditorScript

namespace Binary64

/-- The part of a number before its point. -/
def wholePart (limit : Binary64) : Binary64 :=
  .ofInt (limit.toInt?.getD 0)

end Binary64

namespace ElementFields

/-- The code that stands in the block of a button. -/
def blockCode (fields : ElementFields) (width level : Nat) (kind : ScriptKind) : Text :=
  let code := fields.actionCode width level kind
  if code.isEmpty then indentation width level ++ "// Button action" else code

/-- The fields of a widget with a label and nothing else. -/
def onlyLabel (fields : ElementFields) (label : Text) : ElementFields :=
  { widget := fields.widget, label }

/-- The fields of a widget that is bound to a variable. -/
def onlyBound (fields : ElementFields) : ElementFields :=
  { widget := fields.widget, label := fields.label, variableName := fields.variableName }

/-- The fields that recovery gives an element back with. -/
def readBack (kind : ScriptKind) (fields : ElementFields) : ElementFields :=
  match fields.widget with
  | .button =>
    { fields.onlyLabel fields.label with
      action := some .customCode
      actionParam := some (fields.blockCode 0 0 kind).dedent }
  | .textField => fields.onlyBound.withLook fields "EditorStyles.textField"
  | .textArea => fields.onlyBound.withLook fields "EditorStyles.textArea"
  | .slider =>
    { fields.onlyBound with
      minValue := some (fields.minValue.getD (.ofInt 0)).withoutZeroSign
      maxValue := some (fields.maxValue.getD (.ofInt 1)).withoutZeroSign }
  | .intSlider =>
    { fields.onlyBound with
      minValue := some (fields.minValue.getD (.ofInt 0)).wholePart
      maxValue := some (fields.maxValue.getD (.ofInt 100)).wholePart }
  | .objectField =>
    { fields.onlyBound with
      objectType := some fields.variableType
      allowSceneObjects := some (fields.allowSceneObjects.getD true) }
  | .enumPopup => { fields.onlyBound with objectType := some fields.variableType }
  | .popup =>
    { fields.onlyBound with
      popupOptions := some (listOr ["Option 1", "Option 2"] fields.popupOptions) }
  | .label => (fields.onlyLabel fields.label).withLook fields "EditorStyles.label"
  | .helpBox =>
    let message := (present? fields.defaultValue).getD fields.label
    { fields.onlyLabel message with
      defaultValue := some message
      severity := some (fields.severity.getD .info) }
  | .space =>
    let height := fields.spaceHeight.getD 10
    { fields.onlyLabel "Space" with spaceHeight := some (if height = 0 then 10 else height) }
  | .separator => fields.onlyLabel "Separator"
  | .header =>
    let text := (present? fields.headerText).getD fields.label
    { fields.onlyLabel text with headerText := some text }.withLook fields "EditorStyles.boldLabel"
  | .horizontalGroup => fields.onlyLabel "Horizontal"
  | .verticalGroup => fields.onlyLabel "Vertical"
  | .scrollView => fields.onlyLabel "Scroll View"
  | .disabledGroup =>
    { fields.onlyLabel "Disabled Group" with
      disableCondition := some ((present? fields.disableCondition).getD "false") }
  | .box => (fields.onlyLabel "Box").withLook fields "\"box\""
  | .tabGroup =>
    { fields.onlyBound with
      label := fields.variableName
      tabs := some (listOr ["Tab 1", "Tab 2"] fields.tabs) }
  | _ => fields.onlyBound

variable (kind : ScriptKind) (fields : ElementFields)

@[simp]
theorem widget_readBack : (fields.readBack kind).widget = fields.widget := by
  unfold readBack
  split <;> rfl

/-- Nothing that is read back stands for unrecognised code. -/
@[simp]
theorem isOpaque_readBack : (fields.readBack kind).isOpaque = false := by
  unfold readBack
  split <;> rfl

/-- Bound elements are read back with their variables. -/
theorem variableName_readBack (h : fields.widget.hasNoVariable = false) :
    (fields.readBack kind).variableName = fields.variableName := by
  unfold readBack
  split <;> first | rfl | simp_all [Widget.hasNoVariable]

end ElementFields

/-- The forest that recovery gives a written one back as. -/
def Forest.readBack (kind : ScriptKind) (forest : Forest) : Forest :=
  forest.mapFields (·.readBack kind)

end EditorScript
