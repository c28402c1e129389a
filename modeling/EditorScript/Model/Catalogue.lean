import EditorScript.Model.Project

/-!
# Catalogue of widgets

What the palette shows for each widget, and the fields that a freshly placed
element of it starts with.
-/

namespace EditorScript

/-- An entry of the palette. -/
structure Definition where
  displayName : Text
  category : Category
  description : Text
deriving DecidableEq, Repr

namespace Widget

/-- The entry of a widget in the palette. -/
def definition : Widget → Definition
  | button => ⟨"Button", .input, "Clickable button"⟩
  | textField => ⟨"Text Field", .input, "Single-line text input"⟩
  | textArea => ⟨"Text Area", .input, "Multi-line text input"⟩
  | intField => ⟨"Int Field", .input, "Integer input"⟩
  | floatField => ⟨"Float Field", .input, "Floating point input"⟩
  | slider => ⟨"Slider", .input, "Float slider with range"⟩
  | intSlider => ⟨"Int Slider", .input, "Integer slider with range"⟩
  | toggle => ⟨"Toggle", .input, "On/off switch"⟩
  | colorField => ⟨"Color", .input, "Color picker"⟩
  | vector2Field => ⟨"Vector2", .input, "2D vector input"⟩
  | vector3Field => ⟨"Vector3", .input, "3D vector input"⟩
  | objectField => ⟨"Object Reference", .input, "Asset or scene object reference"⟩
  | enumPopup => ⟨"Enum Popup", .input, "Dropdown over an enum"⟩
  | popup => ⟨"Popup", .input, "Dropdown over a string list"⟩
  | layerField => ⟨"Layer", .input, "Layer selector"⟩
  | tagField => ⟨"Tag", .input, "Tag selector"⟩
  | curveField => ⟨"Curve", .input, "Animation curve"⟩
  | gradientField => ⟨"Gradient", .input, "Gradient editor"⟩
  | label => ⟨"Label", .display, "Text label"⟩
  | helpBox => ⟨"Help Box", .display, "Info / warning / error message"⟩
  | space => ⟨"Space", .display, "Vertical spacing"⟩
  | separator => ⟨"Separator", .display, "Horizontal rule"⟩
  | header => ⟨"Header", .display, "Section heading"⟩
  | progressBar => ⟨"Progress Bar", .display, "Progress display"⟩
  | horizontalGroup => ⟨"Horizontal Group", .layout, "Side-by-side layout"⟩
  | verticalGroup => ⟨"Vertical Group", .layout, "Stacked layout"⟩
  | foldout => ⟨"Foldout", .layout, "Collapsible section"⟩
  | scrollView => ⟨"Scroll View", .layout, "Scrollable area"⟩
  | disabledGroup => ⟨"Disabled Group", .layout, "Conditionally disabled area"⟩
  | box => ⟨"Box", .layout, "Framed group"⟩
  | tabGroup => ⟨"Tab Group", .layout, "Tab switcher"⟩

/-- Whether elements of this widget are containers. -/
def isLayout (widget : Widget) : Bool :=
  widget.definition.category = .layout

end Widget

/-- An element with the given fields; a container is empty. -/
def Element.ofFields (fields : ElementFields) : Element :=
  .ofParts fields (if fields.widget.isLayout then some [] else none)

/-- The fields with what a fresh element of their widget starts with. -/
def ElementFields.withDefaults (fields : ElementFields) : ElementFields :=
  match fields.widget with
  | .textField | .textArea => { fields with defaultValue := some [] }
  | .intField => { fields with defaultValue := some "0" }
  | .floatField => { fields with defaultValue := some "0f" }
  | .slider =>
    { fields with
      minValue := some (.ofInt 0)
      maxValue := some (.ofInt 1)
      defaultValue := some "0.5f" }
  | .intSlider =>
    { fields with
      minValue := some (.ofInt 0)
      maxValue := some (.ofInt 100)
      defaultValue := some "50" }
  | .toggle => { fields with defaultValue := some "false" }
  | .colorField => { fields with defaultValue := some "Color.white" }
  | .vector2Field => { fields with defaultValue := some "Vector2.zero" }
  | .vector3Field => { fields with defaultValue := some "Vector3.zero" }
  | .objectField => { fields with objectType := some "Object", allowSceneObjects := some true }
  | .space => { fields with spaceHeight := some 10 }
  | .helpBox =>
    { fields with severity := some .info, defaultValue := some "Enter a message here" }
  | .header => { fields with headerText := some "Section" }
  | .progressBar => { fields with progressValue := some (.ofRatio false 1 2) }
  | .popup =>
    { fields with
      popupOptions := some ["Option 1", "Option 2", "Option 3"]
      defaultValue := some "0" }
  | .button => { fields with action := some .none }
  | .tabGroup => { fields with tabs := some ["Tab 1", "Tab 2"] }
  | .disabledGroup => { fields with disableCondition := some "false" }
  | .foldout => { fields with foldoutDefault := some true }
  | _ => fields

/-- The variable that a fresh element is bound to: the widget's name with a small
first letter and the first four characters of the id. -/
def freshVariable (widget : Widget) (id : Text) : Text :=
  (match Named.name widget with
    | [] => []
    | c :: rest => c.toLower :: rest) ++ '_' :: id.take 4

/-- A fresh element as the palette places it. -/
def Element.create (stamp : Stamp) (widget : Widget) : Element :=
  .ofFields (ElementFields.withDefaults
    { widget
      label := Named.name widget
      variableName := freshVariable widget stamp.id
      id := stamp.id })

/-- The element of given fields is a container exactly when its widget is a layout. -/
theorem Element.children?_ofFields (fields : ElementFields) :
    (Element.ofFields fields).children? = if fields.widget.isLayout then some [] else none := by
  unfold Element.ofFields
  split <;> rfl

/-- The defaults of a widget leave the widget as it is. -/
theorem ElementFields.widget_withDefaults (fields : ElementFields) :
    fields.withDefaults.widget = fields.widget := by
  obtain ⟨widget, _⟩ := fields
  cases widget <;> rfl

end EditorScript
