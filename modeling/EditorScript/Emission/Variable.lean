import EditorScript.Emission.Style
import EditorScript.Source.Field
import EditorScript.Text.Indentation
import EditorScript.Text.Uppercase

/-!
# Variables behind elements

Most elements keep their value in a variable of the class.  Each variable is
declared once, with the type and the initial value of the first element that is
bound to it, unless the project declares it itself.
-/

namespace EditorScript

namespace Widget

/-- Widgets whose elements keep no value. -/
def hasNoVariable : Widget → Bool
  | .button | .label | .helpBox | .space | .separator | .header | .horizontalGroup
  | .verticalGroup | .scrollView | .disabledGroup | .box => true
  | _ => false

/-- Widgets that keep a text. -/
def keepsText : Widget → Bool
  | .textField | .textArea | .tagField => true
  | _ => false

/-- The type of a widget's variable, where the widget alone decides it. -/
def usualType : Widget → Text
  | .textField | .textArea | .tagField => "string"
  | .intField | .intSlider | .popup | .layerField | .tabGroup => "int"
  | .floatField | .slider | .progressBar => "float"
  | .toggle | .foldout => "bool"
  | .colorField => "Color"
  | .vector2Field => "Vector2"
  | .vector3Field => "Vector3"
  | .curveField => "AnimationCurve"
  | .gradientField => "Gradient"
  | _ => "object"

/-- The initial value of a widget's variable, where nothing else decides it. -/
def usualValue : Widget → Text
  | .textField | .textArea | .tagField => "\"\""
  | .intField | .intSlider | .popup | .layerField | .enumPopup | .tabGroup => "0"
  | .floatField => "0f"
  | .slider => "0.5f"
  | .toggle => "false"
  | .colorField => "Color.white"
  | .vector2Field => "Vector2.zero"
  | .vector3Field => "Vector3.zero"
  | .curveField => "new AnimationCurve()"
  | .gradientField => "new Gradient()"
  | _ => "null"

end Widget

/-- A truth value in C#. -/
def boolText (value : Bool) : Text :=
  if value then "true" else "false"

namespace ElementFields

/-- Whether the element keeps its value in a variable. -/
def needsVariable (fields : ElementFields) : Bool :=
  !fields.isOpaque && !fields.widget.hasNoVariable

/-- The type of the element's variable. -/
def variableType (fields : ElementFields) : Text :=
  match fields.widget with
  | .objectField => (present? fields.objectType).getD "Object"
  | .enumPopup => (present? fields.objectType).getD "Space"
  | widget => widget.usualType

/-- The initial value of the element's variable. -/
def initialValue (fields : ElementFields) : Text :=
  match fields.widget with
  | .progressBar =>
    (present? fields.defaultValue).getD
      (numberText (fields.progressValue.getD (.ofInt 0)) ++ ['f'])
  | .foldout => boolText (fields.foldoutDefault.getD false)
  | widget =>
    match present? fields.defaultValue with
    | some value =>
      if widget.keepsText && !value.startsWith "\"" then quote value else value
    | none => widget.usualValue

end ElementFields

/-- The margin of a level, each level being `width` blanks wide. -/
def indentation (width level : Nat) : Text :=
  Text.spaces (width * level)

namespace Forest

/-- The elements with a variable, in the order of reading. -/
def bound (forest : Forest) : List ElementFields :=
  (forest.flatten.map (·.fields)).filter (·.needsVariable)

/-- Whether there is a scroll view somewhere. -/
def hasScrollView (forest : Forest) : Bool :=
  forest.flatten.any (·.widget = .scrollView)

@[simp]
theorem bound_nil : bound [] = [] := by
  simp [bound, flatten]

@[simp]
theorem hasScrollView_nil : hasScrollView [] = false := by
  simp [hasScrollView, flatten]

end Forest

/-- The first of the elements for each variable that is not declared yet. -/
def firstBindings (declared : List Text) : List ElementFields → List ElementFields
  | [] => []
  | fields :: rest =>
    if declared.contains fields.variableName then firstBindings declared rest
    else fields :: firstBindings (fields.variableName :: declared) rest

/-- The names that field declarations introduce, in their order. -/
def declaredNames (declarations : List Text) : List Text :=
  declarations.filterMap fun declaration => (fieldHead? declaration).map (·.name)

/-- The variable that keeps the position of the scroll views. -/
def scrollVariable : Text := "scrollPosition"

/-- The line that declares an element's variable, without its margin. -/
def ElementFields.declaration (serialized : Bool) (fields : ElementFields) : Text :=
  (if serialized then ("[SerializeField] " : Text) else []) ++ "private " ++
    fields.variableType ++ " " ++ fields.variableName ++ " = " ++ fields.initialValue ++ ";"

/-- The line that reads an element's variable from outside, without its margin. -/
def ElementFields.accessor (fields : ElementFields) : Text :=
  "public " ++ fields.variableType ++ " " ++ capitalize fields.variableName ++ " => " ++
    fields.variableName ++ ";"

/-- The declarations of all variables that are not declared yet. -/
def variableDeclarations (width level : Nat) (serialized : Bool) (declared : List Text)
    (forest : Forest) : List Text :=
  let margin := indentation width level
  (firstBindings declared forest.bound).map (fun fields =>
    margin ++ fields.declaration serialized) ++
  (if forest.hasScrollView && !declared.contains scrollVariable then
    [margin ++ "private Vector2 " ++ scrollVariable ++ ";"]
  else [])

/-- The accessors of all variables that are not declared yet. -/
def accessorDeclarations (width level : Nat) (declared : List Text) (forest : Forest) :
    List Text :=
  (firstBindings declared forest.bound).map fun fields =>
    indentation width level ++ fields.accessor

end EditorScript
