import EditorScript.Emission.Template
import EditorScript.Number.Reading
import EditorScript.Source.Literal

/-!
# Declarations that elements stand for

A script declares the variables of its elements.  When such a script is read,
the declarations that would be written again for the elements are absorbed: the
initial value moves into the elements and the declaration is dropped.  A
declaration of any other shape is kept, and then nothing is written for its
variable.
-/

namespace EditorScript

open Pattern

/-- The declaration of an element's variable as it is written, the initial value
captured. -/
def ElementFields.declarationShape (serialized : Bool) (fields : ElementFields) : Pattern :=
  (if serialized then "[SerializeField]" ++ blanks else empty) ++
    "private" ++ blanks1 ++ text fields.variableType ++ blanks1 ++ text fields.variableName ++
    blanks ++ "=" ++ blanks ++ capture "value" (few1 any) ++ blanks ++ ";"

/-- The initial value in the declaration of an element's variable; nothing when
the declaration has another shape. -/
def ElementFields.initializer? (serialized : Bool) (fields : ElementFields)
    (declaration : Text) : Option Text :=
  ((fields.declarationShape serialized).matchAll? declaration.trim).map (·.captured "value")

/-- The accessor of an element's variable as it is written. -/
def ElementFields.accessorShape (fields : ElementFields) : Pattern :=
  "public" ++ blanks1 ++ text fields.variableType ++ blanks1 ++
    text (capitalize fields.variableName) ++ blanks ++ "=>" ++ blanks ++
    text fields.variableName ++ blanks ++ ";"

/-- Whether a declaration is the accessor of an element's variable. -/
def ElementFields.isAccessor (fields : ElementFields) (declaration : Text) : Bool :=
  (fields.accessorShape.matchAll? declaration.trim).isSome

/-- The variable of the scroll views as it is written. -/
def scrollShape : Pattern :=
  start ++ "private" ++ blanks1 ++ "Vector2" ++ blanks1 ++ text scrollVariable ++ blanks ++
    opt ("=" ++ blanks ++ "Vector2.zero" ++ blanks) ++ ";" ++ finish

/-- Whether a declaration is the variable of the scroll views. -/
def isScrollDeclaration (declaration : Text) : Bool :=
  scrollShape.accepts declaration.trim

/-- The element with the initial value of its variable.  Texts are kept without
their quotes, and what is not a number leaves a progress bar as it is. -/
def ElementFields.withInitializer (value : Text) (fields : ElementFields) : ElementFields :=
  match fields.widget with
  | .foldout => { fields with foldoutDefault := some (value == "true".toList) }
  | .progressBar =>
    { fields with progressValue := (readLiteralNumber? value).or fields.progressValue }
  | widget =>
    { fields with
      defaultValue := some
        (if widget.keepsText then (literalText? value).getD value else value) }

/-- What absorbing makes of declarations: the ones that are kept, and the initial
values of the variables whose declarations are absorbed. -/
structure Absorption where
  kept : List Text
  values : List (Text × Text)
deriving DecidableEq, Repr

/-- The name and the initial value of the variable that a declaration is absorbed
into.  `done` are the names that have been absorbed before. -/
def absorbed? (serialized : Bool) (bound : List ElementFields) (done : List Text)
    (declaration : Text) : Option (Text × Text) :=
  (fieldHead? declaration).bind fun head =>
    if done.contains head.name then none
    else
      (bound.find? (·.variableName = head.name)).bind fun fields =>
        (fields.initializer? serialized declaration).map fun value => (head.name, value)

/-- Absorbs declarations in their order. -/
def absorbDeclarations (serialized scrolls : Bool) (bound : List ElementFields)
    (done : List Text) : List Text → Absorption
  | [] => ⟨[], []⟩
  | declaration :: rest =>
    match absorbed? serialized bound done declaration with
    | some (name, value) =>
      let others := absorbDeclarations serialized scrolls bound (name :: done) rest
      { others with values := (name, value) :: others.values }
    | none =>
      let others := absorbDeclarations serialized scrolls bound done rest
      if scrolls && isScrollDeclaration declaration then others
      else { others with kept := declaration :: others.kept }

/-- Whether a declaration is the accessor of an absorbed variable. -/
def Absorption.drops (absorption : Absorption) (bound : List ElementFields)
    (declaration : Text) : Bool :=
  absorption.values.any fun (name, _) =>
    (bound.find? (·.variableName = name)).any (·.isAccessor declaration)

/-- The element with the initial value of its variable, if that is absorbed. -/
def Absorption.apply (absorption : Absorption) (fields : ElementFields) : ElementFields :=
  if fields.needsVariable then
    (absorption.values.lookup fields.variableName).elim fields fields.withInitializer
  else fields

/-- The project with the declarations absorbed that are written again for its
elements. -/
def Project.absorb (project : Project) : Project :=
  let bound := project.elements.bound
  let absorption := absorbDeclarations project.kind.serializesFields
    project.elements.hasScrollView bound [] project.fieldDeclarations
  { project with
    elements := project.elements.mapFields absorption.apply
    fieldDeclarations :=
      if project.kind.hasAccessors then
        absorption.kept.filter fun declaration => !absorption.drops bound declaration
      else absorption.kept }

/-- Without elements nothing is absorbed. -/
theorem absorbDeclarations_nil (serialized : Bool) (done declarations : List Text) :
    absorbDeclarations serialized false [] done declarations = ⟨declarations, []⟩ := by
  induction declarations with
  | nil => rfl
  | cons declaration rest ih =>
    have h : absorbed? serialized [] done declaration = none := by
      unfold absorbed?
      cases fieldHead? declaration <;> simp
    simp [absorbDeclarations, h, ih]

end EditorScript
