import EditorScript.Proofs.ClosedSource
import EditorScript.Proofs.DeclaredOnce

/-!
# Variables and accessors that are written

The lines for the variables of a forest declare each variable that the forest needs and
that has no declaration yet, with the type and the initial value of the first element that
is bound to it.  No name comes twice, unless an element is bound to the variable of the
scroll views (`Forest.variableDeclarations_exact`).  Accessors have names of their own
exactly if all variables start with a small letter (`Project.members_apart_iff`).
-/

namespace EditorScript

/-! ## Variables -/

/-- A line declares a variable of a forest: with the type and the initial value of the first
element that is bound to it, or as the position of the scroll views. -/
def Forest.IsDeclaration (forest : Forest) (width level : Nat) (serialized : Bool)
    (name line : Text) : Prop :=
  (∃ fields, forest.bound.find? (·.variableName = name) = some fields ∧
    line = indentation width level ++ (if serialized then ("[SerializeField] " : Text) else []) ++
      "private " ++ fields.variableType ++ " " ++ name ++ " = " ++ fields.initialValue ++ ";") ∨
  forest.hasScrollView ∧ name = scrollVariable ∧
    line = indentation width level ++ "private Vector2 scrollPosition;"

/-- Whether an element is bound to the variable of the scroll views while that variable is
written for them. -/
def Forest.SharesScroll (forest : Forest) (declared : List Text) : Prop :=
  forest.hasScrollView ∧ scrollVariable ∉ declared ∧
    ∃ fields ∈ forest.bound, fields.variableName = scrollVariable

/-- What is declared for a variable is the first element that is bound to it. -/
theorem find?_of_mem_firstBindings {declared : List Text} {bound : List ElementFields}
    {fields : ElementFields} (h : fields ∈ firstBindings declared bound) :
    bound.find? (·.variableName = fields.variableName) = some fields := by
  induction bound generalizing declared with
  | nil => simp [firstBindings] at h
  | cons other rest ih =>
    rw [List.find?_cons]
    rw [firstBindings] at h
    split at h
    · rename_i hdeclared
      have hnew : fields.variableName ∉ declared :=
        (mem_names_firstBindings.mp (List.mem_map_of_mem h)).2
      have hother : other.variableName ≠ fields.variableName := by
        rintro heq
        exact hnew (heq ▸ by simpa using hdeclared)
      simpa [hother] using ih h
    · rcases List.mem_cons.mp h with rfl | h
      · simp
      · have hnew : fields.variableName ∉ other.variableName :: declared :=
          (mem_names_firstBindings.mp (List.mem_map_of_mem h)).2
        have hother : other.variableName ≠ fields.variableName := fun heq =>
          hnew (heq ▸ List.mem_cons_self)
        simpa [hother] using ih h

theorem Forest.isDeclaration_variableDeclarations (forest : Forest) (width level : Nat)
    (serialized : Bool) (declared : List Text) :
    List.Forall₂ (forest.IsDeclaration width level serialized) (writtenNames declared forest)
      (variableDeclarations width level serialized declared forest) := by
  refine List.rel_append ?_ ?_
  · rw [List.forall₂_map_left_iff, List.forall₂_map_right_iff, List.forall₂_same]
    intro fields hfields
    refine .inl ⟨fields, find?_of_mem_firstBindings hfields, ?_⟩
    simp only [ElementFields.declaration, List.append_assoc]
  · split
    · rename_i hscroll
      refine .cons (.inr ⟨(Bool.and_eq_true_iff.mp hscroll).1, rfl, ?_⟩) .nil
      have hline : ("private Vector2 " ++ scrollVariable ++ ";" : Text) =
          "private Vector2 scrollPosition;" := by decide
      rw [← hline]
      simp only [List.append_assoc]
    · exact .nil

/-- The names that are written are distinct but for the one of the scroll views. -/
theorem nodup_writtenNames_iff {declared : List Text} {forest : Forest} :
    (writtenNames declared forest).Nodup ↔ ¬ forest.SharesScroll declared := by
  constructor
  · rintro hdistinct ⟨hscroll, hnew, fields, hfields, hname⟩
    have hlast : (forest.hasScrollView && !declared.contains scrollVariable) = true := by
      simp [hscroll, hnew]
    rw [writtenNames, if_pos hlast] at hdistinct
    exact (List.nodup_append.mp hdistinct).2.2 scrollVariable
      (mem_names_firstBindings.mpr ⟨⟨fields, hfields, hname⟩, hnew⟩) scrollVariable
      List.mem_cons_self rfl
  · intro hapart
    by_cases hlast : (forest.hasScrollView && !declared.contains scrollVariable) = true
    · refine nodup_writtenNames declared fun fields hfields hname => hapart ?_
      obtain ⟨hscroll, hnew⟩ := Bool.and_eq_true_iff.mp hlast
      exact ⟨hscroll, by simpa using hnew, fields, hfields, hname⟩
    · rw [writtenNames, if_neg hlast, List.append_nil]
      exact nodup_names_firstBindings declared forest.bound

/-- The lines for the variables of a forest declare the variables that the forest needs, but
for those that are declared already.  Each one has the type and the initial value of the
first element that is bound to it.  No name is declared twice, unless an element is bound to
the variable of the scroll views. -/
theorem Forest.variableDeclarations_exact (forest : Forest) (width level : Nat)
    (serialized : Bool) (declared : List Text) :
    let names := writtenNames declared forest
    List.Forall₂ (forest.IsDeclaration width level serialized) names
        (variableDeclarations width level serialized declared forest) ∧
      (∀ name, name ∈ names ↔ forest.Needs name ∧ name ∉ declared) ∧
      (names.Nodup ↔ ¬ forest.SharesScroll declared) :=
  ⟨forest.isDeclaration_variableDeclarations width level serialized declared,
    fun _ => mem_writtenNames, nodup_writtenNames_iff⟩

/-- A number whose variable is the one of the scroll views, inside a scroll view. -/
def scrolledNumber : Forest :=
  [.group { widget := .scrollView, label := "S" }
    [.leaf { widget := .intField, label := "A", variableName := "scrollPosition" }]]

/-- The variable of that number is declared twice. -/
theorem variableDeclarations_scrolledNumber :
    (∀ fields ∈ scrolledNumber.bound, isName fields.variableName) ∧
      variableDeclarations 4 1 false [] scrolledNumber =
        ["    private int scrollPosition = 0;".toList,
          "    private Vector2 scrollPosition;".toList] ∧
      ¬ (writtenNames [] scrolledNumber).Nodup := by
  have hbound : scrolledNumber.bound =
      [{ widget := .intField, label := "A", variableName := "scrollPosition" }] := by
    simp [Forest.bound, Forest.flatten, scrolledNumber, Element.fields,
      ElementFields.needsVariable, Widget.hasNoVariable]
  have hscroll : scrolledNumber.hasScrollView = true := by
    simp [Forest.hasScrollView, Forest.flatten, scrolledNumber, Element.widget, Element.fields]
  refine ⟨by rw [hbound]; decide, ?_, ?_⟩
  · simp only [variableDeclarations, hbound, hscroll]
    decide +kernel
  · simp only [writtenNames, hbound, hscroll]
    decide +kernel

/-! ## Accessors -/

/-- The names of the accessors, in the order of their lines. -/
def accessorNames (declared : List Text) (forest : Forest) : List Text :=
  (firstBindings declared forest.bound).map fun fields => capitalize fields.variableName

/-- A line is the accessor of that name for a variable of a forest. -/
def Forest.IsAccessor (forest : Forest) (width level : Nat) (name line : Text) : Prop :=
  ∃ fields ∈ forest.bound, capitalize fields.variableName = name ∧
    line = indentation width level ++ "public " ++ fields.variableType ++ " " ++ name ++ " => " ++
      fields.variableName ++ ";"

theorem Forest.isAccessor_accessorDeclarations (forest : Forest) (width level : Nat)
    (declared : List Text) :
    List.Forall₂ (forest.IsAccessor width level) (accessorNames declared forest)
      (accessorDeclarations width level declared forest) := by
  rw [accessorNames, accessorDeclarations, List.forall₂_map_left_iff, List.forall₂_map_right_iff,
    List.forall₂_same]
  intro fields hfields
  refine ⟨fields, mem_of_mem_firstBindings hfields, rfl, ?_⟩
  -- kept closed, or the tables behind the capital letters are opened
  unfold ElementFields.accessor
  generalize capitalize fields.variableName = name
  simp only [List.append_assoc]

/-- Names that differ in the case of their first letter only. -/
def DifferInCase (name other : Text) : Prop :=
  name ≠ other ∧ name.tail = other.tail ∧
    name.head?.map Char.toUpper = other.head?.map Char.toUpper

instance (name other : Text) : Decidable (DifferInCase name other) :=
  inferInstanceAs (Decidable (_ ∧ _ ∧ _))

/-- Whether a text starts with a small letter. -/
def startsSmall (name : Text) : Bool :=
  name.head?.any Char.isLower

section

variable {name other : Text} (hname : isName name)
include hname

/-- The name of an accessor has a capital letter for a small one, and nothing else changed. -/
theorem exists_capitalize :
    ∃ c rest, name = c :: rest ∧ capitalize name = c.toUpper :: rest ∧
      c.toUpper.isLower = false ∧ (c.isLower = false → c.toUpper = c) := by
  have hall : ∀ c ∈ nameChars, c.toUpper.isLower = false ∧ (c.isLower = false → c.toUpper = c) := by
    decide
  obtain ⟨c, rest, rfl⟩ := List.exists_cons_of_ne_nil (ne_nil_of_isName hname)
  have hfirst := isNameChar_of_mem hname List.mem_cons_self
  refine ⟨c, rest, rfl, ?_, hall c (mem_nameChars hfirst)⟩
  rw [capitalize, upperForm_ascii (toNat_lt_of_isNameChar hfirst), List.singleton_append]

theorem startsSmall_capitalize : startsSmall (capitalize name) = false := by
  obtain ⟨c, rest, -, hcapital, hlarge, -⟩ := exists_capitalize hname
  rw [hcapital]
  exact hlarge

theorem capitalize_eq_self (h : startsSmall name = false) : capitalize name = name := by
  obtain ⟨c, rest, rfl, hcapital, -, hsame⟩ := exists_capitalize hname
  rw [hcapital, hsame h]

/-- Names that do not differ in case only have accessors of different names. -/
theorem eq_of_capitalize_eq (hother : isName other) (hcase : ¬ DifferInCase name other)
    (h : capitalize name = capitalize other) : name = other := by
  by_contra hne
  obtain ⟨c, rest, rfl, hcapital, -⟩ := exists_capitalize hname
  obtain ⟨d, rest', rfl, hcapital', -⟩ := exists_capitalize hother
  rw [hcapital, hcapital'] at h
  obtain ⟨hfirst, hrest⟩ := List.cons.inj h
  exact hcase ⟨hne, hrest, congrArg some hfirst⟩

end

section

variable {declared : List Text} {forest : Forest}

theorem accessorNames_eq (declared : List Text) (forest : Forest) : accessorNames declared forest =
    ((firstBindings declared forest.bound).map (·.variableName)).map capitalize := by
  rw [List.map_map]
  rfl

theorem mem_accessorNames {name : Text} :
    name ∈ accessorNames declared forest ↔
      ∃ fields ∈ forest.bound, fields.variableName ∉ declared ∧
        capitalize fields.variableName = name := by
  rw [accessorNames_eq, List.mem_map]
  constructor
  · rintro ⟨variableName, hmem, rfl⟩
    obtain ⟨⟨fields, hfields, rfl⟩, hnew⟩ := mem_names_firstBindings.mp hmem
    exact ⟨fields, hfields, hnew, rfl⟩
  · rintro ⟨fields, hfields, hnew, rfl⟩
    exact ⟨_, mem_names_firstBindings.mpr ⟨⟨fields, hfields, rfl⟩, hnew⟩, rfl⟩

variable (hnames : ∀ fields ∈ forest.bound, isName fields.variableName)
  (hcase : ∀ fields ∈ forest.bound, ∀ other ∈ forest.bound,
    ¬ DifferInCase fields.variableName other.variableName)
include hnames

include hcase in
theorem nodup_accessorNames : (accessorNames declared forest).Nodup := by
  rw [accessorNames_eq]
  refine List.Nodup.map_on (fun name hname other hother heq => ?_)
    (nodup_names_firstBindings declared forest.bound)
  obtain ⟨⟨fields, hfields, rfl⟩, -⟩ := mem_names_firstBindings.mp hname
  obtain ⟨⟨fields', hfields', rfl⟩, -⟩ := mem_names_firstBindings.mp hother
  exact eq_of_capitalize_eq (hnames fields hfields) (hnames fields' hfields')
    (hcase fields hfields fields' hfields') heq

/-- No accessor has the name of a variable exactly if all variables start small. -/
theorem disjoint_accessorNames_iff :
    (writtenNames declared forest).Disjoint (accessorNames declared forest) ↔
      ∀ fields ∈ forest.bound, fields.variableName ∉ declared →
        startsSmall fields.variableName := by
  constructor
  · intro hapart fields hfields hnew
    by_contra hlarge
    have hsame := capitalize_eq_self (hnames fields hfields) (by simpa using hlarge)
    exact hapart (mem_writtenNames.mpr ⟨.inl ⟨fields, hfields, rfl⟩, hnew⟩)
      (mem_accessorNames.mpr ⟨fields, hfields, hnew, hsame⟩)
  · intro hsmall name hname haccessor
    obtain ⟨other, hother, -, rfl⟩ := mem_accessorNames.mp haccessor
    have hlarge := startsSmall_capitalize (hnames other hother)
    obtain ⟨hneeds, hnew⟩ := mem_writtenNames.mp hname
    rcases hneeds with ⟨fields, hfields, heq⟩ | ⟨-, heq⟩
    · rw [← heq, hsmall fields hfields (heq ▸ hnew)] at hlarge
      cases hlarge
    · rw [heq] at hlarge
      exact absurd hlarge (by decide)

end

/-- The variables and the accessors that are written for a project have pairwise distinct
names exactly if no element is bound to the variable of the scroll views beside them and
every variable starts with a small letter: a name that starts otherwise is the name of its
own accessor. -/
theorem Project.members_apart_iff (project : Project) (width level : Nat)
    (hnames : ∀ fields ∈ project.elements.bound, isName fields.variableName)
    (hcase : ∀ fields ∈ project.elements.bound, ∀ other ∈ project.elements.bound,
      ¬ DifferInCase fields.variableName other.variableName) :
    let declared := declaredNames project.fieldDeclarations
    let names := writtenNames declared project.elements
    let accessors := accessorNames declared project.elements
    List.Forall₂ (project.elements.IsDeclaration width level project.kind.serializesFields) names
        (variableDeclarations width level project.kind.serializesFields declared
          project.elements) ∧
      List.Forall₂ (project.elements.IsAccessor width level) accessors
        (accessorDeclarations width level declared project.elements) ∧
      ((names ++ accessors).Nodup ↔
        ¬ project.elements.SharesScroll declared ∧
          ∀ fields ∈ project.elements.bound, fields.variableName ∉ declared →
            startsSmall fields.variableName) := by
  intro declared names accessors
  refine ⟨project.elements.isDeclaration_variableDeclarations width level _ declared,
    project.elements.isAccessor_accessorDeclarations width level declared, ?_⟩
  rw [List.nodup_append', nodup_writtenNames_iff, disjoint_accessorNames_iff hnames]
  exact and_congr_right fun _ => and_iff_right (nodup_accessorNames hnames hcase)

/-- An asset with a speed and, in a scroll view, a number. -/
def scrolledAsset : Project where
  name := "Foo"
  kind := .scriptableObject
  elements := [
    .leaf { widget := .slider, label := "A", variableName := "speed" },
    .group { widget := .scrollView, label := "S" }
      [.leaf { widget := .intField, label := "B", variableName := "itemCount" }]]

theorem bound_scrolledAsset : scrolledAsset.elements.bound =
    [{ widget := .slider, label := "A", variableName := "speed" },
      { widget := .intField, label := "B", variableName := "itemCount" }] := by
  simp [Forest.bound, Forest.flatten, scrolledAsset, Element.fields,
    ElementFields.needsVariable, Widget.hasNoVariable]

theorem members_apart_iff_scrolledAsset :
    let declared := declaredNames scrolledAsset.fieldDeclarations
    (∀ fields ∈ scrolledAsset.elements.bound, isName fields.variableName) ∧
      (∀ fields ∈ scrolledAsset.elements.bound, ∀ other ∈ scrolledAsset.elements.bound,
        ¬ DifferInCase fields.variableName other.variableName) ∧
      (writtenNames declared scrolledAsset.elements ++
        accessorNames declared scrolledAsset.elements).Nodup := by
  intro declared
  have hnames : ∀ fields ∈ scrolledAsset.elements.bound, isName fields.variableName := by
    rw [bound_scrolledAsset]
    decide
  have hcase : ∀ fields ∈ scrolledAsset.elements.bound, ∀ other ∈ scrolledAsset.elements.bound,
      ¬ DifferInCase fields.variableName other.variableName := by
    rw [bound_scrolledAsset]
    decide
  refine ⟨hnames, hcase, (scrolledAsset.members_apart_iff 4 1 hnames hcase).2.2.mpr ⟨?_, ?_⟩⟩
  · rintro ⟨-, -, hshared⟩
    rw [bound_scrolledAsset] at hshared
    exact absurd hshared (by decide)
  · rw [bound_scrolledAsset]
    decide

/-- An asset with a speed whose variable starts with a capital letter. -/
def capitalAsset : Project where
  name := "Foo"
  kind := .scriptableObject
  elements := [.leaf { widget := .slider, label := "A", variableName := "Speed" }]

/-- The variable of that asset and its accessor have one name. -/
theorem accessors_capitalAsset :
    (∀ fields ∈ capitalAsset.elements.bound, isName fields.variableName) ∧
      (∀ fields ∈ capitalAsset.elements.bound, ∀ other ∈ capitalAsset.elements.bound,
        ¬ DifferInCase fields.variableName other.variableName) ∧
      variableDeclarations 4 1 true [] capitalAsset.elements =
        ["    [SerializeField] private float Speed = 0.5f;".toList] ∧
      accessorDeclarations 4 1 [] capitalAsset.elements =
        ["    public float Speed => Speed;".toList] ∧
      ¬ (writtenNames [] capitalAsset.elements ++ accessorNames [] capitalAsset.elements).Nodup := by
  have hbound : capitalAsset.elements.bound =
      [{ widget := .slider, label := "A", variableName := "Speed" }] := by
    simp [Forest.bound, Forest.flatten, capitalAsset, Element.fields,
      ElementFields.needsVariable, Widget.hasNoVariable]
  have hscroll : capitalAsset.elements.hasScrollView = false := by
    simp [Forest.hasScrollView, Forest.flatten, capitalAsset, Element.widget, Element.fields]
  refine ⟨by rw [hbound]; decide, by rw [hbound]; decide, ?_, ?_, ?_⟩
  · simp only [variableDeclarations, hbound, hscroll]
    decide +kernel
  · simp only [accessorDeclarations, hbound]
    decide +kernel
  · simp only [writtenNames, accessorNames, hbound, hscroll]
    decide +kernel

end EditorScript
