import EditorScript.Proofs.ContainerReading

/-!
# What written statements rule out

The shapes are tried in a fixed order, so a statement is recognised by its own
shape only when all earlier ones fail on it.  That they do shows in a sketch of
the statement, and a table of the sketches with the shapes tried before their own
is checked by computing.
-/

namespace EditorScript

open Pattern

namespace Step

/-- The shapes that are tried before those of calls. -/
def earlierShapes : List Pattern :=
  text "/*" :: (boilerplateShapes ++ ContainerShape.all.map (·.begin) ++
    [foldoutCall, toolbarCall, buttonCall])

/-- Code that nothing before the calls takes for itself. -/
structure Ordinary (code : Text) : Prop where
  comment : code.startsWith "/*" = false
  boilerplate : isBoilerplate code = false
  container : ContainerShape.beginning? code = none
  foldout : foldoutCall.match? code = none
  toolbar : toolbarCall.match? code = none
  button : buttonCall.match? code = none

/-- A text that begins with another one matches its pattern. -/
theorem startsWith_eq_false {code content : Text} (h : (text content).match? code = none) :
    code.startsWith content = false := by
  rw [Bool.eq_false_iff]
  intro hstarts
  obtain ⟨rest, rfl⟩ := List.isPrefixOf_iff_prefix.mp hstarts
  have hrun : Gives ((text content).run some ⟨none, content ++ rest, []⟩) (fun _ => True) :=
    run_text (fun _ => ⟨_, rfl, trivial⟩) none
  obtain ⟨found, hfound, -⟩ := hrun
  rw [match?, matchAt, hfound] at h
  cases h

theorem isBoilerplate_eq_false {code : Text}
    (h : ∀ pattern ∈ boilerplateShapes, pattern.match? code = none) :
    isBoilerplate code = false := by
  rw [isBoilerplate, List.any_eq_false]
  intro pattern hpattern
  rw [accepts, h pattern hpattern]
  decide

theorem beginning?_eq_none {code : Text}
    (h : ∀ pattern ∈ ContainerShape.all.map (·.begin), pattern.match? code = none) :
    ContainerShape.beginning? code = none := by
  rw [ContainerShape.beginning?, List.findSome?_eq_none_iff]
  intro shape hshape
  rw [h shape.begin (List.mem_map.mpr ⟨shape, hshape, rfl⟩)]
  rfl

theorem ordinary_of_match?_none {code : Text}
    (h : ∀ pattern ∈ earlierShapes, pattern.match? code = none) : Ordinary code := by
  simp only [earlierShapes, List.forall_mem_cons, List.forall_mem_append] at h
  obtain ⟨hcomment, ⟨hboilerplate, hcontainer⟩, hfoldout, htoolbar, hbutton, -⟩ := h
  exact ⟨startsWith_eq_false hcomment, isBoilerplate_eq_false hboilerplate,
    beginning?_eq_none hcontainer, hfoldout, htoolbar, hbutton⟩

/-- The next code is no text area, so a label in front of it stands on its own. -/
def LabelSafe (rest : List Text) : Prop :=
  ∀ place code, firstCode? rest = some (place, code) →
    ∀ found, matchCall? code = some found → found.2.widget ≠ .textArea

theorem labelledTextArea?_eq_none {line : Text} {rest : List Text} (h : LabelSafe rest) :
    labelledTextArea? line rest = none := by
  unfold labelledTextArea?
  split
  · rename_i place code hlabel hcode
    split
    · rename_i name fields hcall
      exact if_neg (h place code hcode _ hcall)
    · rfl
  · rfl

/-- A call is taken as its element. -/
theorem next_of_call {line code : Text} {rest : List Text} {name : String}
    {fields : ElementFields} (hcode : codeOf line = code) (hne : code ≠ []) (h : Ordinary code)
    (hrest : LabelSafe rest) (hcall : matchCall? code = some (name, fields)) :
    next line rest = .take (.leaf fields) [] rest := by
  have hempty : code.isEmpty = false := by simpa using hne
  simp only [next, hcode, hempty, h.comment, h.boilerplate, container?, foldout?, tabGroup?,
    button?, call?, h.container, h.foldout, h.toolbar, h.button, hcall,
    labelledTextArea?_eq_none hrest, Option.map_none, Option.map_some, Option.bind_none,
    Option.or_none, Option.none_or, Option.getD_some, Bool.false_eq_true, if_false]

end Step

/-- The shapes of the first `count` calls. -/
def callsBefore (count : Nat) : List Pattern :=
  (CallShape.all.take count).map (·.pattern)

/-- The first shape that recognises a line gives its element. -/
theorem matchCall?_of_recognise {count : Nat} {shape : CallShape} {code : Text}
    {fields : ElementFields} (hshape : CallShape.all[count]? = some shape)
    (hfront : ∀ pattern ∈ callsBefore count, pattern.match? code = none)
    (h : shape.recognise? code = some fields) : matchCall? code = some (shape.name, fields) := by
  obtain ⟨hlength, hget⟩ := List.getElem?_eq_some_iff.mp hshape
  have hall : CallShape.all = CallShape.all.take count ++ shape :: CallShape.all.drop (count + 1) := by
    rw [← hget, List.getElem_cons_drop, List.take_append_drop]
  have hnone : (CallShape.all.take count).findSome? (fun other => (other.recognise? code).map
      fun fields => (other.name, fields)) = none := by
    rw [List.findSome?_eq_none_iff]
    intro other hother
    rw [CallShape.recognise?, hfront other.pattern (List.mem_map.mpr ⟨other, hother, rfl⟩)]
    rfl
  rw [matchCall?, hall, List.findSome?_append, hnone, List.findSome?_cons, h]
  rfl

/-- A style changes nothing but the look. -/
theorem ElementFields.widget_of_withStyle? {fields shown : ElementFields} {expression usual : Text}
    (h : fields.withStyle? expression usual = some shown) : shown.widget = fields.widget := by
  unfold ElementFields.withStyle? at h
  dsimp only at h
  split at h
  · cases h
  · cases h
    rfl

theorem ElementFields.widget_of_applyStyle? {fields shown : ElementFields}
    {expression : Option Text} {usual : Text}
    (h : fields.applyStyle? expression usual = some shown) : shown.widget = fields.widget := by
  unfold ElementFields.applyStyle? at h
  split at h
  · cases h
    rfl
  · cases h
    rfl
  · exact ElementFields.widget_of_withStyle? h

namespace CallShape

/-- Only the shape of text areas gives one. -/
theorem widget_ne_textArea : ∀ shape ∈ all, shape = textArea ∨ ∀ found fields,
    shape.fields? found = some fields → fields.widget ≠ .textArea := by
  have hfixed : ∀ {given fields : ElementFields}, some given = some fields →
      given.widget ≠ .textArea → fields.widget ≠ .textArea := by
    rintro given fields ⟨⟩ hwidget
    exact hwidget
  simp only [all, List.forall_mem_cons]
  refine ⟨?_, ?_, ?_, ?_, ?_, ?_, ?_, ?_, ?_, ?_, ?_, ?_, ?_, ?_, ?_, ?_, ?_, ?_, ?_, ?_, ?_, ?_,
    ?_, List.forall_mem_nil _⟩
  case refine_4 => exact .inl trivial
  all_goals
    right
    intro found fields h
  case refine_3 =>
    rw [ElementFields.widget_of_applyStyle? h]
    exact (by decide : Widget.textField ≠ .textArea)
  case refine_18 =>
    obtain ⟨severity, -, rfl⟩ := Option.map_eq_some_iff.mp h
    exact (by decide : Widget.helpBox ≠ .textArea)
  case refine_22 =>
    simp only [header] at h
    split at h
    · exact hfixed h (by decide : Widget.header ≠ .textArea)
    · rw [ElementFields.widget_of_withStyle? h]
      exact (by decide : Widget.header ≠ .textArea)
  case refine_23 =>
    rw [ElementFields.widget_of_applyStyle? h]
    exact (by decide : Widget.label ≠ .textArea)
  all_goals
    cases h
    intro hwidget
    cases hwidget

end CallShape

/-- What the shape of text areas does not fit is read as none. -/
theorem matchCall?_ne_textArea {code : Text}
    (hnone : CallShape.textArea.pattern.match? code = none) {found : String × ElementFields}
    (h : matchCall? code = some found) : found.2.widget ≠ .textArea := by
  obtain ⟨shape, hshape, hfound⟩ := List.exists_of_findSome?_eq_some h
  obtain ⟨fields, hfields, rfl⟩ := Option.map_eq_some_iff.mp hfound
  obtain ⟨place, hplace, hread⟩ := Option.bind_eq_some_iff.mp hfields
  rcases CallShape.widget_ne_textArea shape hshape with rfl | hwidget
  · rw [hnone] at hplace
    cases hplace
  · exact hwidget place fields hread

/-! ## The table -/

namespace Sketch

/-- Statements that give a variable a value from a call. -/
def value (call : String) : Sketch :=
  .run nameChars :: (known " = EditorGUILayout." ++ known call ++ [.char '(', .rest])

/-- Statements that give a variable a value from a call with a cast. -/
def cast (call : String) : Sketch :=
  .run nameChars :: (known " = (" ++ .run ('.' :: nameChars) ::
    (known ")EditorGUILayout." ++ known call ++ [.char '(', .rest]))

/-- Statements that begin with fixed characters. -/
def fixed (front : String) : Sketch :=
  known front ++ [.rest]

/-- Statements that give a variable a value and go on with fixed characters. -/
def assigned (front : String) : Sketch :=
  .run nameChars :: (known front ++ [.rest])

end Sketch

/-- The calls with a label and a variable, each with the number of calls that are
tried before it. -/
def valueCalls : List (String × Nat) :=
  [("Popup", 1), ("TextField", 2), ("TextArea", 3), ("IntField", 4), ("FloatField", 5),
    ("Slider", 6), ("IntSlider", 7), ("Toggle", 8), ("ColorField", 9), ("Vector2Field", 10),
    ("Vector3Field", 11), ("LayerField", 13), ("TagField", 14), ("CurveField", 15),
    ("GradientField", 16)]

theorem rulesOut_value : ∀ entry ∈ valueCalls,
    ∀ pattern ∈ Step.earlierShapes ++ callsBefore entry.2,
      pattern.rulesOut (Sketch.value entry.1) := by
  decide +kernel

theorem rulesOut_cast : ∀ entry ∈ [("EnumPopup", 0), ("ObjectField", 12)],
    ∀ pattern ∈ Step.earlierShapes ++ callsBefore entry.2,
      pattern.rulesOut (Sketch.cast entry.1) := by
  decide +kernel

theorem rulesOut_fixed :
    ∀ entry ∈ [("EditorGUILayout.HelpBox(", 17), ("EditorGUILayout.Space(", 18),
        ("EditorGUILayout.LabelField(", 19), ("EditorGUI.ProgressBar(", 20)],
      ∀ pattern ∈ Step.earlierShapes ++ callsBefore entry.2,
        pattern.rulesOut (Sketch.fixed entry.1) := by
  decide +kernel

theorem rulesOut_begin :
    ∀ front ∈ ["EditorGUILayout.BeginHorizontal(", "EditorGUILayout.BeginVertical(",
        "scrollPosition = EditorGUILayout.BeginScrollView(", "EditorGUI.BeginDisabledGroup("],
      ∀ pattern ∈ Step.earlierShapes.take 11 ++ [CallShape.textArea.pattern],
        pattern.rulesOut (Sketch.fixed front) := by
  decide_cbv

theorem rulesOut_foldout :
    ∀ pattern ∈ Step.earlierShapes.take 16 ++ [CallShape.textArea.pattern],
      pattern.rulesOut (Sketch.value "Foldout") := by
  decide +kernel

theorem rulesOut_toolbar :
    ∀ pattern ∈ Step.earlierShapes.take 17 ++ [CallShape.textArea.pattern],
      pattern.rulesOut (Sketch.assigned " = GUILayout.Toolbar(") := by
  decide +kernel

theorem rulesOut_button :
    ∀ pattern ∈ Step.earlierShapes.take 18 ++ [CallShape.textArea.pattern],
      pattern.rulesOut (Sketch.fixed "if (GUILayout.Button(") := by
  decide_cbv

end EditorScript
