import EditorScript.Model.Catalogue
import EditorScript.Proofs.Avoids
import EditorScript.Proofs.CallReading
import EditorScript.Proofs.Writable

/-!
# Plain forests

A forest is plain when nothing in it is kept as opaque code and everything that is
written without quotes has the shape that its place asks for.  Labels, messages,
options and tabs are arbitrary texts but for the names of the calls around
containers.
-/

namespace EditorScript

/-- The names by which the calls around containers are found. -/
def containerCalls : List Text :=
  ["GUILayout.Begin", "GUILayout.End", "EditorGUI.BeginDisabledGroup",
    "EditorGUI.EndDisabledGroup"]

namespace ElementFields

/-- The texts of an element. -/
def texts (fields : ElementFields) : List Text :=
  [fields.label, fields.variableName] ++
    [fields.defaultValue, fields.actionParam, fields.objectType, fields.disableCondition,
      fields.headerText, fields.boxStyle].flatMap Option.toList ++
    fields.popupOptions.getD [] ++ fields.tabs.getD []

/-- The limits of an element, as far as they are set. -/
def limits (fields : ElementFields) : List Binary64 :=
  fields.minValue.toList ++ fields.maxValue.toList

/-- What makes an element plain. -/
structure Plain (fields : ElementFields) : Prop where
  known : fields.isOpaque = false
  variableName : fields.needsVariable → isName fields.variableName
  objectType : ∀ type ∈ fields.objectType, isDottedName type
  spaceHeight : ∀ height ∈ fields.spaceHeight, 0 ≤ height
  fontSize : ∀ size ∈ fields.fontSize, 0 ≤ size
  sliderLimits : fields.widget = .slider → ∀ limit ∈ fields.limits,
    limit.isFinite ∧ 'e' ∉ numberText limit
  intSliderLimits : fields.widget = .intSlider → ∀ limit ∈ fields.limits, limit.isFinite
  tabs : ∀ tabs ∈ fields.tabs, ∀ tab ∈ tabs, '\n' ∉ tab
  condition : ∀ condition ∈ fields.disableCondition, isCondition condition
  buttonStyle : fields.widget = .button → present? fields.boxStyle = none ∧
    fields.fontSize.filter (· != 0) = none ∧ fields.fontStyle.filter (· != .normal) = none
  headerStyle : fields.widget = .header → present? fields.boxStyle = none
  boxStyle : ∀ style ∈ fields.boxStyle, style.all isWord
  code : fields.widget = .button → fields.action = some .customCode →
    ∀ code ∈ fields.actionParam,
      LexicallyClosed code ∧ ∀ c ∈ code, isBlank c → c = ' ' ∨ c = '\n'
  texts : ∀ text ∈ fields.texts, Avoids containerCalls text

/-- Whether the element is a button whose text is aligned. -/
def isAlignedButton (fields : ElementFields) : Bool :=
  fields.widget == .button && fields.alignment.isSome

theorem isDottedName_of_isName {name : Text} (h : isName name) : isDottedName name :=
  List.all_eq_true.mpr fun c hc => by
    have hchar : c.isAlphanum || c == '_' := isNameChar_of_mem h hc
    rw [Bool.or_eq_true]
    exact .inl hchar

/-- The fragments of plain elements stay within their braces. -/
theorem Plain.enclosed {fields : ElementFields} (h : fields.Plain) : fields.Enclosed where
  variableName hbound := isDottedName_of_isName (h.variableName hbound)
  objectType := h.objectType
  condition := h.condition
  tabs := h.tabs
  code hcode code hmem := by
    rcases hcode with hopaque | ⟨hwidget, haction⟩
    · exact absurd hopaque (by simp [h.known])
    · obtain ⟨hclosed, hblank⟩ := h.code hwidget haction code hmem
      refine ⟨fun htab => ?_, hclosed⟩
      rcases hblank _ htab (by decide) with heq | heq
      · exact absurd heq (by decide)
      · exact absurd heq (by decide)

theorem mem_limits_minValue {fields : ElementFields} : ∀ set ∈ fields.minValue, set ∈ fields.limits :=
  fun _ hset => List.mem_append_left _ (Option.mem_toList.mpr hset)

theorem mem_limits_maxValue {fields : ElementFields} : ∀ set ∈ fields.maxValue, set ∈ fields.limits :=
  fun _ hset => List.mem_append_right _ (Option.mem_toList.mpr hset)

theorem Plain.intSlider_limit {fields : ElementFields} (h : fields.Plain)
    (hwidget : fields.widget = .intSlider) {limit : Option Binary64}
    (hlimit : ∀ set ∈ limit, set ∈ fields.limits) (usual : Binary64) (husual : usual.isFinite) :
    (limit.getD usual).isFinite := by
  cases limit with
  | none => exact husual
  | some limit => exact h.intSliderLimits hwidget limit (hlimit limit rfl)

theorem Plain.isWritable {fields : ElementFields} (h : fields.Plain) : fields.isWritable :=
  isWritable_iff.mpr fun hwidget =>
    ⟨h.intSlider_limit hwidget mem_limits_minValue (.ofInt 0) (by decide),
      h.intSlider_limit hwidget mem_limits_maxValue (.ofInt 100) (by decide)⟩

end ElementFields

/-- What makes an element plain apart from its children: its fields, a list of
children exactly for containers, and no children of a group of tabs. -/
structure Element.Plain (element : Element) : Prop where
  fields : element.fields.Plain
  container : element.children?.isSome = element.widget.isLayout
  tabGroup : element.widget = .tabGroup → element.children = []

namespace Forest

/-- All elements of a forest, at every depth, are plain. -/
def Plain (forest : Forest) : Prop :=
  ∀ element ∈ forest.flatten, element.Plain

@[simp]
theorem plain_nil : Plain [] := by
  simp [Plain, flatten]

@[simp]
theorem plain_leaf_cons {fields : ElementFields} {rest : Forest} :
    Plain (.leaf fields :: rest) ↔
      fields.Plain ∧ fields.widget.isLayout = false ∧ Plain rest := by
  have hleaf : (Element.leaf fields).Plain ↔ fields.Plain ∧ fields.widget.isLayout = false :=
    ⟨fun h => ⟨h.fields, h.container.symm⟩, fun h => ⟨h.1, h.2.symm, fun _ => rfl⟩⟩
  simp only [Plain, flatten, List.forall_mem_cons, hleaf, and_assoc]

@[simp]
theorem plain_group_cons {fields : ElementFields} {children : List Element} {rest : Forest} :
    Plain (.group fields children :: rest) ↔
      fields.Plain ∧ fields.widget.isLayout ∧ (fields.widget = .tabGroup → children = []) ∧
        Plain children ∧ Plain rest := by
  have hgroup : (Element.group fields children).Plain ↔
      fields.Plain ∧ fields.widget.isLayout ∧ (fields.widget = .tabGroup → children = []) :=
    ⟨fun h => ⟨h.fields, h.container.symm, h.tabGroup⟩, fun h => ⟨h.1, h.2.1.symm, h.2.2⟩⟩
  simp only [Plain, flatten, List.forall_mem_cons, List.forall_mem_append, hgroup, and_assoc]

end Forest

end EditorScript
