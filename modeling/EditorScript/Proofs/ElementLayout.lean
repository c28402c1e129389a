import EditorScript.Proofs.MovedTexts
import EditorScript.Proofs.UnbrokenCode

/-!
# The layout of an element

An element writes the same items at every level: statements and fragments of code some
levels deeper than itself, and the texts of its children.  The first and the last item are
statements at its own level.
-/

namespace EditorScript

/-- What an element writes, apart from its level: a statement or a fragment of code some
levels deeper, or the texts of its children. -/
inductive Item where
  | statement (depth : Nat) (code : Text)
  | fragment (depth : Nat) (code : Text)
  | children

namespace Item

/-- The texts of an item in an element at a level. -/
def texts (width level : Nat) (inner : List Text) : Item → List Text
  | statement depth code => [indentation width (level + depth) ++ code]
  | fragment depth code => [Text.reindent (width * (level + depth)) code]
  | children => inner

theorem texts_statement (width level depth : Nat) (inner : List Text) (code : Text) :
    (statement depth code).texts width level inner = [indentation width (level + depth) ++ code] :=
  rfl

theorem texts_children (width level : Nat) (inner : List Text) :
    children.texts width level inner = inner :=
  rfl

/-- Statements stand on one line. -/
def Sound : Item → Prop
  | statement _ code => Inline code
  | fragment _ _ | children => True

/-- An item is written at a deeper level by moving its texts. -/
theorem texts_add {item : Item} (h : item.Sound) (width level more : Nat) (inner : List Text) :
    item.texts width (level + more) (inner.map (Text.moveRight (width * more))) =
      (item.texts width level inner).map (Text.moveRight (width * more)) := by
  have hwidth : ∀ depth, width * (level + more + depth) =
      width * more + width * (level + depth) := fun depth => by
    rw [← Nat.mul_add, Nat.add_left_comm, Nat.add_assoc]
  cases item with
  | statement depth code =>
    rw [texts, texts, List.map_singleton, indentation, indentation, hwidth,
      Text.moveRight_line h.blank_eq_false h.2.1]
  | fragment depth code =>
    rw [texts, texts, List.map_singleton, hwidth, Text.moveRight_reindent]
  | children => rfl

theorem tab_notMem_texts {item : Item} (h : item.Sound) {width level : Nat} {inner : List Text}
    (hinner : ∀ text ∈ inner, '\t' ∉ text) :
    ∀ text ∈ item.texts width level inner, '\t' ∉ text := by
  cases item with
  | statement depth code =>
    refine List.forall_mem_singleton.mpr fun hmem => h.2.2 ?_
    simpa [indentation, Text.spaces] using hmem
  | fragment depth code => exact List.forall_mem_singleton.mpr (Text.tab_notMem_reindent _ code)
  | children => exact hinner

end Item

/-- Sound items between two statements at the level of the element, or one such statement. -/
structure Framed (items : List Item) : Prop where
  sound : ∀ item ∈ items, item.Sound
  first : ∃ code rest, items = .statement 0 code :: rest
  last : ∃ front code, items = front ++ [.statement 0 code]

namespace Framed

theorem single {code : Text} (h : Inline code) : Framed [.statement 0 code] where
  sound := List.forall_mem_singleton.mpr h
  first := ⟨code, [], rfl⟩
  last := ⟨[], code, rfl⟩

theorem between {code final : Text} {items : List Item} (h : Inline code)
    (hitems : ∀ item ∈ items, item.Sound) (hfinal : Inline final) :
    Framed (.statement 0 code :: (items ++ [.statement 0 final])) where
  sound := List.forall_mem_cons.mpr
    ⟨h, List.forall_mem_append.mpr ⟨hitems, List.forall_mem_singleton.mpr hfinal⟩⟩
  first := ⟨code, _, rfl⟩
  last := ⟨.statement 0 code :: items, final, rfl⟩

end Framed

/-- At every level the same items are written, or the same error is given. -/
def LaidOut (written : Nat → Nat → List Text → Except EmissionError (List Text)) : Prop :=
  ∃ found : Except EmissionError (List Item),
    (∀ width level inner, written width level inner =
      found.map fun items => items.flatMap (Item.texts width level inner)) ∧
    ∀ items, found = .ok items → Framed items

namespace LaidOut

variable {written : Nat → Nat → List Text → Except EmissionError (List Text)}

theorem of_items {items : List Item} (h : Framed items) (hwritten : ∀ width level inner,
    written width level inner = .ok (items.flatMap (Item.texts width level inner))) :
    LaidOut written := by
  refine ⟨.ok items, hwritten, ?_⟩
  rintro _ ⟨⟩
  exact h

theorem of_error {error : EmissionError}
    (hwritten : ∀ width level inner, written width level inner = .error error) :
    LaidOut written := by
  refine ⟨.error error, hwritten, ?_⟩
  rintro _ ⟨⟩

theorem statement {code : Text} (h : Inline code) :
    LaidOut fun width level _ => .ok [indentation width level ++ code] :=
  of_items (.single h) fun _ _ _ => rfl

end LaidOut

namespace ElementFields

/-- The texts besides its variable that an element shows as they are: the type of an object
or a value of an enumeration, the condition of a group, the tabs of a tab group. -/
def rawTexts (fields : ElementFields) : List Text :=
  match fields.widget with
  | .objectField | .enumPopup => fields.objectType.toList
  | .disabledGroup => fields.disableCondition.toList
  | .tabGroup => fields.tabs.getD []
  | _ => []

/-- The variable of an element is a name, and the texts it shows as they are stand on one
line. -/
structure Movable (fields : ElementFields) : Prop where
  variableName : fields.needsVariable → IsVariableName fields.variableName
  raw : ∀ text ∈ fields.rawTexts, Unbroken text

instance (fields : ElementFields) : Decidable fields.Movable :=
  decidable_of_iff ((fields.needsVariable → IsVariableName fields.variableName) ∧
      ∀ text ∈ fields.rawTexts, Unbroken text)
    ⟨fun h => ⟨h.1, h.2⟩, fun h => ⟨h.variableName, h.raw⟩⟩

namespace Movable

variable {fields : ElementFields} (h : fields.Movable) (hknown : fields.isOpaque = false)
  (kind : ScriptKind)
include h

theorem unbroken_variableType : Unbroken fields.variableType := by
  have htype : fields.widget = .objectField ∨ fields.widget = .enumPopup →
      ∀ type ∈ fields.objectType, Unbroken type := by
    rintro hwidget type htype
    refine h.raw type ?_
    rcases hwidget with hwidget | hwidget <;> simpa [rawTexts, hwidget] using htype
  unfold variableType
  split
  · rename_i hwidget
    exact unbroken_present?_getD (htype (.inl hwidget)) (.literal (by decide))
  · rename_i hwidget
    exact unbroken_present?_getD (htype (.inr hwidget)) (.literal (by decide))
  · cases fields.widget <;> decide

theorem inline_groupCalls : Inline fields.groupCalls.1 ∧ Inline fields.groupCalls.2 := by
  unfold groupCalls
  split
  · exact ⟨.literal (by decide), .literal (by decide)⟩
  · exact ⟨.literal (by decide), .literal (by decide)⟩
  · rename_i hwidget
    have hcondition : Unbroken ((present? fields.disableCondition).getD "false") :=
      unbroken_present?_getD
        (fun text htext => h.raw text (by simpa [rawTexts, hwidget] using htext))
        (.literal (by decide))
    exact ⟨.around (.literal (by decide)) hcondition (.literal (by decide)),
      .literal (by decide)⟩
  · have hstyle : Unbroken ((fields.style? "\"box\"").getD "\"box\"") :=
      unbroken_style?_getD (.literal (by decide))
    exact ⟨.around (.literal (by decide)) hstyle (.literal (by decide)), .literal (by decide)⟩
  · exact ⟨.literal (by decide), .literal (by decide)⟩

include hknown in
theorem inline_variableName (hwidget : fields.widget.hasNoVariable = false) :
    Inline fields.variableName :=
  .of_isVariableName (h.variableName (by simp [needsVariable, hknown, hwidget]))

end Movable

section Widgets

variable {fields : ElementFields} (h : fields.Movable) (hknown : fields.isOpaque = false)
  (kind : ScriptKind)

/-- A button writes its condition, its block and the braces around. -/
theorem laidOut_button (hwidget : fields.widget = .button) :
    LaidOut fun width level inner => fields.lines width level kind inner := by
  have harguments : Unbroken (fields.styledArguments [quote fields.label] "\"button\"") :=
    unbroken_styledArguments (List.forall_mem_singleton.mpr (unbroken_quote _))
      (.literal (by decide))
  have hhead : Inline ("if (GUILayout.Button(" ++
      (fields.styledArguments [quote fields.label] "\"button\"" ++ "))")) :=
    .append (.literal (by decide)) (harguments.append (.literal (by decide)))
  obtain ⟨block, hblock, htexts⟩ : ∃ block : Item, block.Sound ∧ ∀ width level inner,
      block.texts width level inner = [fields.blockCode width (level + 1) kind] := by
    rcases fields.blockCode_cases kind with
      ⟨code, hcode, hcodes⟩ | ⟨code, -, -, -, hcodes⟩
    · exact ⟨.statement 1 code, hcode, fun _ _ _ => by rw [hcodes]; rfl⟩
    · exact ⟨.fragment 1 code, trivial, fun _ _ _ => by rw [hcodes]; rfl⟩
  have hbrace : Inline ['\x7b'] := by decide
  have hinside : ∀ item ∈ [.statement 0 ['\x7b'], block], item.Sound :=
    List.forall_mem_cons.mpr ⟨hbrace, List.forall_mem_singleton.mpr hblock⟩
  refine .of_items (.between hhead hinside (show Inline ['\x7d'] by decide))
    fun width level inner => ?_
  simp only [lines, hwidget, List.flatMap_cons, List.flatMap_append, List.flatMap_nil, htexts,
    Item.texts_statement, blockCode, List.append_assoc, Nat.add_zero]
  rfl

/-- A text area writes its label and its field. -/
theorem laidOut_textArea (hname : Inline fields.variableName)
    (hwidget : fields.widget = .textArea) :
    LaidOut fun width level inner => fields.lines width level kind inner := by
  have harguments : Unbroken (fields.styledArguments
      [fields.variableName, "GUILayout.Height(60)"] "EditorStyles.textArea") :=
    unbroken_styledArguments (List.forall_mem_cons.mpr
      ⟨hname.2, List.forall_mem_singleton.mpr (.literal (by decide))⟩) (.literal (by decide))
  have hlabel : Inline ("EditorGUILayout.LabelField(" ++ (quote fields.label ++ ");")) :=
    .append (.literal (by decide)) ((unbroken_quote _).append (.literal (by decide)))
  have hfield : Inline (fields.variableName ++ (" = EditorGUILayout.TextArea(" ++
      (fields.styledArguments [fields.variableName, "GUILayout.Height(60)"]
        "EditorStyles.textArea" ++ ");"))) :=
    hname.append (.append (.literal (by decide)) (harguments.append (.literal (by decide))))
  refine .of_items (.between hlabel (List.forall_mem_nil _) hfield) fun width level inner => ?_
  simp only [lines, hwidget, List.append_assoc]
  rfl

/-- A layout container writes the texts of its children between two statements. -/
theorem laidOut_group {written : Nat → Nat → List Text → Except EmissionError (List Text)}
    (h : Inline fields.groupCalls.1 ∧ Inline fields.groupCalls.2)
    (hwritten : ∀ width level inner, written width level inner =
      .ok ((indentation width level ++ fields.groupCalls.1) :: inner ++
        [indentation width level ++ fields.groupCalls.2])) : LaidOut written := by
  have hchildren : ∀ item ∈ [Item.children], item.Sound := List.forall_mem_singleton.mpr trivial
  refine .of_items (.between h.1 hchildren h.2) fun width level inner => ?_
  rw [hwritten]
  simp only [List.flatMap_cons, List.flatMap_append, List.flatMap_nil, Item.texts_children,
    List.append_nil]
  rfl

theorem laidOut_foldout (hname : Inline fields.variableName)
    (hwidget : fields.widget = .foldout) :
    LaidOut fun width level inner => fields.lines width level kind inner := by
  have hhead : Inline (fields.variableName ++ (" = EditorGUILayout.Foldout(" ++
      (fields.variableName ++ (", " ++ (quote fields.label ++ ", true);"))))) :=
    hname.append (.append (.literal (by decide)) (hname.2.append (.append (.literal (by decide))
      ((unbroken_quote _).append (.literal (by decide))))))
  have hcondition : Inline ("if (" ++ (fields.variableName ++ ")")) :=
    .append (.literal (by decide)) (hname.2.append (.literal (by decide)))
  have hinside : ∀ item ∈ ([.statement 0 ("if (" ++ (fields.variableName ++ ")")),
      .statement 0 ['\x7b'], .statement 1 "EditorGUI.indentLevel++;", .children,
      .statement 1 "EditorGUI.indentLevel--;"] : List Item), item.Sound := by
    simp only [List.forall_mem_cons, Item.Sound, List.not_mem_nil]
    exact ⟨hcondition, by decide, by decide, trivial, by decide, fun _ => False.elim⟩
  refine .of_items (.between hhead hinside (show Inline ['\x7d'] by decide))
    fun width level inner => ?_
  simp only [lines, hwidget, List.flatMap_cons, List.flatMap_append, List.flatMap_nil,
    Item.texts_statement, Item.texts_children, List.append_assoc, Nat.add_zero]
  rfl

/-- The empty cases of a switch over tabs, apart from their level. -/
def caseItems : Nat → List Text → List Item
  | _, [] => []
  | number, tab :: tabs =>
    .statement 1 ("case " ++ (natText number ++ (": // " ++ tab))) :: .statement 2 "break;" ::
      caseItems (number + 1) tabs

theorem tabCases_eq (width level number : Nat) (tabs inner : List Text) :
    tabCases width (level + 1) number tabs =
      (caseItems number tabs).flatMap (Item.texts width level inner) := by
  induction tabs generalizing number with
  | nil => rfl
  | cons tab tabs ih =>
    rw [tabCases, caseItems, List.flatMap_cons, List.flatMap_cons, ← ih, Item.texts_statement,
      Item.texts_statement]
    simp only [List.append_assoc]
    rfl

theorem sound_caseItems {tabs : List Text} (h : ∀ tab ∈ tabs, Unbroken tab) (number : Nat) :
    ∀ item ∈ caseItems number tabs, item.Sound := by
  induction tabs generalizing number with
  | nil => exact List.forall_mem_nil _
  | cons tab tabs ih =>
    rw [List.forall_mem_cons] at h
    have hcase : Inline ("case " ++ (natText number ++ (": // " ++ tab))) :=
      .append (.literal (by decide)) ((unbroken_numeral (numeral_natText number)).append
        (.append (.literal (by decide)) h.1))
    have hbreak : Inline "break;".toList := .literal (by decide)
    exact List.forall_mem_cons.mpr ⟨hcase, List.forall_mem_cons.mpr ⟨hbreak, ih h.2 _⟩⟩

include h in
theorem laidOut_tabGroup (hname : Inline fields.variableName)
    (hwidget : fields.widget = .tabGroup) :
    LaidOut fun width level inner => fields.lines width level kind inner := by
  have htabs : ∀ tab ∈ listOr ["Tab 1", "Tab 2"] fields.tabs, Unbroken tab := by
    have hraw := h.raw
    rw [rawTexts, hwidget] at hraw
    unfold listOr
    split
    · decide
    · decide
    · rename_i tabs _ hset
      rw [hset] at hraw
      exact hraw
  have hhead : Inline (fields.variableName ++ (" = GUILayout.Toolbar(" ++ (fields.variableName ++
      (", " ++ (stringArray (listOr ["Tab 1", "Tab 2"] fields.tabs) ++ ");"))))) :=
    hname.append (.append (.literal (by decide)) (hname.2.append (.append (.literal (by decide))
      ((unbroken_stringArray _).append (.literal (by decide))))))
  have hswitch : Inline ("switch (" ++ (fields.variableName ++ ")")) :=
    .append (.literal (by decide)) (hname.2.append (.literal (by decide)))
  have hbrace : Inline ['\x7b'] := by decide
  have hinside : ∀ item ∈ .statement 0 ("switch (" ++ (fields.variableName ++ ")")) ::
      .statement 0 ['\x7b'] :: caseItems 0 (listOr ["Tab 1", "Tab 2"] fields.tabs), item.Sound :=
    List.forall_mem_cons.mpr ⟨hswitch, List.forall_mem_cons.mpr ⟨hbrace,
      sound_caseItems htabs 0⟩⟩
  refine .of_items (.between hhead hinside (show Inline ['\x7d'] by decide))
    fun width level inner => ?_
  simp only [lines, hwidget, List.flatMap_cons, List.flatMap_append, List.flatMap_nil,
    tabCases_eq width level 0 _ inner, Item.texts_statement, List.append_assoc, Nat.add_zero]
  rfl

/-- A slider over whole numbers has no text when one of its limits has none. -/
theorem laidOut_intSlider (hname : Inline fields.variableName)
    (hwidget : fields.widget = .intSlider) :
    LaidOut fun width level inner => fields.lines width level kind inner := by
  simp only [lines, hwidget]
  cases hlow : wholeLimit (fields.minValue.getD (.ofInt 0)) with
  | error error => exact .of_error fun _ _ _ => rfl
  | ok low =>
    cases hhigh : wholeLimit (fields.maxValue.getD (.ofInt 100)) with
    | error error => exact .of_error fun _ _ _ => rfl
    | ok high =>
      have hlimits : ∀ argument ∈ [low, high], Unbroken argument :=
        List.forall_mem_cons.mpr ⟨unbroken_wholeLimit hlow,
          List.forall_mem_singleton.mpr (unbroken_wholeLimit hhigh)⟩
      exact .statement (inline_valueCall hname (.literal (by decide)) hlimits)

include h hknown in
/-- Every element that is not kept as code writes the same items at every level. -/
theorem laidOut_lines : LaidOut fun width level inner => fields.lines width level kind inner := by
  have hbound : fields.widget.hasNoVariable = false → Inline fields.variableName :=
    h.inline_variableName hknown
  have hlabel := unbroken_quote fields.label
  have hone : ∀ {argument : Text}, Unbroken argument → ∀ one ∈ [argument], Unbroken one :=
    List.forall_mem_singleton.mpr
  have htwo : ∀ {first second : Text}, Unbroken first → Unbroken second →
      ∀ one ∈ [first, second], Unbroken one :=
    fun hfirst hsecond => List.forall_mem_cons.mpr ⟨hfirst, hone hsecond⟩
  have htype := h.unbroken_variableType
  have hlimit : ∀ limit : Binary64, Unbroken (numberText limit ++ ['f']) := fun limit =>
    (unbroken_numeral (numeral_numberText limit)).append (by decide)
  cases hwidget : fields.widget <;>
    simp only [hwidget, Widget.hasNoVariable, forall_const] at hbound
  case button => exact laidOut_button kind hwidget
  case textArea => exact laidOut_textArea kind hbound hwidget
  case foldout => exact laidOut_foldout kind hbound hwidget
  case tabGroup => exact laidOut_tabGroup h kind hbound hwidget
  case intSlider => exact laidOut_intSlider kind hbound hwidget
  case horizontalGroup | verticalGroup | scrollView | disabledGroup | box =>
    exact laidOut_group h.inline_groupCalls fun _ _ _ => by simp only [lines, hwidget]
  all_goals simp only [lines, hwidget]
  case intField | floatField | toggle | colorField | vector2Field | vector3Field | layerField
      | tagField | curveField | gradientField =>
    exact .statement (inline_valueCall hbound (.literal (by decide)) (List.forall_mem_nil _))
  case slider =>
    exact .statement (inline_valueCall hbound (.literal (by decide)) (htwo (hlimit _) (hlimit _)))
  case popup =>
    exact .statement
      (inline_valueCall hbound (.literal (by decide)) (hone (unbroken_stringArray _)))
  case textField =>
    exact .statement ((hbound.append (.literal (by decide))).around
      (unbroken_styledArguments (htwo hlabel hbound.2) (.literal (by decide)))
      (.literal (by decide)))
  case label =>
    exact .statement (.around (.literal (by decide))
      (unbroken_styledArguments (hone hlabel) (.literal (by decide))) (.literal (by decide)))
  case objectField =>
    have htypeof : Unbroken ("typeof(" ++ fields.variableType ++ ")") :=
      .around (.literal (by decide)) htype (.literal (by decide))
    have harguments : Unbroken (Text.join ", " [quote fields.label, fields.variableName,
        "typeof(" ++ fields.variableType ++ ")",
        boolText (fields.allowSceneObjects.getD true)]) :=
      .join (.literal (by decide)) (List.forall_mem_cons.mpr ⟨hlabel, List.forall_mem_cons.mpr
        ⟨hbound.2, htwo htypeof (unbroken_boolText _)⟩⟩)
    exact .statement (((hbound.append (.literal (by decide))).around htype
      (.literal (by decide))).around harguments (.literal (by decide)))
  case enumPopup =>
    exact .statement ((((hbound.append (.literal (by decide))).around htype
      (.literal (by decide))).around hlabel (.literal (by decide))).around hbound.2
      (.literal (by decide)))
  case helpBox =>
    exact .statement (.around (.around (.literal (by decide)) (unbroken_quote _)
      (.literal (by decide))) (unbroken_name_severity _) (.literal (by decide)))
  case space =>
    exact .statement (.around (.literal (by decide)) (unbroken_numeral (numeral_intText _))
      (.literal (by decide)))
  case separator => exact .statement (.literal (by decide))
  case header =>
    exact .statement (.around (.around (.literal (by decide)) (unbroken_quote _)
      (.literal (by decide))) (unbroken_style?_getD (.literal (by decide)))
      (.literal (by decide)))
  case progressBar =>
    exact .statement (.around (.around (.literal (by decide)) hbound.2 (.literal (by decide)))
      hlabel (.literal (by decide)))

end Widgets

end ElementFields

end EditorScript
