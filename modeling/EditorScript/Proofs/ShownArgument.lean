import EditorScript.Proofs.ShownElement
import EditorScript.Proofs.StyleArgument

/-!
# Elements with further arguments

Popups with their options, text fields with their style, and fields whose call is
cast to the type of their variable.
-/

namespace EditorScript

open CallShape

theorem styleBase_of_all {base : Text}
    (h : !base.isEmpty && base.all fun c => !isBlank c && c != ')') : StyleBase base := by
  rw [Bool.and_eq_true, Bool.not_eq_true', List.isEmpty_eq_false_iff] at h
  have hmem : ∀ c ∈ base, isBlank c = false ∧ c ≠ ')' := fun c hc => by
    simpa using List.all_eq_true.mp h.2 c hc
  exact {
    nonempty := h.1
    inLine := fun hline => absurd (hmem _ hline).1 (by decide)
    noParenthesis := fun hclose => (hmem _ hclose).2 rfl
    first := fun c hc => (hmem c (List.mem_of_mem_head? hc)).1
    last := fun c hc => (hmem c (List.mem_of_getLast? hc)).1 }

namespace ElementFields

variable {fields : ElementFields} {kind : ScriptKind}

theorem Plain.hasReadableStyle (h : fields.Plain) : fields.HasReadableStyle :=
  ⟨h.boxStyle, h.fontSize⟩

theorem foreign_containerCalls : Foreign containerCalls :=
  foreign_of_areForeign (by decide_cbv)

/-! ## Lists of strings -/

theorem stringArray_eq (items : List Text) :
    stringArray items =
      "new string[] \x7b".toList ++ (stringsInside items ++ "\x7d".toList) := by
  have hopening : ("new string[] \x7b " : Text) = "new string[] \x7b".toList ++ [' '] := by decide
  have hclosing : (" \x7d" : Text) = ' ' :: "\x7d".toList := by decide
  unfold stringArray stringsInside
  rw [hopening, hclosing]
  simp

theorem avoids_stringArray {items : List Text}
    (h : ∀ item ∈ items, Avoids containerCalls item) :
    Avoids containerCalls (stringArray items) := by
  have hback : isSeam containerCalls " \x7d".toList := by decide
  have hitems : ∀ item ∈ items.map quote, Avoids containerCalls item :=
    List.forall_mem_map.mpr fun item hitem => avoids_quote (h item hitem)
  have hend := (Avoids.join (by decide) hitems avoids_nil).seam hback avoids_nil
  rw [List.append_nil] at hend
  unfold stringArray
  rw [List.append_assoc]
  exact hend.front (by decide_cbv)

theorem avoids_listOr {usual : List Text} {items : Option (List Text)}
    (husual : ∀ item ∈ usual, Avoids containerCalls item)
    (h : ∀ item ∈ items.getD [], Avoids containerCalls item) :
    ∀ item ∈ listOr usual items, Avoids containerCalls item := by
  unfold listOr
  split
  · exact husual
  · exact husual
  · exact h

theorem Plain.avoids_options (h : fields.Plain) :
    ∀ option ∈ listOr ["Option 1", "Option 2"] fields.popupOptions,
      Avoids containerCalls option :=
  avoids_listOr (by decide +kernel) fun option hoption =>
    h.texts option (by simp [ElementFields.texts, hoption])

theorem shows_popup (h : fields.Plain) (hwidget : fields.widget = .popup)
    (hneutral : Neutral (fields.valueCall "Popup"
      [stringArray (listOr ["Option 1", "Option 2"] fields.popupOptions)])) :
    Shows (fields.valueCall "Popup"
      [stringArray (listOr ["Option 1", "Option 2"] fields.popupOptions)])
      (fields.readBack kind) := by
  have hbound : fields.widget.hasNoVariable = false := by rw [hwidget]; rfl
  have hread := recognise?_popup (h.isName_variableName hbound) fields.label
    (listOr ["Option 1", "Option 2"] fields.popupOptions)
  have hrest : ∀ options : List Text, ',' :: ' ' :: ("new string[] \x7b".toList ++
      (stringsInside options ++ "\x7d);".toList)) =
        commaEach [stringArray options] ++ ");".toList := by
    intro options
    have hend : "\x7d);".toList = "\x7d".toList ++ ");".toList := by decide
    rw [stringArray_eq, hend]
    simp [commaEach]
  rw [hrest] at hread
  have hshown : fields.readBack kind = { fields.onlyBound with
      popupOptions := some (listOr ["Option 1", "Option 2"] fields.popupOptions) } := by
    rw [readBack, hwidget]
  have hentry : ("Popup", 1) ∈ valueCalls := by decide
  rw [hshown]
  refine shows_valueCall h hbound hentry rfl
    (List.forall_mem_singleton.mpr (avoids_stringArray h.avoids_options)) hneutral ?_ ?_
  · rw [hread, onlyBound, hwidget]
  · rw [onlyBound, hwidget]
    decide

/-! ## Styles -/

theorem styledArguments_eq (arguments : List Text) (usual : Text) :
    fields.styledArguments arguments usual =
      Text.join ", " (arguments ++ (fields.style? usual).toList) := rfl

theorem commaEach_style (style : Option Text) :
    commaEach style.toList = styleSuffix style := by
  cases style with
  | none => rfl
  | some style => exact List.append_nil _

theorem shows_textField (h : fields.Plain) (hwidget : fields.widget = .textField)
    (hneutral : Neutral (fields.variableName ++ " = EditorGUILayout.TextField(" ++
      fields.styledArguments [quote fields.label, fields.variableName] "EditorStyles.textField" ++
        ");")) :
    Shows (fields.variableName ++ " = EditorGUILayout.TextField(" ++
      fields.styledArguments [quote fields.label, fields.variableName] "EditorStyles.textField" ++
        ");") (fields.readBack kind) := by
  have hfront : (" = EditorGUILayout.TextField(" : Text) =
      " = EditorGUILayout.".toList ++ ("TextField".toList ++ "(".toList) := by decide
  have hcode : fields.variableName ++ " = EditorGUILayout.TextField(" ++
      fields.styledArguments [quote fields.label, fields.variableName] "EditorStyles.textField" ++
        ");" = fields.valueCall "TextField" (fields.style? "EditorStyles.textField").toList := by
    rw [hfront, styledArguments_eq, valueCall]
    simp only [List.append_assoc]
  have hbound : fields.widget.hasNoVariable = false := by rw [hwidget]; rfl
  have husual : StyleBase "EditorStyles.textField" := styleBase_of_all (by decide)
  have hstyleable : fields.widget.isStyleable := by rw [hwidget]; rfl
  have hstyle : ∀ text ∈ fields.style? "EditorStyles.textField", CallArgument text :=
    fun _ => callArgument_style husual h.boxStyle
  have hlook : fields.onlyBound.Lookless := ⟨rfl, rfl, rfl, rfl⟩
  have happly := applyStyle?_style hlook hstyleable h.hasReadableStyle husual
  have hentry : ("TextField", 2) ∈ valueCalls := by decide
  rw [onlyBound, hwidget] at happly
  have hshown : fields.readBack kind = withLook
      { widget := .textField, label := fields.label, variableName := fields.variableName } fields
        "EditorStyles.textField" := by
    rw [readBack, onlyBound, hwidget]
  rw [hcode] at hneutral ⊢
  refine shows_valueCall h hbound hentry rfl ?_ hneutral ?_ ?_
  · intro style hstyle
    exact avoids_style foreign_containerCalls (by decide_cbv) h.boxStyle
      (Option.mem_toList.mp hstyle)
  · rw [commaEach_style, hshown]
    exact recognise?_textField (h.isName_variableName hbound) fields.label hstyle happly
  · rw [hshown]
    exact (by decide : Widget.textField ≠ Widget.textArea)

/-! ## Casts -/

theorem Plain.isDotted_variableType (h : fields.Plain)
    (hwidget : fields.widget = .objectField ∨ fields.widget = .enumPopup) :
    isDotted fields.variableType ∧ Avoids containerCalls fields.variableType := by
  have hset : ∀ usual : Text, isDotted usual → Avoids containerCalls usual →
      isDotted ((present? fields.objectType).getD usual) ∧
        Avoids containerCalls ((present? fields.objectType).getD usual) := by
    intro usual husual havoids
    cases htype : present? fields.objectType with
    | none => exact ⟨husual, havoids⟩
    | some type =>
      have hmem := eq_some_of_present? htype
      have hne : type.isEmpty = false := by
        simpa using Option.filter_eq_some_iff.mp htype |>.2
      refine ⟨?_, h.texts type (by simp [ElementFields.texts, hmem])⟩
      have hdotted := h.objectType type hmem
      rw [isDotted, Option.getD_some, hne]
      simpa [isDottedName, isNameChar] using hdotted
  rcases hwidget with hwidget | hwidget
  · rw [variableType, hwidget]
    exact hset "Object" (by decide) (by decide_cbv)
  · rw [variableType, hwidget]
    exact hset "Space" (by decide) (by decide)

theorem fits_cast (call : String) {name type : Text} (hname : isName name) (htype : isDotted type)
    (label rest : Text) : Fits (Sketch.cast call) (castStatement call name type label rest) := by
  have hopen : (" = (" : Text) = " = ".toList ++ ['('] := by decide
  have hfront : (")EditorGUILayout." : Text) =
      ')' :: ("EditorGUILayout".toList ++ ".".toList) := by decide
  have hrest : Fits [.char '(', .rest] ('(' :: (quote label ++ ',' :: ' ' :: (name ++ rest))) :=
    .char .rest
  have hcall := (hrest.known_append call.toList).known_append (")EditorGUILayout." : Text)
  have hdotted : ∀ c ∈ type, c ∈ '.' :: nameChars := by
    intro c hc
    rw [isDotted, Bool.and_eq_true, List.all_eq_true] at htype
    have hchar := htype.2 c hc
    rw [Bool.or_eq_true, beq_iff_eq] at hchar
    rcases hchar with hchar | rfl
    · exact List.mem_cons_of_mem _ (mem_nameChars hchar)
    · exact List.mem_cons_self
  have hcast := ((hcall.run_append hdotted).known_append (" = (" : Text)).name_append hname
  have hcode : name ++ (" = (".toList ++ (type ++ (")EditorGUILayout.".toList ++
      (call.toList ++ '(' :: (quote label ++ ',' :: ' ' :: (name ++ rest)))))) =
        castStatement call name type label rest := by
    rw [hopen, hfront, castStatement]
    simp
  rwa [hcode] at hcast

/-- A call with a cast is read as what its shape recognises. -/
theorem shows_cast (h : fields.Plain)
    (hwidget : fields.widget = .objectField ∨ fields.widget = .enumPopup)
    {call : String} {count : Nat} (hentry : (call, count) ∈ [("EnumPopup", 0), ("ObjectField", 12)])
    {shape : CallShape} (hshape : CallShape.all[count]? = some shape) {arguments : List Text}
    (harguments : ∀ argument ∈ arguments, Avoids containerCalls argument) {code : Text}
    (hcode : code = castStatement call fields.variableName fields.variableType fields.label
      (commaEach arguments ++ ");".toList))
    (hneutral : Neutral code) {shown : ElementFields} (hrecognise : shape.recognise? code = some shown)
    (hkind : shown.widget ≠ .textArea) : Shows code shown := by
  have hbound : fields.widget.hasNoVariable = false := by
    rcases hwidget with hwidget | hwidget <;> rw [hwidget] <;> rfl
  have hname := h.isName_variableName hbound
  obtain ⟨htype, havoids⟩ := h.isDotted_variableType hwidget
  have hcall : code = (fields.variableName ++ (" = (".toList ++ (fields.variableType ++
      (")EditorGUILayout.".toList ++ call.toList)))) ++ ("(".toList ++ (Text.join ", "
        ([quote fields.label, fields.variableName] ++ arguments) ++ ");".toList)) := by
    have hopen : " = (".toList = " = ".toList ++ ['('] := by decide
    have hfront : ")EditorGUILayout.".toList =
        ')' :: ("EditorGUILayout".toList ++ ".".toList) := by decide
    have hparen : "(".toList = ['('] := rfl
    have hjoin : Text.join ", " ([quote fields.label, fields.variableName] ++ arguments) =
        quote fields.label ++ commaEach (fields.variableName :: arguments) :=
      join_comma_cons _ _
    rw [hcode, hjoin, hopen, hfront, hparen]
    simp [castStatement, commaEach]
  have hcallName : Avoids containerCalls (")EditorGUILayout.".toList ++ call.toList) ∧
      isSeam containerCalls " = (".toList := by
    simp only [List.mem_cons, Prod.mk.injEq, List.not_mem_nil, or_false] at hentry
    rcases hentry with ⟨rfl, -⟩ | ⟨rfl, -⟩ <;> decide_cbv
  refine shows_of_sketch hshape (rulesOut_cast _ hentry) ?_ hrecognise ?_ ?_ hkind
  · rw [hcode]
    exact fits_cast call hname htype _ _
  · refine statement_of_call hneutral ?_ (hcall ▸ callEnd_suffix _ _)
    rw [hcode]
    exact head?_name_append hname _
  · have hall : ∀ argument ∈ [quote fields.label, fields.variableName] ++ arguments,
        Avoids containerCalls argument :=
      List.forall_mem_append.mpr ⟨List.forall_mem_cons.mpr ⟨avoids_quote h.avoids_label,
        List.forall_mem_singleton.mpr (avoids_name hname)⟩, harguments⟩
    have hfront := havoids.append_of_head hcallName.1 (by rintro c ⟨⟩; decide)
    rw [hcall]
    exact avoids_call ((avoids_name hname).seam hcallName.2 hfront) hall

theorem shows_enumPopup (h : fields.Plain) (hwidget : fields.widget = .enumPopup)
    (hneutral : Neutral (fields.variableName ++ " = (" ++ fields.variableType ++
      ")EditorGUILayout.EnumPopup(" ++ quote fields.label ++ ", " ++ fields.variableName ++ ");")) :
    Shows (fields.variableName ++ " = (" ++ fields.variableType ++
      ")EditorGUILayout.EnumPopup(" ++ quote fields.label ++ ", " ++ fields.variableName ++ ");")
      (fields.readBack kind) := by
  have hopen : (" = (" : Text) = " = ".toList ++ ['('] := by decide
  have hfront : (")EditorGUILayout.EnumPopup(" : Text) = ')' :: ("EditorGUILayout".toList ++
      (".".toList ++ ("EnumPopup".toList ++ ['(']))) := by decide
  have hcomma : (", " : Text) = [',', ' '] := by decide
  have hcode : fields.variableName ++ " = (" ++ fields.variableType ++
      ")EditorGUILayout.EnumPopup(" ++ quote fields.label ++ ", " ++ fields.variableName ++ ");" =
        castStatement "EnumPopup" fields.variableName fields.variableType fields.label
          (commaEach [] ++ ");".toList) := by
    rw [hopen, hfront, hcomma, castStatement]
    simp [commaEach]
  have hshown : fields.readBack kind = { fields.onlyBound with
      objectType := some fields.variableType } := by
    rw [readBack, hwidget]
  have hbound : fields.widget.hasNoVariable = false := by rw [hwidget]; rfl
  obtain ⟨htype, -⟩ := h.isDotted_variableType (.inr hwidget)
  have hentry : ("EnumPopup", 0) ∈ [("EnumPopup", 0), ("ObjectField", 12)] := by decide
  refine shows_cast h (.inr hwidget) hentry rfl (List.forall_mem_nil _) hcode hneutral ?_ ?_
  · rw [hcode, hshown, onlyBound, hwidget]
    exact recognise?_enumPopup (h.isName_variableName hbound) htype fields.label
  · rw [hshown, onlyBound, hwidget]
    decide

theorem shows_objectField (h : fields.Plain) (hwidget : fields.widget = .objectField)
    (hneutral : Neutral (fields.variableName ++ " = (" ++ fields.variableType ++
      ")EditorGUILayout.ObjectField(" ++ Text.join ", " [quote fields.label, fields.variableName,
        "typeof(" ++ fields.variableType ++ ")",
        boolText (fields.allowSceneObjects.getD true)] ++ ");")) :
    Shows (fields.variableName ++ " = (" ++ fields.variableType ++
      ")EditorGUILayout.ObjectField(" ++ Text.join ", " [quote fields.label, fields.variableName,
        "typeof(" ++ fields.variableType ++ ")",
        boolText (fields.allowSceneObjects.getD true)] ++ ");") (fields.readBack kind) := by
  have hopen : (" = (" : Text) = " = ".toList ++ ['('] := by decide
  have hfront : (")EditorGUILayout.ObjectField(" : Text) = ')' :: ("EditorGUILayout".toList ++
      (".".toList ++ ("ObjectField".toList ++ ['(']))) := by decide
  have htypeof : ("typeof(" : Text) = "typeof".toList ++ ['('] := by decide
  have hclose : (")" : Text) = [')'] := rfl
  have hcode : fields.variableName ++ " = (" ++ fields.variableType ++
      ")EditorGUILayout.ObjectField(" ++ Text.join ", " [quote fields.label, fields.variableName,
        "typeof(" ++ fields.variableType ++ ")",
        boolText (fields.allowSceneObjects.getD true)] ++ ");" =
        castStatement "ObjectField" fields.variableName fields.variableType fields.label
          (commaEach ["typeof(" ++ fields.variableType ++ ")",
            boolText (fields.allowSceneObjects.getD true)] ++ ");".toList) := by
    rw [hopen, hfront, castStatement, join_comma_cons]
    simp [commaEach]
  have hshown : fields.readBack kind = { fields.onlyBound with
      objectType := some fields.variableType
      allowSceneObjects := some (fields.allowSceneObjects.getD true) } := by
    rw [readBack, hwidget]
  have hbound : fields.widget.hasNoVariable = false := by rw [hwidget]; rfl
  obtain ⟨htype, havoids⟩ := h.isDotted_variableType (.inl hwidget)
  have hclosing : isSeam containerCalls ")".toList := by decide
  have htypeofAvoids : Avoids containerCalls ("typeof(" ++ fields.variableType ++ ")") := by
    have hend := (havoids.seam hclosing avoids_nil).front
      (show isFront containerCalls "typeof(".toList by decide_cbv)
    simpa only [List.append_assoc, List.append_nil] using hend
  have hbool : ∀ allowed : Bool, Avoids containerCalls (boolText allowed) := by
    decide
  have hentry : ("ObjectField", 12) ∈ [("EnumPopup", 0), ("ObjectField", 12)] := by decide
  refine shows_cast h (.inl hwidget) hentry rfl ?_ hcode hneutral ?_ ?_
  · exact List.forall_mem_cons.mpr ⟨htypeofAvoids, List.forall_mem_singleton.mpr (hbool _)⟩
  · have hread := recognise?_objectField (h.isName_variableName hbound) htype fields.label
      (fields.allowSceneObjects.getD true)
    rw [hcode, hshown, onlyBound, hwidget, ← hread, htypeof, hclose]
    simp [commaEach]
  · rw [hshown, onlyBound, hwidget]
    decide

end ElementFields

end EditorScript
