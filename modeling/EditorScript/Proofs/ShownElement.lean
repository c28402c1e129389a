import EditorScript.Proofs.NumberReading
import EditorScript.Proofs.ShownStatement

/-!
# Elements of one statement

Every plain element that is written as one statement is read back from it with the
fields that the statement shows.
-/

namespace EditorScript

open CallShape

namespace ElementFields

variable {fields : ElementFields} {kind : ScriptKind}

theorem Plain.avoids_label (h : fields.Plain) : Avoids containerCalls fields.label :=
  h.texts _ (by simp [ElementFields.texts])

theorem Plain.isName_variableName (h : fields.Plain)
    (hwidget : fields.widget.hasNoVariable = false) : isName fields.variableName :=
  h.variableName (by simp [needsVariable, h.known, hwidget])

/-! ## Fields with a label and a variable -/

/-- The call of a field in the form in which it is read. -/
theorem valueCall_eq (fields : ElementFields) (call : String) (arguments : List Text) :
    fields.valueCall call arguments =
      valueStatement call fields.variableName fields.label
        (commaEach arguments ++ ");".toList) := by
  have hfront : (" = EditorGUILayout." : Text) =
      " = ".toList ++ ("EditorGUILayout".toList ++ ".".toList) := by decide
  have hopen : ("(" : Text) = ['('] := rfl
  unfold valueCall valueStatement
  rw [hfront, hopen, List.cons_append, List.singleton_append, join_comma_cons]
  simp [commaEach]

theorem avoids_valueFront : ∀ entry ∈ valueCalls,
    Avoids containerCalls (" = EditorGUILayout.".toList ++ entry.1.toList) := by
  decide +kernel

theorem fits_value (call : String) {name : Text} (hname : isName name) (label rest : Text) :
    Fits (Sketch.value call) (valueStatement call name label rest) := by
  have hfront : (" = EditorGUILayout." : Text) =
      " = ".toList ++ ("EditorGUILayout".toList ++ ".".toList) := by decide
  have hassoc : ∀ first second third text : Text, (first ++ (second ++ third)) ++ text =
      first ++ (second ++ (third ++ text)) := by simp
  have hrest : Fits [.char '(', .rest] ('(' :: (quote label ++ ',' :: ' ' :: (name ++ rest))) :=
    .char .rest
  unfold Sketch.value valueStatement
  refine Fits.name_append ?_ hname
  rw [← hassoc, ← hfront, List.append_assoc]
  exact (hrest.known_append _).known_append _

/-- A call of a field is read as what its shape recognises. -/
theorem shows_valueCall (h : fields.Plain) (hbound : fields.widget.hasNoVariable = false)
    {call : String} {count : Nat} (hentry : (call, count) ∈ valueCalls) {shape : CallShape}
    (hshape : CallShape.all[count]? = some shape) {arguments : List Text}
    (harguments : ∀ argument ∈ arguments, Avoids containerCalls argument)
    (hneutral : Neutral (fields.valueCall call arguments)) {shown : ElementFields}
    (hrecognise : shape.recognise? (valueStatement call fields.variableName fields.label
      (commaEach arguments ++ ");".toList)) = some shown)
    (hwidget : shown.widget ≠ .textArea) : Shows (fields.valueCall call arguments) shown := by
  have hname := h.isName_variableName hbound
  have hcode := fields.valueCall_eq call arguments
  have hend : fields.valueCall call arguments = (fields.variableName ++ " = EditorGUILayout." ++
      call ++ "(" ++ Text.join ", " ([quote fields.label, fields.variableName] ++ arguments)) ++
        ");".toList := rfl
  refine shows_of_sketch hshape (rulesOut_value _ hentry) ?_ ?_ ?_ ?_ hwidget
  · rw [hcode]
    exact fits_value call hname _ _
  · rw [hcode]
    exact hrecognise
  · refine statement_of_call hneutral ?_ ⟨_, hend.symm⟩
    rw [hcode]
    exact head?_name_append hname _
  · have hfront := (avoids_name hname).append_of_head (avoids_valueFront _ hentry)
      (by rintro c ⟨⟩; decide)
    have hall : ∀ argument ∈ [quote fields.label, fields.variableName] ++ arguments,
        Avoids containerCalls argument :=
      List.forall_mem_append.mpr ⟨List.forall_mem_cons.mpr ⟨avoids_quote h.avoids_label,
        List.forall_mem_singleton.mpr (avoids_name hname)⟩, harguments⟩
    rw [hend]
    simpa only [List.append_assoc] using avoids_call hfront hall

/-- A field without further arguments. -/
theorem shows_simple (h : fields.Plain) (hbound : fields.widget.hasNoVariable = false)
    {call shapeName : String} {count : Nat} (hentry : (call, count) ∈ valueCalls)
    (hshape : CallShape.all[count]? = some (simple shapeName call fields.widget))
    (hneutral : Neutral (fields.valueCall call [])) (hwidget : fields.widget ≠ .textArea) :
    Shows (fields.valueCall call []) fields.onlyBound :=
  shows_valueCall h hbound hentry hshape (List.forall_mem_nil _) hneutral
    (recognise?_simple shapeName call fields.widget (h.isName_variableName hbound) fields.label)
    hwidget

theorem shows_toggle (h : fields.Plain) (hwidget : fields.widget = .toggle)
    (hneutral : Neutral (fields.valueCall "Toggle" [])) :
    Shows (fields.valueCall "Toggle" []) fields.onlyBound := by
  have hbound : fields.widget.hasNoVariable = false := by rw [hwidget]; rfl
  have hread := recognise?_toggle (h.isName_variableName hbound) fields.label
  have hentry : ("Toggle", 8) ∈ valueCalls := by decide
  have hkind : fields.widget ≠ .textArea := by rw [hwidget]; decide
  rw [← hwidget] at hread
  exact shows_valueCall h hbound hentry rfl (List.forall_mem_nil _) hneutral hread hkind

/-! ## Limits -/

theorem Plain.slider_limit (h : fields.Plain) (hwidget : fields.widget = .slider)
    {limit : Option Binary64} (hlimit : ∀ set ∈ limit, set ∈ fields.limits) (usual : Binary64)
    (husual : usual.isFinite ∧ 'e' ∉ numberText usual) :
    (limit.getD usual).isFinite ∧ 'e' ∉ numberText (limit.getD usual) := by
  cases limit with
  | none => exact husual
  | some limit => exact h.sliderLimits hwidget limit (hlimit limit rfl)

/-- The text of a limit keeps clear of the names of containers. -/
theorem avoids_number {text : Text} {value : Binary64} (h : ShowsNumber text value)
    (suffix : Text) (hsuffix : 'G' ∉ suffix) : Avoids containerCalls (text ++ suffix) := by
  refine avoids_of_notMem_G fun hmem => ?_
  rcases List.mem_append.mp hmem with hmem | hmem
  · rcases h.mem_cases hmem with hdigit | heq | heq
    · exact absurd hdigit (by decide)
    · exact absurd heq (by decide)
    · exact absurd heq (by decide)
  · exact hsuffix hmem

/-- A field with two limits. -/
theorem shows_limited (h : fields.Plain) (hbound : fields.widget.hasNoVariable = false)
    {call shapeName : String} {count : Nat} (hentry : (call, count) ∈ valueCalls)
    (hshape : CallShape.all[count]? = some (limited shapeName call fields.widget))
    (hwidget : fields.widget ≠ .textArea) {low high : Text} {least most : Binary64}
    (hlow : ShowsNumber low least) (hhigh : ShowsNumber high most) {suffix : Text}
    (hsuffix : suffix = [] ∨ suffix = ['f'])
    (hneutral : Neutral (fields.valueCall call [low ++ suffix, high ++ suffix])) :
    Shows (fields.valueCall call [low ++ suffix, high ++ suffix])
      { fields.onlyBound with
        minValue := some least.withoutZeroSign
        maxValue := some most.withoutZeroSign } := by
  have hread := recognise?_limited shapeName call fields.widget (h.isName_variableName hbound)
    fields.label (hlow.isNumberLiteral hsuffix) (hhigh.isNumberLiteral hsuffix)
  rw [hlow.readLiteralNumber?_eq hsuffix, hhigh.readLiteralNumber?_eq hsuffix] at hread
  have hplain : 'G' ∉ suffix := by
    rcases hsuffix with rfl | rfl <;> decide
  refine shows_valueCall h hbound hentry hshape ?_ hneutral ?_ hwidget
  · exact List.forall_mem_cons.mpr ⟨avoids_number hlow suffix hplain,
      List.forall_mem_singleton.mpr (avoids_number hhigh suffix hplain)⟩
  · have hrest : commaEach [low ++ suffix, high ++ suffix] ++ ");".toList =
        ',' :: ' ' :: ((low ++ suffix) ++ ',' :: ' ' :: ((high ++ suffix) ++ ");".toList)) := by
      simp [commaEach]
    rw [hrest]
    exact hread

theorem shows_slider (h : fields.Plain) (hwidget : fields.widget = .slider)
    (hneutral : Neutral (fields.valueCall "Slider"
      [numberText (fields.minValue.getD (.ofInt 0)) ++ ['f'],
        numberText (fields.maxValue.getD (.ofInt 1)) ++ ['f']])) :
    Shows (fields.valueCall "Slider" [numberText (fields.minValue.getD (.ofInt 0)) ++ ['f'],
      numberText (fields.maxValue.getD (.ofInt 1)) ++ ['f']]) (fields.readBack kind) := by
  obtain ⟨hfinite, hplain⟩ := h.slider_limit hwidget mem_limits_minValue (.ofInt 0)
    (by decide +kernel)
  obtain ⟨hfinite', hplain'⟩ := h.slider_limit hwidget mem_limits_maxValue (.ofInt 1)
    (by decide)
  obtain ⟨least, hlow, hleast⟩ := Binary64.showsNumber_numberText hfinite hplain
  obtain ⟨most, hhigh, hmost⟩ := Binary64.showsNumber_numberText hfinite' hplain'
  have hbound : fields.widget.hasNoVariable = false := by rw [hwidget]; rfl
  have hentry : ("Slider", 6) ∈ valueCalls := by decide
  have hshape : CallShape.all[6]? = some (limited "slider" "Slider" fields.widget) := by
    rw [hwidget]
    rfl
  have hkind : fields.widget ≠ .textArea := by rw [hwidget]; decide
  have hshown := shows_limited h hbound hentry hshape hkind hlow hhigh (.inr rfl) hneutral
  rw [hleast, hmost] at hshown
  simpa only [readBack, hwidget] using hshown

/-- A limit over whole numbers is written as the part before its point. -/
theorem wholeLimit_eq {limit : Binary64} (h : limit.isFinite) :
    ∃ value text, wholeLimit limit = .ok text ∧ ShowsNumber text value ∧
      value.withoutZeroSign = limit.wholePart := by
  obtain ⟨value, hvalue⟩ := Option.isSome_iff_exists.mp (limit.isSome_toInt?.trans h)
  refine ⟨_, intText value, ?_, showsNumber_intText value, ?_⟩
  · rw [wholeLimit, hvalue]
  · rw [(Binary64.ofInt_toInt? h hvalue).2, Binary64.wholePart, hvalue]
    rfl

/-- A slider over whole numbers. -/
theorem shows_intSlider (h : fields.Plain) (hwidget : fields.widget = .intSlider) {width level : Nat}
    {kind : ScriptKind} {inner : List Text} :
    ∃ code, fields.lines width level kind inner = .ok [indentation width level ++ code] ∧
      (Neutral code → Shows code (fields.readBack kind)) := by
  have hleast := h.intSlider_limit hwidget mem_limits_minValue (.ofInt 0) (by decide)
  have hmost := h.intSlider_limit hwidget mem_limits_maxValue (.ofInt 100) (by decide +kernel)
  obtain ⟨least, low, hlow, hshown, hvalue⟩ := wholeLimit_eq hleast
  obtain ⟨most, high, hhigh, hshown', hvalue'⟩ := wholeLimit_eq hmost
  have hbound : fields.widget.hasNoVariable = false := by rw [hwidget]; rfl
  refine ⟨fields.valueCall "IntSlider" [low, high], ?_, fun hneutral => ?_⟩
  · simp only [lines, hwidget, hlow, hhigh]
    rfl
  · have hentry : ("IntSlider", 7) ∈ valueCalls := by decide
    have hshape : CallShape.all[7]? = some (limited "int-slider" "IntSlider" fields.widget) := by
      rw [hwidget]
      rfl
    have hkind : fields.widget ≠ .textArea := by rw [hwidget]; decide
    have hsuffix : ([] : Text) = [] ∨ ([] : Text) = ['f'] := .inl rfl
    have hread := shows_limited h hbound hentry hshape hkind hshown hshown' hsuffix
      (by rwa [List.append_nil, List.append_nil])
    rw [hvalue, hvalue', List.append_nil, List.append_nil] at hread
    simpa only [readBack, hwidget] using hread

end ElementFields

end EditorScript
