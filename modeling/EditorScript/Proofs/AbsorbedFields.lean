import EditorScript.Imported.Absorption
import EditorScript.Proofs.Reaches
import EditorScript.Proofs.Place
import EditorScript.Proofs.StyleLook

/-!
# Absorbed declarations are written again

A declaration is absorbed when it declares an element's variable the way such
declarations are written.  The element is then declared again with the same
modifiers, the same type and the same name (`Project.absorb_redeclares`).  Its
initial value is the same for the widgets that keep any expression; the others
keep what they can hold (`ElementFields.Holds`).
-/

namespace EditorScript

open Pattern

/-- White space between the parts of a declaration. -/
def IsGap (gap : Text) : Prop :=
  ∀ c ∈ gap, isBlank c

/-- A declaration has the modifiers of an element's variable, its type and its name,
and gives it an initial value. -/
def ElementFields.Declares (serialized : Bool) (fields : ElementFields)
    (value declaration : Text) : Prop :=
  ∃ afterAttribute afterModifier afterType afterName afterSign afterValue : Text,
    declaration.trim =
      (if serialized then ("[SerializeField]" ++ afterAttribute : Text) else []) ++ "private" ++
        afterModifier ++ fields.variableType ++ afterType ++ fields.variableName ++ afterName ++
        "=" ++ afterSign ++ value ++ afterValue ++ ";" ∧
    (∀ gap ∈ [afterAttribute, afterModifier, afterType, afterName, afterSign, afterValue],
      IsGap gap) ∧
    afterModifier ≠ [] ∧ afterType ≠ [] ∧ value ≠ []

/-- What a widget can hold of an initial value: a foldout one of the two truth
values, a progress bar a number the way it writes it, a text the content of a literal,
and any other widget every expression. -/
def ElementFields.Holds (fields : ElementFields) (value : Text) : Prop :=
  match fields.widget with
  | .foldout => value = "true".toList ∨ value = "false".toList
  | .progressBar =>
    present? fields.defaultValue = none ∧
      ∃ number, readLiteralNumber? value = some number ∧ value = numberText number ++ ['f']
  | widget =>
    widget.keepsText →
      ∃ content, literalText? value = some content ∧ Text.startsWith content "\"" = false

namespace ElementFields

variable {serialized : Bool} {fields : ElementFields} {value declaration : Text}

/-- What is read of the attribute in front of a declaration. -/
theorem attribute_eq {place later : Position}
    (h : Reaches (if serialized then "[SerializeField]" ++ blanks else empty) place later) :
    ∃ gap, IsGap gap ∧ place.after =
      (if serialized then ("[SerializeField]" ++ gap : Text) else []) ++ later.after := by
  cases serialized with
  | false =>
    cases h
    exact ⟨[], List.forall_mem_nil _, rfl⟩
  | true =>
    obtain ⟨_, hword, hgap⟩ := h.append
    obtain ⟨gap, hgap, hblank⟩ := hgap.blanks_eq
    exact ⟨gap, hblank, by rw [hword.text_eq, hgap, if_pos rfl, List.append_assoc]⟩

/-- An initial value is read off only from a declaration of the element's variable. -/
theorem declares_of_initializer?
    (h : fields.initializer? serialized declaration = some value) :
    fields.Declares serialized value declaration := by
  obtain ⟨position, hmatch, rfl⟩ := Option.map_eq_some_iff.mp h
  obtain ⟨later, hreaches, heq⟩ := run_sound hmatch
  obtain rfl := Option.some.inj heq
  obtain ⟨behind, hreaches, hending⟩ := hreaches.append
  obtain ⟨_, hreaches, hsemicolon⟩ := hreaches.append
  obtain ⟨_, hreaches, hafterValue⟩ := hreaches.append
  obtain ⟨_, hreaches, hvalue⟩ := hreaches.append
  obtain ⟨_, hreaches, hafterSign⟩ := hreaches.append
  obtain ⟨_, hreaches, hsign⟩ := hreaches.append
  obtain ⟨_, hreaches, hafterName⟩ := hreaches.append
  obtain ⟨_, hreaches, hname⟩ := hreaches.append
  obtain ⟨_, hreaches, hafterType⟩ := hreaches.append
  obtain ⟨_, hreaches, htype⟩ := hreaches.append
  obtain ⟨_, hreaches, hafterModifier⟩ := hreaches.append
  obtain ⟨_, hattribute, hmodifier⟩ := hreaches.append
  obtain ⟨attributeGap, hattributeGap, hfront⟩ := attribute_eq hattribute
  obtain ⟨modifierGap, hmodifierNe, hmodifierEq, hmodifierGap⟩ := hafterModifier.many1_eq
  obtain ⟨typeGap, htypeNe, htypeEq, htypeGap⟩ := hafterType.many1_eq
  obtain ⟨nameGap, hnameEq, hnameGap⟩ := hafterName.blanks_eq
  obtain ⟨signGap, hsignEq, hsignGap⟩ := hafterSign.blanks_eq
  obtain ⟨valueGap, hvalueEq, hvalueGap⟩ := hafterValue.blanks_eq
  obtain ⟨value, hvalueText, hvalueCapture, _, hvalueRun, hvalueAfter⟩ := hvalue.capture_eq rfl
  obtain ⟨taken, htakenNe, htakenEq, -⟩ := hvalueRun.many1_eq
  have hend : behind.after = [] := by
    cases hending with
    | check hempty => exact List.isEmpty_iff.mp hempty
  have hne : value ≠ [] := by
    rw [hvalueText, hvalueAfter] at htakenEq
    rw [List.append_cancel_right htakenEq]
    exact htakenNe
  have hcaptured : later.captured "value" = value := by
    rw [Position.captured, Position.captured?, hending.captures_eq rfl,
      hsemicolon.captures_eq (remembersNothing_text _), hafterValue.captures_eq rfl, hvalueCapture]
    rfl
  refine ⟨attributeGap, modifierGap, typeGap, nameGap, signGap, valueGap, ?_, ?_, hmodifierNe,
    htypeNe, hcaptured ▸ hne⟩
  · rw [hmodifier.text_eq, hmodifierEq, htype.text_eq, htypeEq, hname.text_eq, hnameEq,
      hsign.text_eq, hsignEq, hvalueText, hvalueEq, hsemicolon.text_eq, hend,
      List.append_nil] at hfront
    rw [hcaptured]
    simpa only [List.append_assoc] using hfront
  · simp only [List.forall_mem_cons]
    exact ⟨hattributeGap, hmodifierGap, htypeGap, hnameGap, hsignGap, hvalueGap,
      List.forall_mem_nil _⟩

/-- An initial value changes neither the kind of an element nor its variable. -/
theorem withInitializer_frame (value : Text) (fields : ElementFields) :
    (fields.withInitializer value).widget = fields.widget ∧
      (fields.withInitializer value).variableName = fields.variableName ∧
      (fields.withInitializer value).objectType = fields.objectType ∧
      (fields.withInitializer value).isOpaque = fields.isOpaque := by
  unfold withInitializer
  split <;> exact ⟨rfl, rfl, rfl, rfl⟩

@[simp]
theorem variableName_withInitializer :
    (fields.withInitializer value).variableName = fields.variableName :=
  (withInitializer_frame value fields).2.1

theorem needsVariable_withInitializer :
    (fields.withInitializer value).needsVariable = fields.needsVariable := by
  obtain ⟨hwidget, -, -, hopaque⟩ := withInitializer_frame value fields
  rw [needsVariable, hwidget, hopaque, needsVariable]

theorem variableType_withInitializer :
    (fields.withInitializer value).variableType = fields.variableType := by
  obtain ⟨hwidget, -, htype, -⟩ := withInitializer_frame value fields
  rw [variableType, hwidget, htype, variableType]

/-- The initial value of an element that is neither a foldout nor a progress bar. -/
theorem initialValue_withInitializer_usual (hfoldout : fields.widget ≠ .foldout)
    (hprogress : fields.widget ≠ .progressBar) :
    (fields.withInitializer value).initialValue =
      match present? (some (if fields.widget.keepsText then (literalText? value).getD value
        else value)) with
      | some text =>
        if fields.widget.keepsText && !text.startsWith "\"" then quote text else text
      | none => fields.widget.usualValue := by
  unfold withInitializer
  split
  · contradiction
  · contradiction
  unfold initialValue
  dsimp only
  split
  · contradiction
  · contradiction
  · rfl

theorem usualValue_of_keepsText {widget : Widget} (h : widget.keepsText) :
    widget.usualValue = quote [] := by
  cases widget <;> first | decide | cases h

theorem present?_of_ne {text : Text} (h : text ≠ []) : present? (some text) = some text := by
  simp [present?, Option.filter, h]

/-- What a widget can hold is written again: as the same expression, or as a literal of
the same text. -/
theorem initialValue_withInitializer (hne : value ≠ []) (h : fields.Holds value) :
    (fields.withInitializer value).initialValue = value ∨
      ∃ content, literalText? value = some content ∧
        literalText? (fields.withInitializer value).initialValue = some content := by
  unfold Holds at h
  split at h
  · rename_i hwidget
    rcases h with rfl | rfl <;>
      exact .inl (by simp [withInitializer, initialValue, hwidget, boolText])
  · rename_i hwidget
    obtain ⟨hnone, number, hnumber, hvalue⟩ := h
    exact .inl (by simp [withInitializer, initialValue, hwidget, hnone, hnumber, ← hvalue])
  · rename_i hfoldout hprogress
    rw [initialValue_withInitializer_usual hfoldout hprogress]
    by_cases hkeeps : fields.widget.keepsText
    · obtain ⟨content, hcontent, hquote⟩ := h hkeeps
      refine .inr ⟨content, hcontent, ?_⟩
      rw [if_pos hkeeps, hcontent, Option.getD_some]
      by_cases hempty : content = []
      · subst hempty
        rw [show present? (some ([] : Text)) = none from rfl]
        exact (congrArg literalText? (usualValue_of_keepsText hkeeps)).trans
          (literalText?_quote [])
      · have hwritten : (fields.widget.keepsText && !content.startsWith "\"") = true := by
          rw [hkeeps, hquote]
          rfl
        rw [present?_of_ne hempty]
        dsimp only
        rw [if_pos hwritten, literalText?_quote]
    · rw [if_neg hkeeps, present?_of_ne hne]
      exact .inl (by simp [hkeeps])

end ElementFields

/-! ## What is absorbed -/

section

variable {serialized scrolls : Bool} {bound : List ElementFields} {done declarations : List Text}
  {name value declaration : Text}

/-- An absorbed declaration names the variable of an element and declares it. -/
theorem absorbed?_spec (h : absorbed? serialized bound done declaration = some (name, value)) :
    name ∉ done ∧ (fieldHead? declaration).map (·.name) = some name ∧
      ∃ fields, bound.find? (·.variableName = name) = some fields ∧
        fields.initializer? serialized declaration = some value := by
  obtain ⟨head, hhead, h⟩ := Option.bind_eq_some_iff.mp h
  split at h
  · cases h
  rename_i hdone
  obtain ⟨fields, hfind, h⟩ := Option.bind_eq_some_iff.mp h
  obtain ⟨found, hfound, heq⟩ := Option.map_eq_some_iff.mp h
  cases heq
  exact ⟨by simpa using hdone, by rw [hhead]; rfl, fields, hfind, hfound⟩

/-- Every absorbed variable has one declaration and one initial value. -/
theorem absorbDeclarations_spec
    (h : (name, value) ∈ (absorbDeclarations serialized scrolls bound done declarations).values) :
    name ∉ done ∧
      (absorbDeclarations serialized scrolls bound done declarations).values.lookup name =
        some value ∧
      ∃ declaration ∈ declarations, (fieldHead? declaration).map (·.name) = some name ∧
        ∃ fields, bound.find? (·.variableName = name) = some fields ∧
          fields.initializer? serialized declaration = some value := by
  fun_induction absorbDeclarations serialized scrolls bound done declarations with
  | case1 => cases h
  | case2 done declaration rest name' value' habsorbed others ih =>
    obtain ⟨hdone, hname, hfields⟩ := absorbed?_spec habsorbed
    rcases List.mem_cons.mp h with heq | h
    · cases heq
      exact ⟨hdone, by simp, declaration, List.mem_cons_self .., hname, hfields⟩
    · obtain ⟨hnew, hlookup, declaration', hmem, hspec⟩ := ih h
      obtain ⟨hne, hnew⟩ := not_or.mp (List.mem_cons.not.mp hnew)
      refine ⟨hnew, ?_, declaration', List.mem_cons_of_mem _ hmem, hspec⟩
      rw [List.lookup_cons, beq_eq_false_iff_ne.mpr hne]
      exact hlookup
  | case3 done declaration rest habsorbed others hscroll ih =>
    obtain ⟨hnew, hlookup, declaration', hmem, hspec⟩ := ih h
    exact ⟨hnew, hlookup, declaration', List.mem_cons_of_mem _ hmem, hspec⟩
  | case4 done declaration rest habsorbed others hscroll ih =>
    obtain ⟨hnew, hlookup, declaration', hmem, hspec⟩ := ih h
    exact ⟨hnew, hlookup, declaration', List.mem_cons_of_mem _ hmem, hspec⟩

end

/-! ## What is written again -/

/-- The first element of a variable that is not declared yet is the one declared. -/
theorem mem_firstBindings {declared : List Text} {bound : List ElementFields}
    {fields : ElementFields} (hnew : fields.variableName ∉ declared)
    (h : bound.find? (·.variableName = fields.variableName) = some fields) :
    fields ∈ firstBindings declared bound := by
  induction bound generalizing declared with
  | nil => cases h
  | cons other rest ih =>
    rw [List.find?_cons] at h
    rw [firstBindings]
    by_cases hname : other.variableName = fields.variableName
    · obtain rfl : other = fields := by simpa [hname] using h
      simp [hnew]
    · have h : rest.find? (·.variableName = fields.variableName) = some fields := by
        simpa [hname] using h
      split
      · exact ih hnew h
      · refine List.mem_cons_of_mem _ (ih ?_ h)
        simpa [Ne.symm hname] using hnew

/-- A change of all fields goes through to each element. -/
theorem Forest.fields_mapFields (change : ElementFields → ElementFields) (forest : Forest) :
    (forest.mapFields change).flatten.map (·.fields) =
      (forest.flatten.map (·.fields)).map change := by
  induction forest using Forest.shapeInduction with
  | nil => simp [Forest.mapFields, Forest.flatten]
  | leaf fields rest ih => simpa [Forest.mapFields, Forest.flatten, Element.fields] using ih
  | group fields children rest ihc ih =>
    simp only [Forest.mapFields, Forest.flatten, List.map_cons, List.map_append, ihc, ih]
    rfl

/-- A change that leaves it open which elements have a variable goes through to them. -/
theorem Forest.bound_mapFields {change : ElementFields → ElementFields}
    (hneeds : ∀ fields, (change fields).needsVariable = fields.needsVariable) (forest : Forest) :
    (forest.mapFields change).bound = forest.bound.map change := by
  rw [Forest.bound, Forest.fields_mapFields, Forest.bound, List.filter_map]
  congr 2
  funext fields
  exact hneeds fields

namespace Absorption

variable {absorption : Absorption} {fields : ElementFields}

theorem apply_frame :
    (absorption.apply fields).variableName = fields.variableName ∧
      (absorption.apply fields).needsVariable = fields.needsVariable := by
  unfold apply
  split
  · cases absorption.values.lookup fields.variableName with
    | none => exact ⟨rfl, rfl⟩
    | some value =>
      exact ⟨ElementFields.variableName_withInitializer,
        ElementFields.needsVariable_withInitializer⟩
  · exact ⟨rfl, rfl⟩

theorem find?_apply {bound : List ElementFields} {name : Text}
    (h : bound.find? (·.variableName = name) = some fields) :
    (bound.map absorption.apply).find? (·.variableName = name) =
      some (absorption.apply fields) := by
  have hsame : ((fun fields : ElementFields => decide (fields.variableName = name)) ∘
      absorption.apply) = fun fields => decide (fields.variableName = name) := by
    funext fields
    simp [apply_frame.1]
  rw [List.find?_map, hsame, h]
  rfl

end Absorption

/-- Every declaration that is absorbed, and whose variable no kept declaration has, is
written again for the changed elements: with its modifiers, its type and its name, and
with the same initial value wherever the widget can hold that. -/
theorem Project.absorb_redeclares (project : Project) (width level : Nat) (name value : Text)
    (h : (name, value) ∈ (absorbDeclarations project.kind.serializesFields
      project.elements.hasScrollView project.elements.bound [] project.fieldDeclarations).values)
    (hkept : name ∉ declaredNames project.absorb.fieldDeclarations) :
    ∃ declaration ∈ project.fieldDeclarations, ∃ fields ∈ project.elements.bound,
      ∃ updated ∈ project.absorb.elements.bound,
        fields.variableName = name ∧
        fields.Declares project.kind.serializesFields value declaration ∧
        updated = fields.withInitializer value ∧
        updated.variableType = fields.variableType ∧ updated.variableName = name ∧
        indentation width level ++ updated.declaration project.kind.serializesFields ∈
          variableDeclarations width level project.kind.serializesFields
            (declaredNames project.absorb.fieldDeclarations) project.absorb.elements ∧
        (fields.Holds value →
          updated.initialValue = value ∨
            ∃ content, literalText? value = some content ∧
              literalText? updated.initialValue = some content) := by
  obtain ⟨-, hlookup, declaration, hmem, -, fields, hfind, hvalue⟩ := absorbDeclarations_spec h
  obtain rfl : fields.variableName = name := by simpa using List.find?_some hfind
  have hbound : fields ∈ project.elements.bound := List.mem_of_find?_eq_some hfind
  have hneeds : fields.needsVariable := (List.mem_filter.mp hbound).2
  have hdeclares := ElementFields.declares_of_initializer? hvalue
  set absorption := absorbDeclarations project.kind.serializesFields
    project.elements.hasScrollView project.elements.bound [] project.fieldDeclarations
    with habsorption
  have happly : absorption.apply fields = fields.withInitializer value := by
    simp [Absorption.apply, hneeds, hlookup]
  have helements : project.absorb.elements.bound =
      project.elements.bound.map absorption.apply :=
    Forest.bound_mapFields (fun _ => Absorption.apply_frame.2) project.elements
  have hupdated : project.absorb.elements.bound.find?
      (·.variableName = (fields.withInitializer value).variableName) =
        some (fields.withInitializer value) := by
    rw [helements, ← happly, Absorption.apply_frame.1]
    exact Absorption.find?_apply hfind
  obtain ⟨-, -, -, -, -, -, -, -, -, -, hne⟩ := hdeclares
  refine ⟨declaration, hmem, fields, hbound, fields.withInitializer value,
    List.mem_of_find?_eq_some hupdated, rfl, ElementFields.declares_of_initializer? hvalue, rfl,
    ElementFields.variableType_withInitializer, ElementFields.variableName_withInitializer, ?_,
    ElementFields.initialValue_withInitializer hne⟩
  refine List.mem_append_left _ (List.mem_map.mpr ⟨_, mem_firstBindings ?_ hupdated, rfl⟩)
  rwa [ElementFields.variableName_withInitializer]

/-- A foldout with a variable. -/
def openFoldout : ElementFields where
  widget := .foldout
  label := "F"
  variableName := "open"

/-- A window with that foldout and a declaration. -/
def foldoutWindow (declaration : Text) : Project where
  name := "Foo"
  elements := [.group openFoldout []]
  fieldDeclarations := [declaration]

variable {declaration value : Text}

/-- The declaration in that window is absorbed when it is one of the foldout's variable. -/
theorem values_foldoutWindow (hhead : fieldHead? declaration = some ⟨"bool", "open"⟩)
    (hvalue : openFoldout.initializer? false declaration = some value) :
    absorbDeclarations (foldoutWindow declaration).kind.serializesFields
      (foldoutWindow declaration).elements.hasScrollView
      (foldoutWindow declaration).elements.bound []
      (foldoutWindow declaration).fieldDeclarations = ⟨[], [("open", value)]⟩ := by
  have hbound : (foldoutWindow declaration).elements.bound = [openFoldout] := by
    simp [Forest.bound, Forest.flatten, foldoutWindow, Element.fields, openFoldout,
      ElementFields.needsVariable, Widget.hasNoVariable]
  have hfind : [openFoldout].find? (·.variableName = "open".toList) = some openFoldout := rfl
  have habsorbed : absorbed? false [openFoldout] [] declaration =
      some ("open".toList, value) := by
    simp only [absorbed?, hhead, Option.bind_some, List.contains_nil, Bool.false_eq_true,
      if_false, hfind, hvalue, Option.map_some]
  have hkind : (foldoutWindow declaration).kind.serializesFields = false := rfl
  have hdeclarations : (foldoutWindow declaration).fieldDeclarations = [declaration] := rfl
  simp only [hbound, hkind, hdeclarations, absorbDeclarations, habsorbed]

/-- What is left of that window when its declaration is absorbed. -/
theorem absorb_foldoutWindow (hhead : fieldHead? declaration = some ⟨"bool", "open"⟩)
    (hvalue : openFoldout.initializer? false declaration = some value) :
    (foldoutWindow declaration).absorb.fieldDeclarations = [] ∧
      (foldoutWindow declaration).absorb.elements =
        [.group { openFoldout with foldoutDefault := some (value == "true".toList) } []] := by
  have haccessors : (foldoutWindow declaration).kind.hasAccessors = false := rfl
  unfold Project.absorb
  simp only [values_foldoutWindow hhead hvalue, haccessors]
  exact ⟨rfl, by simp [foldoutWindow, Forest.mapFields, Absorption.apply, openFoldout,
    ElementFields.needsVariable, Widget.hasNoVariable, ElementFields.withInitializer]⟩

/-- The declaration of the foldout's variable with a call as its initial value. -/
def storedDeclaration : Text := "private bool open = EditorPrefs.GetBool(\"open\");"

/-- A call as the initial value of a foldout's variable is lost: the variable is
declared again with another value. -/
theorem absorb_foldout_call :
    (foldoutWindow storedDeclaration).absorb.fieldDeclarations = [] ∧
      variableDeclarations 4 1 false
          (declaredNames (foldoutWindow storedDeclaration).absorb.fieldDeclarations)
          (foldoutWindow storedDeclaration).absorb.elements =
        ["    private bool open = false;".toList] := by
  have hhead : fieldHead? storedDeclaration = some ⟨"bool", "open"⟩ := by decide +kernel
  have hvalue : openFoldout.initializer? false storedDeclaration =
      some "EditorPrefs.GetBool(\"open\")".toList := by decide +kernel
  obtain ⟨hkept, helements⟩ := absorb_foldoutWindow hhead hvalue
  refine ⟨hkept, ?_⟩
  rw [hkept, helements]
  simp only [variableDeclarations, Forest.bound, Forest.hasScrollView, Forest.flatten,
    List.map_cons, List.map_nil, List.append_nil, Element.fields, declaredNames,
    List.filterMap_nil, List.any_cons, List.any_nil]
  decide +kernel

/-- The declaration of the foldout's variable as it is written. -/
def openDeclaration : Text := "private bool open = true;"

theorem absorb_redeclares_foldout :
    ("open".toList, "true".toList) ∈ (absorbDeclarations
        (foldoutWindow openDeclaration).kind.serializesFields
        (foldoutWindow openDeclaration).elements.hasScrollView
        (foldoutWindow openDeclaration).elements.bound []
        (foldoutWindow openDeclaration).fieldDeclarations).values ∧
      "open".toList ∉ declaredNames (foldoutWindow openDeclaration).absorb.fieldDeclarations ∧
      ∃ updated ∈ (foldoutWindow openDeclaration).absorb.elements.bound,
        "    ".toList ++ updated.declaration false ∈
          variableDeclarations 4 1 false
            (declaredNames (foldoutWindow openDeclaration).absorb.fieldDeclarations)
            (foldoutWindow openDeclaration).absorb.elements := by
  have hhead : fieldHead? openDeclaration = some ⟨"bool", "open"⟩ := by decide +kernel
  have hvalue : openFoldout.initializer? false openDeclaration = some "true".toList := by
    decide +kernel
  have habsorbed : ("open".toList, "true".toList) ∈ (absorbDeclarations
      (foldoutWindow openDeclaration).kind.serializesFields
      (foldoutWindow openDeclaration).elements.hasScrollView
      (foldoutWindow openDeclaration).elements.bound []
      (foldoutWindow openDeclaration).fieldDeclarations).values := by
    rw [values_foldoutWindow hhead hvalue]
    exact List.mem_cons_self ..
  have hkept : "open".toList ∉
      declaredNames (foldoutWindow openDeclaration).absorb.fieldDeclarations := by
    rw [(absorb_foldoutWindow hhead hvalue).1]
    exact List.not_mem_nil
  obtain ⟨_, -, _, -, updated, hmem, -, -, -, -, -, hdeclared, -⟩ :=
    Project.absorb_redeclares (foldoutWindow openDeclaration) 4 1 _ _ habsorbed hkept
  exact ⟨habsorbed, hkept, updated, hmem, hdeclared⟩

end EditorScript
