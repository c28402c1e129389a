import EditorScript.Imported.File
import EditorScript.Proofs.CodeLine
import EditorScript.Proofs.DeclaredOnce
import EditorScript.Proofs.Dedenting
import EditorScript.Proofs.SavedProject
import EditorScript.Proofs.ShapeTable

/-!
# Recovered elements are well formed

Whatever is read, the elements of the project have children exactly when they are
layouts, a name for the variable they need, and, when they stand for code, that code
(`importFile_wellFormed`).  Each way to read a statement gives such elements, and
recovery puts them together as they are.
-/

namespace EditorScript

open Pattern

/-! ## Captured names -/

namespace Pattern

/-- Whether a pattern remembers nothing under a name. -/
def spares (name : String) : Pattern → Bool
  | seq first second | either first second => first.spares name && second.spares name
  | loop _ body => body.spares name
  | capture other body => other != name && body.spares name
  | empty | one _ | same _ | check _ => true

theorem Reaches.captured?_eq {name : String} {pattern : Pattern} {place later : Position}
    (h : Reaches pattern place later) (hspares : pattern.spares name) :
    later.captured? name = place.captured? name := by
  induction h with
  | empty | one _ | stop | check _ => rfl
  | seq _ _ ihFirst ihSecond =>
    rw [spares, Bool.and_eq_true] at hspares
    rw [ihSecond hspares.2, ihFirst hspares.1]
  | round _ _ ihBody ihRest => rw [ihRest hspares, ihBody hspares]
  | left _ ih =>
    rw [spares, Bool.and_eq_true] at hspares
    exact ih hspares.1
  | right _ ih =>
    rw [spares, Bool.and_eq_true] at hspares
    exact ih hspares.2
  | @capture other body place later _ ih =>
    rw [spares, Bool.and_eq_true, bne_iff_ne] at hspares
    rw [← ih hspares.2, Position.captured?, List.lookup_cons,
      beq_eq_false_iff_ne.mpr hspares.1.symm]
    rfl
  | @same name place later text _ hskip =>
    unfold Position.skip? at hskip
    split at hskip
    · obtain rfl := Option.some.inj hskip
      rfl
    · cases hskip

theorem spares_text (name : String) (content : Text) : (text content).spares name := by
  induction content with
  | nil => rfl
  | cons c rest ih => exact ih

/-- Every match of a pattern remembers a word under a name. -/
def CapturesWord (name : String) (pattern : Pattern) : Prop :=
  ∀ place later, Reaches pattern place later → IsVariableName (later.captured name)

variable {name : String} {first second : Pattern}

theorem capturesWord_word : (capture name word).CapturesWord name := by
  intro place later h
  obtain ⟨content, hcontent, hcaptures, middle, hbody, hmiddle⟩ := h.capture_eq rfl
  obtain ⟨run, hne, hrun, hword⟩ := hbody.many1_eq
  rw [hcontent, hmiddle] at hrun
  obtain rfl := List.append_cancel_right hrun
  rw [Position.captured, Position.captured?, hcaptures, List.lookup_cons, beq_self_eq_true]
  exact ⟨hne, hword⟩

theorem CapturesWord.append (h : first.CapturesWord name) (hspares : second.spares name) :
    (first ++ second).CapturesWord name := by
  intro place later hreaches
  obtain ⟨middle, hfirst, hsecond⟩ := hreaches.append
  rw [Position.captured, hsecond.captured?_eq hspares]
  exact h place middle hfirst

theorem CapturesWord.behind (h : second.CapturesWord name) : (first ++ second).CapturesWord name := by
  intro place later hreaches
  obtain ⟨middle, -, hsecond⟩ := hreaches.append
  exact h middle later hsecond

theorem CapturesWord.of_match? (h : first.CapturesWord name) {text : Text} {found : Position}
    (hmatch : first.match? text = some found) : IsVariableName (found.captured name) := by
  obtain ⟨later, hreaches, heq⟩ := run_sound hmatch
  obtain rfl := Option.some.inj heq
  exact h _ _ hreaches

end Pattern

/-! ## Fields that are read -/

namespace ElementFields

/-- What holds of an element that is read: the variable it needs has a name, and when it
stands for code, it is a button with that code. -/
structure IsSensible (fields : ElementFields) : Prop where
  named : fields.needsVariable → IsVariableName fields.variableName
  coded : fields.isOpaque → fields.widget = .button ∧ fields.action = some .customCode ∧
    ∃ code, fields.actionParam = some code ∧ code.blank = false

/-- A style changes nothing but the look. -/
theorem exists_of_withStyle? {fields shown : ElementFields} {expression usual : Text}
    (h : fields.withStyle? expression usual = some shown) :
    ∃ boxStyle fontSize fontStyle alignment,
      shown = { fields with boxStyle, fontSize, fontStyle, alignment } := by
  unfold withStyle? at h
  dsimp only at h
  split at h
  · cases h
  · cases h
    exact ⟨_, _, _, _, rfl⟩

theorem exists_of_applyStyle? {fields shown : ElementFields} {expression : Option Text}
    {usual : Text} (h : fields.applyStyle? expression usual = some shown) :
    ∃ boxStyle fontSize fontStyle alignment,
      shown = { fields with boxStyle, fontSize, fontStyle, alignment } := by
  unfold applyStyle? at h
  split at h
  · cases h
    exact ⟨_, _, _, _, rfl⟩
  · cases h
    exact ⟨_, _, _, _, rfl⟩
  · exact exists_of_withStyle? h

end ElementFields

namespace CallShape

/-- What a shape gives is a leaf that stands for no code and has a name for the variable
it needs. -/
def GivesLeaf (shape : CallShape) : Prop :=
  ∀ line fields, shape.recognise? line = some fields →
    fields.isOpaque = false ∧ fields.widget.isLayout = false ∧
      (fields.needsVariable → IsVariableName fields.variableName)

theorem givesLeaf_of_bound {shape : CallShape} (widget : Widget)
    (hwidget : widget.isLayout = false) (hcaptures : shape.pattern.CapturesWord "variable")
    (hfields : ∀ found fields, shape.fields? found = some fields →
      fields.isOpaque = false ∧ fields.widget = widget ∧
        fields.variableName = found.captured "variable") : shape.GivesLeaf := by
  intro line fields h
  obtain ⟨found, hmatch, hfound⟩ := Option.bind_eq_some_iff.mp h
  obtain ⟨hcode, hown, hname⟩ := hfields found fields hfound
  refine ⟨hcode, by rw [hown, hwidget], fun _ => ?_⟩
  rw [hname]
  exact hcaptures.of_match? hmatch

theorem givesLeaf_of_labelled {shape : CallShape} (widget : Widget)
    (hwidget : widget.isLayout = false) (hvariable : widget.hasNoVariable)
    (hfields : ∀ found fields, shape.fields? found = some fields →
      fields.isOpaque = false ∧ fields.widget = widget) : shape.GivesLeaf := by
  intro line fields h
  obtain ⟨found, hmatch, hfound⟩ := Option.bind_eq_some_iff.mp h
  obtain ⟨hcode, hown⟩ := hfields found fields hfound
  refine ⟨hcode, by rw [hown, hwidget], fun hneeds => ?_⟩
  rw [ElementFields.needsVariable, hown, hvariable, Bool.not_true, Bool.and_false] at hneeds
  cases hneeds

theorem capturesWord_assigned : assigned.CapturesWord "variable" :=
  ((capturesWord_word.behind.append rfl).append rfl).append rfl

theorem capturesWord_valueCall (call : String) {tail : Pattern} (htail : tail.spares "variable") :
    (valueCall call tail).CapturesWord "variable" := by
  have hcall : (opening call).spares "variable" := by
    simp only [opening, HAppend.hAppend, Append.append, spares, spares_text, Bool.true_and]
    rfl
  exact ((((((capturesWord_assigned.append rfl).append rfl).append hcall).append rfl).append
    rfl).append htail)

theorem givesLeaf_simple (name call : String) {widget : Widget}
    (hwidget : widget.isLayout = false) : (simple name call widget).GivesLeaf :=
  givesLeaf_of_bound widget hwidget (capturesWord_valueCall call rfl) fun found fields h => by
    cases h
    exact ⟨rfl, rfl, rfl⟩

theorem givesLeaf_limited (name call : String) {widget : Widget}
    (hwidget : widget.isLayout = false) : (limited name call widget).GivesLeaf :=
  givesLeaf_of_bound widget hwidget (capturesWord_valueCall call rfl) fun found fields h => by
    cases h
    exact ⟨rfl, rfl, rfl⟩

theorem givesLeaf_enumPopup : enumPopup.GivesLeaf := by
  refine givesLeaf_of_bound .enumPopup rfl ?_ fun found fields h => ?_
  · iterate 12 refine .append ?_ rfl
    exact capturesWord_assigned
  · cases h
    exact ⟨rfl, rfl, rfl⟩

theorem givesLeaf_popup : popup.GivesLeaf := by
  refine givesLeaf_of_bound .popup rfl (capturesWord_valueCall "Popup" rfl) fun found fields h => ?_
  cases h
  exact ⟨rfl, rfl, rfl⟩

theorem givesLeaf_textField : textField.GivesLeaf := by
  refine givesLeaf_of_bound .textField rfl (capturesWord_valueCall "TextField" rfl)
    fun found fields h => ?_
  obtain ⟨_, _, _, _, rfl⟩ := ElementFields.exists_of_applyStyle? h
  exact ⟨rfl, rfl, rfl⟩

theorem givesLeaf_textArea : textArea.GivesLeaf := by
  refine givesLeaf_of_bound .textArea rfl ?_ fun found fields h => ?_
  · iterate 7 refine .append ?_ rfl
    exact capturesWord_assigned
  · obtain ⟨_, _, _, _, rfl⟩ := ElementFields.exists_of_applyStyle? h
    exact ⟨rfl, rfl, rfl⟩

theorem givesLeaf_toggle : toggle.GivesLeaf := by
  refine givesLeaf_of_bound .toggle rfl ?_ fun found fields h => ?_
  · iterate 6 refine .append ?_ rfl
    exact capturesWord_assigned
  · cases h
    exact ⟨rfl, rfl, rfl⟩

theorem givesLeaf_objectField : objectField.GivesLeaf := by
  refine givesLeaf_of_bound .objectField rfl ?_ fun found fields h => ?_
  · iterate 17 refine .append ?_ rfl
    exact capturesWord_assigned
  · cases h
    exact ⟨rfl, rfl, rfl⟩

theorem givesLeaf_progressBar : progressBar.GivesLeaf := by
  refine givesLeaf_of_bound .progressBar rfl ?_ fun found fields h => ?_
  · exact .append (.append (.append (.behind capturesWord_word) rfl) rfl) rfl
  · cases h
    exact ⟨rfl, rfl, rfl⟩

theorem givesLeaf_helpBox : helpBox.GivesLeaf := by
  refine givesLeaf_of_labelled .helpBox rfl rfl fun found fields h => ?_
  obtain ⟨severity, -, rfl⟩ := Option.map_eq_some_iff.mp h
  exact ⟨rfl, rfl⟩

theorem givesLeaf_space : space.GivesLeaf := by
  refine givesLeaf_of_labelled .space rfl rfl fun found fields h => ?_
  cases h
  exact ⟨rfl, rfl⟩

theorem givesLeaf_separator : separator.GivesLeaf := by
  refine givesLeaf_of_labelled .separator rfl rfl fun found fields h => ?_
  cases h
  exact ⟨rfl, rfl⟩

theorem givesLeaf_header : header.GivesLeaf := by
  refine givesLeaf_of_labelled .header rfl rfl fun found fields h => ?_
  simp only [header] at h
  split at h
  · cases h
    exact ⟨rfl, rfl⟩
  · obtain ⟨_, _, _, _, rfl⟩ := ElementFields.exists_of_withStyle? h
    exact ⟨rfl, rfl⟩

theorem givesLeaf_label : label.GivesLeaf := by
  refine givesLeaf_of_labelled .label rfl rfl fun found fields h => ?_
  obtain ⟨_, _, _, _, rfl⟩ := ElementFields.exists_of_applyStyle? h
  exact ⟨rfl, rfl⟩

theorem givesLeaf_of_mem : ∀ shape ∈ all, shape.GivesLeaf := by
  simp only [all, List.forall_mem_cons]
  exact ⟨givesLeaf_enumPopup, givesLeaf_popup, givesLeaf_textField, givesLeaf_textArea,
    givesLeaf_simple _ _ rfl, givesLeaf_simple _ _ rfl, givesLeaf_limited _ _ rfl,
    givesLeaf_limited _ _ rfl, givesLeaf_toggle, givesLeaf_simple _ _ rfl,
    givesLeaf_simple _ _ rfl, givesLeaf_simple _ _ rfl, givesLeaf_objectField,
    givesLeaf_simple _ _ rfl, givesLeaf_simple _ _ rfl, givesLeaf_simple _ _ rfl,
    givesLeaf_simple _ _ rfl, givesLeaf_helpBox, givesLeaf_space, givesLeaf_separator,
    givesLeaf_progressBar, givesLeaf_header, givesLeaf_label, List.forall_mem_nil _⟩

end CallShape

/-! ## Code that is kept -/

namespace Text

theorem blank_eq_false {text : Text} : text.blank = false ↔ ∃ c ∈ text, isBlank c = false := by
  simp [blank]

end Text

namespace Forest

/-- Children belong to layouts exactly, and the fields of each element are sensible. -/
def WellFormed (forest : Forest) : Prop :=
  forest.Shaped ∧ forest.Everywhere ElementFields.IsSensible

theorem wellFormed_nil : WellFormed [] :=
  ⟨shaped_nil, everywhere_nil⟩

theorem WellFormed.cons {element : Element} {rest : Forest} (h : WellFormed [element])
    (hrest : WellFormed rest) : WellFormed (element :: rest) := by
  refine ⟨shaped_append.mpr ⟨h.1, hrest.1⟩, fun other hother => ?_⟩
  rw [← List.singleton_append, flatten_append] at hother
  exact (List.mem_append.mp hother).elim (h.2 other) (hrest.2 other)

theorem WellFormed.group {fields : ElementFields} {children : Forest}
    (hlayout : fields.widget.isLayout) (hfields : fields.IsSensible) (h : WellFormed children) :
    WellFormed [.group fields children] :=
  ⟨shaped_cons.mpr ⟨hlayout.symm, h.1, shaped_nil⟩,
    everywhere_group_cons.mpr ⟨hfields, h.2, everywhere_nil⟩⟩

theorem wellFormed_leaf {fields : ElementFields} (hlayout : fields.widget.isLayout = false)
    (hfields : fields.IsSensible) : WellFormed [.leaf fields] :=
  ⟨shaped_cons.mpr ⟨hlayout.symm, shaped_nil, shaped_nil⟩,
    everywhere_leaf_cons.mpr ⟨hfields, everywhere_nil⟩⟩

end Forest

/-- What begins a container is a layout without a variable, and no code. -/
theorem ContainerShape.group_of_beginning? {code : Text} {shape : ContainerShape}
    {fields : ElementFields} (h : ContainerShape.beginning? code = some (shape, fields)) :
    fields.widget.isLayout ∧ fields.needsVariable = false ∧ fields.isOpaque = false := by
  obtain ⟨begun, hbegun, h⟩ := List.exists_of_findSome?_eq_some h
  obtain ⟨read, hread, heq⟩ := Option.map_eq_some_iff.mp h
  obtain rfl : read = fields := (Prod.mk.inj heq).2
  obtain ⟨found, -, hfields⟩ := Option.bind_eq_some_iff.mp hread
  simp only [all, List.mem_cons, List.not_mem_nil, or_false] at hbegun
  rcases hbegun with rfl | rfl | rfl | rfl | rfl
  · cases hfields
    exact ⟨rfl, rfl, rfl⟩
  · obtain ⟨_, _, _, _, rfl⟩ : ∃ boxStyle fontSize fontStyle alignment, read =
        { CallShape.labelled .box "Box" with boxStyle, fontSize, fontStyle, alignment } := by
      simp only [ofPair, boxFields?] at hfields
      split at hfields
      · exact ElementFields.exists_of_withStyle? hfields
      · cases hfields
    exact ⟨rfl, rfl, rfl⟩
  all_goals
    cases hfields
    exact ⟨rfl, rfl, rfl⟩

namespace Step

/-- The variable of a foldout is a word. -/
theorem capturesWord_foldoutCall : foldoutCall.CapturesWord "variable" := by
  iterate 12 refine .append ?_ rfl
  exact CallShape.capturesWord_assigned

/-- The variable of a group of tabs is a word. -/
theorem capturesWord_toolbarCall : toolbarCall.CapturesWord "variable" := by
  iterate 5 refine .append ?_ rfl
  exact CallShape.capturesWord_assigned

/-- A call is read as a leaf that stands for no code. -/
theorem leaf_of_matchCall? {code : Text} {name : String} {fields : ElementFields}
    (h : matchCall? code = some (name, fields)) :
    fields.isOpaque = false ∧ fields.widget.isLayout = false ∧
      (fields.needsVariable → IsVariableName fields.variableName) := by
  obtain ⟨shape, hshape, h⟩ := List.exists_of_findSome?_eq_some h
  obtain ⟨read, hread, heq⟩ := Option.map_eq_some_iff.mp h
  obtain rfl : read = fields := (Prod.mk.inj heq).2
  exact CallShape.givesLeaf_of_mem shape hshape code read hread

/-- What holds of the steps of two ways to read a line holds of the first that reads it. -/
theorem forall_mem_or {holds : Step → Prop} {first second : Option Step}
    (h : ∀ step ∈ first, holds step) (h' : ∀ step ∈ second, holds step) :
    ∀ step ∈ first.or second, holds step := by
  cases first with
  | none => exact h'
  | some step => exact h

theorem getD_of_forall_mem {holds : Step → Prop} {found : Option Step} {usual : Step}
    (h : ∀ step ∈ found, holds step) (husual : holds usual) : holds (found.getD usual) := by
  cases found with
  | none => exact husual
  | some step => exact h step rfl

end Step

namespace Forest

/-- A change that leaves the kinds of elements alone and keeps them sensible keeps a forest
well formed. -/
theorem WellFormed.mapFields {change : ElementFields → ElementFields} {forest : Forest}
    (h : forest.WellFormed) (hwidget : ∀ fields, (change fields).widget = fields.widget)
    (hsensible : ∀ fields, fields.IsSensible → (change fields).IsSensible) :
    WellFormed (forest.mapFields change) := by
  induction forest using Forest.shapeInduction with
  | nil =>
    rw [Forest.mapFields]
    exact wellFormed_nil
  | leaf fields rest ih =>
    obtain ⟨hlayout, -, hrest⟩ := shaped_cons.mp h.1
    obtain ⟨hfields, hothers⟩ := everywhere_leaf_cons.mp h.2
    rw [Forest.mapFields]
    refine (wellFormed_leaf ?_ (hsensible fields hfields)).cons (ih ⟨hrest, hothers⟩)
    rw [hwidget]
    exact hlayout.symm
  | group fields children rest ihChildren ih =>
    obtain ⟨hlayout, hchildren, hrest⟩ := shaped_cons.mp h.1
    obtain ⟨hfields, hbelow, hothers⟩ := everywhere_group_cons.mp h.2
    rw [Forest.mapFields]
    refine (WellFormed.group ?_ (hsensible fields hfields)
      (ihChildren ⟨hchildren, hbelow⟩)).cons (ih ⟨hrest, hothers⟩)
    rw [hwidget]
    exact hlayout.symm

end Forest

theorem Absorption.isSensible_apply (absorption : Absorption) {fields : ElementFields}
    (h : fields.IsSensible) : (absorption.apply fields).IsSensible := by
  by_cases hneeds : fields.needsVariable
  · obtain ⟨hname, hsame⟩ := @Absorption.apply_frame absorption fields
    refine ⟨fun _ => hname ▸ h.named hneeds, fun hcode => ?_⟩
    rw [hneeds, ElementFields.needsVariable, hcode] at hsame
    cases hsame
  · rw [Absorption.apply, if_neg hneeds]
    exact h

/-- A project holds elements or the body as it was, and its elements are well formed. -/
def Project.WellFormed (project : Project) : Prop :=
  project.elements.WellFormed ∧ (project.elements = [] ∨ project.rawBody = [])

theorem Project.WellFormed.absorb {project : Project} (h : project.WellFormed) :
    project.absorb.WellFormed := by
  refine ⟨h.1.mapFields (Absorption.widget_apply) fun _ => Absorption.isSensible_apply _, ?_⟩
  refine h.2.imp_left fun hnone => ?_
  show Forest.mapFields _ project.elements = []
  rw [hnone, Forest.mapFields]

end EditorScript
