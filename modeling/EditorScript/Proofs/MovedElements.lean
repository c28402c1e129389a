import EditorScript.Proofs.ElementLayout
import EditorScript.Proofs.MarginLaws
import Mathlib.Data.List.Basic

/-!
# Elements moved to another level

An element is written at a deeper level by moving the text it has at its own one: its items
move, and so do the texts of its children, which stand one level below.  At the outermost
level the first and the last line of the text have no margin, so writing the element at a
level is the same as writing it there and reindenting the text.
-/

namespace EditorScript

theorem mul_level_add (width level more : Nat) :
    width * (level + more) = width * more + width * level := by
  rw [Nat.mul_add, Nat.add_comm]

/-! ## One element -/

namespace LaidOut

variable {written : Nat → Nat → List Text → Except EmissionError (List Text)}
  (h : LaidOut written) {width level : Nat} {inner texts : List Text}
include h

/-- The items of what is written. -/
theorem exists_items (htexts : written width level inner = .ok texts) :
    ∃ items, Framed items ∧ ∀ width level inner,
      written width level inner = .ok (items.flatMap (Item.texts width level inner)) := by
  obtain ⟨found, hwritten, hframed⟩ := h
  cases found with
  | error error =>
    rw [hwritten] at htexts
    cases htexts
  | ok items => exact ⟨items, hframed items rfl, hwritten⟩

/-- The lines of an element are written at a deeper level by moving them and the texts of the
children. -/
theorem unlines_add (width level more : Nat) (inner : List Text) :
    (written width (level + more) (inner.map (Text.moveRight (width * more)))).map Text.unlines =
      ((written width level inner).map Text.unlines).map (Text.moveRight (width * more)) := by
  obtain ⟨found, hwritten, hframed⟩ := h
  rw [hwritten, hwritten]
  cases found with
  | error error => rfl
  | ok items =>
    obtain ⟨hsound, ⟨code, rest, hitems⟩, -⟩ := hframed items rfl
    have hne : items.flatMap (Item.texts width level inner) ≠ [] := by
      rw [hitems]
      exact List.cons_ne_nil _ _
    have hmoved : items.flatMap
        (Item.texts width (level + more) (inner.map (Text.moveRight (width * more)))) =
        (items.flatMap (Item.texts width level inner)).map (Text.moveRight (width * more)) := by
      rw [List.map_flatMap]
      exact List.flatMap_congr fun item hitem =>
        Item.texts_add (hsound item hitem) width level more inner
    have hunlines := Text.moveRight_unlines hne (width * more)
    rw [← hmoved] at hunlines
    exact congrArg Except.ok hunlines.symm

theorem tab_notMem_unlines (hinner : ∀ text ∈ inner, '\t' ∉ text)
    (htexts : written width level inner = .ok texts) : '\t' ∉ Text.unlines texts := by
  obtain ⟨items, hframed, hwritten⟩ := h.exists_items htexts
  rw [hwritten] at htexts
  obtain rfl := Except.ok.inj htexts
  refine Text.tab_notMem_unlines fun text htext => ?_
  obtain ⟨item, hitem, htext⟩ := List.mem_flatMap.mp htext
  exact Item.tab_notMem_texts (hframed.sound item hitem) hinner text htext

/-- At the outermost level the statements at the two ends have no margin. -/
theorem tight_lines (htexts : written width 0 inner = .ok texts)
    (hself : Text.moveRight 0 (Text.unlines texts) = Text.unlines texts) :
    Tight (Text.unlines texts).lines := by
  obtain ⟨items, hframed, hwritten⟩ := h.exists_items htexts
  rw [hwritten] at htexts
  obtain rfl := Except.ok.inj htexts
  obtain ⟨hsound, ⟨code, rest, hfirst⟩, ⟨front, final, hlast⟩⟩ := hframed
  have hcode : Inline code := hsound (.statement 0 code) (hfirst ▸ List.mem_cons_self)
  have hfinal : Inline final := hsound (.statement 0 final)
    (hlast ▸ List.mem_append_right front (List.mem_singleton.mpr rfl))
  have hline : ∀ {code : Text}, Inline code →
      (Item.texts width 0 inner (.statement 0 code)).flatMap Text.lines = [code] := by
    intro code hcode
    have hmargin : indentation width (0 + 0) ++ code = code := rfl
    rw [Item.texts_statement, hmargin, List.flatMap_singleton, Text.lines_eq_singleton hcode.2.1]
  have hlines : (Text.unlines (items.flatMap (Item.texts width 0 inner))).lines =
      items.flatMap fun item => (item.texts width 0 inner).flatMap Text.lines := by
    rw [Text.lines_unlines, List.flatMap_assoc]
    rw [hfirst]
    exact List.cons_ne_nil _ _
  have hbegins : ∃ more, (Text.unlines (items.flatMap (Item.texts width 0 inner))).lines =
      code :: more := by
    rw [hlines, hfirst, List.flatMap_cons, hline hcode]
    exact ⟨_, rfl⟩
  have hends : ∃ more, (Text.unlines (items.flatMap (Item.texts width 0 inner))).lines =
      more ++ [final] := by
    rw [hlines, hlast, List.flatMap_append, List.flatMap_singleton, hline hfinal]
    exact ⟨_, rfl⟩
  obtain ⟨below, hbelow⟩ := hbegins
  obtain ⟨above, habove⟩ := hends
  constructor
  · intro line hmem hspaces
    rw [← hself] at hmem
    exact Text.eq_nil_of_mem_moveRight hmem (Text.blank_of_onlySpaces hspaces)
  · refine ⟨code, ?_, hcode.onlySpaces_eq_false, hcode.margin_eq_zero⟩
    rw [hbelow]
    exact List.mem_cons_self
  · rw [hbelow, List.head?_cons]
    exact fun hnil => hcode.ne_nil (Option.some.inj hnil)
  · rw [habove, List.getLast?_concat]
    exact fun hnil => hfinal.ne_nil (Option.some.inj hnil)

end LaidOut

namespace ElementFields.Movable

variable {fields : ElementFields} (h : fields.Movable)
include h

/-- The text of an element is moved with the texts of its children. -/
theorem render_add (width level more : Nat) (kind : ScriptKind) (inner : List Text) :
    fields.render width (level + more) kind (inner.map (Text.moveRight (width * more))) =
      (fields.render width level kind inner).map (Text.moveRight (width * more)) := by
  unfold render
  cases hknown : fields.isOpaque with
  | true =>
    simp only [if_true, mul_level_add, Except.map, Text.moveRight_reindent]
  | false =>
    exact (laidOut_lines h hknown kind).unlines_add width level more inner

theorem tab_notMem_render {width level : Nat} {kind : ScriptKind} {inner : List Text} {text : Text}
    (hinner : ∀ text ∈ inner, '\t' ∉ text)
    (htext : fields.render width level kind inner = .ok text) : '\t' ∉ text := by
  unfold render at htext
  cases hknown : fields.isOpaque with
  | true =>
    rw [hknown, if_pos rfl] at htext
    obtain rfl := Except.ok.inj htext
    exact Text.tab_notMem_reindent _ _
  | false =>
    rw [hknown, if_neg Bool.false_ne_true] at htext
    cases htexts : fields.lines width level kind inner with
    | error error =>
      rw [htexts] at htext
      cases htext
    | ok texts =>
      rw [htexts] at htext
      obtain rfl := Except.ok.inj htext
      exact (laidOut_lines h hknown kind).tab_notMem_unlines hinner htexts

/-- The text of an element at the outermost level has no margin to lose. -/
theorem dedent_render (hknown : fields.isOpaque = false) {width : Nat} {kind : ScriptKind}
    {inner : List Text} {text : Text} (hinner : ∀ text ∈ inner, '\t' ∉ text)
    (htext : fields.render width 0 kind inner = .ok text) (hself : Text.moveRight 0 text = text) :
    text.dedent = text := by
  have htab := h.tab_notMem_render hinner htext
  rw [render, hknown, if_neg Bool.false_ne_true] at htext
  cases htexts : fields.lines width 0 kind inner with
  | error error =>
    rw [htexts] at htext
    cases htext
  | ok texts =>
    rw [htexts] at htext
    obtain rfl := Except.ok.inj htext
    exact Text.dedent_of_tight htab ((laidOut_lines h hknown kind).tight_lines htexts hself)

end ElementFields.Movable

/-! ## Trees of elements -/

open ElementFields

namespace Forest

variable {width level : Nat} {kind : ScriptKind}

/-- The texts of some elements are moved when that of the first and those of the others are. -/
theorem renderAll_cons_add {element : Element} {rest : List Element}
    (h : ∀ more, element.render width (level + more) kind =
      (element.render width level kind).map (Text.moveRight (width * more)))
    (hrest : ∀ more, renderAll width (level + more) kind rest =
      (renderAll width level kind rest).map (List.map (Text.moveRight (width * more))))
    (more : Nat) :
    renderAll width (level + more) kind (element :: rest) =
      (renderAll width level kind (element :: rest)).map
        (List.map (Text.moveRight (width * more))) := by
  have hself := h 0
  rw [renderAll, renderAll, h more, hrest more]
  cases htext : element.render width level kind with
  | error error => rfl
  | ok text =>
    cases hothers : renderAll width level kind rest with
    | error error => rfl
    | ok others =>
      -- Moved by nothing the text stays, so it is empty exactly when it is empty after a move.
      rw [Nat.add_zero, htext] at hself
      have hempty : (Text.moveRight (width * more) text).isEmpty = text.isEmpty := by
        rw [Text.isEmpty_moveRight (width * more) (width * 0), ← Except.ok.inj hself]
      simp only [bind, Except.bind, Except.map, pure, Except.pure, hempty]
      cases text.isEmpty <;> rfl

theorem render_group_add {fields : ElementFields} {children : List Element} (h : fields.Movable)
    (hchildren : ∀ level more, renderAll width (level + more) kind children =
      (renderAll width level kind children).map (List.map (Text.moveRight (width * more))))
    (more : Nat) :
    (Element.group fields children).render width (level + more) kind =
      ((Element.group fields children).render width level kind).map
        (Text.moveRight (width * more)) := by
  rw [Element.render, Element.render]
  cases fields.showsChildren with
  | false => exact h.render_add width level more kind []
  | true =>
    rw [if_pos rfl, if_pos rfl, Nat.add_right_comm, hchildren]
    cases renderAll width (level + 1) kind children with
    | error error => rfl
    | ok inner => exact h.render_add width level more kind inner

theorem renderAll_add {forest : Forest} (h : forest.Everywhere Movable) (level more : Nat) :
    renderAll width (level + more) kind forest =
      (renderAll width level kind forest).map (List.map (Text.moveRight (width * more))) := by
  induction forest using shapeInduction generalizing level more with
  | nil => rfl
  | leaf fields rest ih =>
    rw [everywhere_leaf_cons] at h
    have hleaf : ∀ more, (Element.leaf fields).render width (level + more) kind =
        ((Element.leaf fields).render width level kind).map (Text.moveRight (width * more)) :=
      fun more => h.1.render_add width level more kind []
    exact renderAll_cons_add hleaf (ih h.2 level) more
  | group fields children rest ihChildren ih =>
    rw [everywhere_group_cons] at h
    exact renderAll_cons_add (render_group_add h.1 (ihChildren h.2.1)) (ih h.2.2 level) more

end Forest

namespace Element

variable {element : Element}

/-- An element is written at a deeper level by moving its text. -/
theorem render_add (h : Forest.Everywhere Movable [element]) (width level more : Nat)
    (kind : ScriptKind) :
    element.render width (level + more) kind =
      (element.render width level kind).map (Text.moveRight (width * more)) := by
  cases element with
  | leaf fields =>
    rw [Forest.everywhere_leaf_cons] at h
    exact h.1.render_add width level more kind []
  | group fields children =>
    rw [Forest.everywhere_group_cons] at h
    exact Forest.render_group_add h.1 (Forest.renderAll_add h.2.1) more

/-- What is written for an element that is kept as code. -/
theorem render_keptCode (hkept : element.fields.isOpaque) (width level : Nat) (kind : ScriptKind) :
    element.render width level kind =
      .ok (Text.reindent (width * level) (element.fields.actionParam.getD [])) := by
  cases element with
  | leaf fields => exact if_pos hkept
  | group fields children =>
    have hhidden : fields.showsChildren = false := by
      have hcode : fields.isOpaque = true := hkept
      rw [showsChildren, hcode]
      rfl
    rw [Element.render, hhidden]
    exact if_pos hkept

/-- The text of an element at the outermost level has no margin to lose. -/
theorem dedent_render (h : Forest.Everywhere Movable [element])
    (hknown : element.fields.isOpaque = false) {width : Nat} {kind : ScriptKind} {text : Text}
    (htext : element.render width 0 kind = .ok text) : text.dedent = text := by
  have hself : Text.moveRight 0 text = text := by
    have hadd := render_add h width 0 0 kind
    rw [htext] at hadd
    exact (Except.ok.inj hadd).symm
  cases element with
  | leaf fields =>
    rw [Forest.everywhere_leaf_cons] at h
    exact h.1.dedent_render hknown (List.forall_mem_nil _) htext hself
  | group fields children =>
    rw [Forest.everywhere_group_cons] at h
    obtain ⟨inner, hrender, hinner⟩ := Forest.render_group htext
    have htab : ∀ text ∈ inner, '\t' ∉ text := by
      rcases hinner with rfl | hinner
      · exact List.forall_mem_nil _
      · exact Forest.forall_mem_renderAll (fun hfields hinner htext =>
          hfields.tab_notMem_render hinner htext) h.2.1 hinner
    exact h.1.dedent_render hknown htab hrender hself

/-- Writing an element at a level is writing it without a margin and reindenting the text,
whatever the code of its buttons and of the elements inside it is.  Only when the element
itself is kept as code, the white space of that code matters. -/
theorem render_eq_reindent (h : Forest.Everywhere Movable [element])
    (hcode : element.fields.isOpaque → ∀ code ∈ element.fields.actionParam, CodeBlanks code)
    (width level : Nat) (kind : ScriptKind) :
    element.render width level kind =
      (element.render width 0 kind).map (Text.reindent (width * level)) := by
  cases hknown : element.fields.isOpaque with
  | true =>
    have hblanks : CodeBlanks (element.fields.actionParam.getD []) := by
      cases hparam : element.fields.actionParam with
      | none => exact List.forall_mem_nil _
      | some code => exact hcode hknown code hparam
    rw [render_keptCode hknown, render_keptCode hknown]
    exact congrArg Except.ok (hblanks.reindent_reindent _ _).symm
  | false =>
    have hadd := render_add h width 0 level kind
    rw [Nat.zero_add] at hadd
    rw [hadd]
    cases htext : element.render width 0 kind with
    | error error => rfl
    | ok text =>
      have hdedent := dedent_render h hknown htext
      have hreindent : Text.reindent (width * level) text =
          Text.moveRight (width * level) text := by
        rw [Text.reindent_eq_moveRight, hdedent]
      exact congrArg Except.ok hreindent.symm

/-- A foldout with code of its own in a button, an element kept as code and tabs. -/
def detailsFoldout : Element :=
  .group { widget := .foldout, label := "Details", variableName := "showDetails" }
    [.leaf { widget := .button, label := "Run", action := some .customCode,
             actionParam := some "\tif (ready)\n\t\x7b\n \t \n\t\tRun();\n\t\x7d\n" },
      .leaf { widget := .label, label := [], isOpaque := true,
              actionParam := some "  // done\n\n    Finish();" },
      .leaf { widget := .tabGroup, label := "Tabs", variableName := "tab",
              tabs := some ["First", "Second"] }]

/-- Code under a tab that stands for itself. -/
def tabbedCode : Element :=
  .leaf { widget := .label, label := [], isOpaque := true,
          actionParam := some "\tif (ready)\n\t  Run();\n" }

theorem render_eq_reindent_detailsFoldout :
    Forest.Everywhere Movable [detailsFoldout] ∧ Forest.Everywhere Movable [tabbedCode] ∧
      (∀ code ∈ tabbedCode.fields.actionParam, CodeBlanks code) ∧
      (detailsFoldout.render 4 0 .editorWindow).isOk ∧
      detailsFoldout.render 4 3 .editorWindow =
        (detailsFoldout.render 4 0 .editorWindow).map (Text.reindent (4 * 3)) ∧
      tabbedCode.render 4 3 .editorWindow =
        (tabbedCode.render 4 0 .editorWindow).map (Text.reindent (4 * 3)) := by
  have hfoldout : Forest.Everywhere Movable [detailsFoldout] := by
    simp only [detailsFoldout, Forest.everywhere_group_cons, Forest.everywhere_leaf_cons,
      Forest.everywhere_nil, and_true]
    decide +kernel
  have hcode : Forest.Everywhere Movable [tabbedCode] := by
    simp only [tabbedCode, Forest.everywhere_leaf_cons, Forest.everywhere_nil, and_true]
    decide +kernel
  have hblanks : ∀ code ∈ tabbedCode.fields.actionParam, CodeBlanks code := by
    rintro _ ⟨⟩
    decide +kernel
  have hwritten : (detailsFoldout.render 4 0 .editorWindow).isOk := by rfl
  exact ⟨hfoldout, hcode, hblanks, hwritten,
    render_eq_reindent hfoldout (fun hkept => by cases hkept) 4 3 .editorWindow,
    render_eq_reindent hcode (fun _ => hblanks) 4 3 .editorWindow⟩

end Element

end EditorScript
