import EditorScript.Proofs.DisplayReading
import EditorScript.Proofs.Trimming
import EditorScript.Recovery.Step
import Mathlib

/-!
# Shapes of containers and buttons on written statements

The first lines of foldouts, tab groups, buttons and layout containers are read
back with what they say about their element; so are the guards in front of the
blocks behind foldouts and tab groups.
-/

namespace EditorScript

open Pattern CallShape

theorem head?_word_append {name : Text} (hne : name ≠ []) (hword : ∀ c ∈ name, isWord c)
    (rest : Text) : ∀ c ∈ (name ++ rest).head?, isBlank c = false := by
  obtain ⟨first, others, rfl⟩ := List.exists_cons_of_ne_nil hne
  rintro c ⟨⟩
  exact isBlank_of_isWord (hword _ List.mem_cons_self)

namespace Step

/-- The call of a foldout. -/
def foldoutStatement (name label : Text) : Text :=
  name ++ (" = ".toList ++ ("EditorGUILayout".toList ++ (".".toList ++ ("Foldout".toList ++
    '(' :: (name ++ ',' :: ' ' :: (quote label ++ ", true);".toList))))))

theorem match?_foldoutCall {name : Text} (hname : isName name) (label : Text) :
    Gives (foldoutCall.match? (foldoutStatement name label)) (fun found =>
      found.captures = [("label", escape label), ("variable", name)]) := by
  have hend : ", true);".toList = ",".toList ++ ' ' :: ("true".toList ++ (")".toList ++
      (";".toList ++ []))) := by decide
  simp only [match?, matchAt, foldoutCall, run_append]
  unfold foldoutStatement
  refine run_assigned hname (by rintro c ⟨⟩; decide) (fun before => ?_)
  refine run_editorGui (fun before => run_text (fun before => ?_) before) before
  refine run_opening (head?_name_append hname _) (fun before => ?_) before
  refine run_same rfl (fun before => ?_) before
  refine run_comma (head?_quote_append _ _) (fun before => ?_) before
  rw [run_literal, hend]
  refine run_blanks_none (by rintro c ⟨⟩; decide) (fun before => run_opt ?_) _
  simp only [run_append]
  refine run_text (fun before => ?_) before
  refine run_blanks_space (by rintro c ⟨⟩; decide) (fun before => ?_) before
  rw [run]
  refine Gives.or (run_text (fun before => ?_) before) _
  refine run_blanks_none (by rintro c ⟨⟩; decide) (fun before => ?_) before
  refine run_text (fun before => ?_) before
  refine run_blanks_none (by rintro c ⟨⟩; decide) (fun before => ?_) before
  refine run_text (fun before => ?_) before
  exact ⟨_, rfl, rfl⟩

/-- The call of a tab group. -/
def toolbarStatement (name : Text) (tabs : List Text) : Text :=
  name ++ (" = ".toList ++ ("GUILayout.Toolbar".toList ++ '(' :: (name ++ ',' :: ' ' ::
    ("new string[] \x7b".toList ++ (stringsInside tabs ++ "\x7d);".toList)))))

theorem match?_toolbarCall {name : Text} (hne : name ≠ []) (hword : ∀ c ∈ name, isWord c)
    (tabs : List Text) :
    Gives (toolbarCall.match? (toolbarStatement name tabs)) (fun found =>
      found.captures = [("tabs", stringsInside tabs), ("variable", name)]) := by
  simp only [match?, matchAt, toolbarCall, run_append]
  unfold toolbarStatement
  refine run_assigned_word hne hword (by rintro c ⟨⟩; decide) (fun before => ?_)
  refine run_opening (head?_word_append hne hword _) (fun before => ?_) before
  refine run_same rfl (fun before => ?_) before
  refine run_comma (by rintro c ⟨⟩; decide) (fun before => ?_) before
  exact run_stringList (newline_notMem_stringsInside tabs) (fun before => ⟨_, rfl, rfl⟩) before

/-- The guard of a block. -/
def guardStatement (keyword : String) (name : Text) : Text :=
  keyword.toList ++ ' ' :: '(' :: (name ++ [')'])

theorem match?_guard (keyword : String) {name : Text} (hne : name ≠ [])
    (hword : ∀ c ∈ name, isWord c) :
    Gives ((guard keyword name).match? (guardStatement keyword name)) (fun found =>
      found.after = []) := by
  have hopen : ∀ text : Text, '(' :: text = "(".toList ++ text := fun _ => rfl
  have hclose : [')'] = ")".toList ++ [] := rfl
  simp only [match?, matchAt, guard, opening, run_append, run_start]
  unfold guardStatement
  refine run_text (fun before => ?_) none
  refine run_blanks_space (by rintro c ⟨⟩; decide) (fun before => ?_) before
  rw [hopen]
  refine run_text (fun before => ?_) before
  refine run_blanks_none (head?_word_append hne hword _) (fun before => ?_) before
  rw [hclose]
  refine run_text (fun before => ?_) before
  refine run_blanks_none (by rintro c ⟨⟩; decide) (fun before => ?_) before
  refine run_text (fun before => ?_) before
  exact ⟨_, rfl, rfl⟩

/-- The condition of a button, perhaps with the name of a style. -/
def buttonStatement (label : Text) (style : Option Text) : Text :=
  "if".toList ++ ' ' :: '(' :: ("GUILayout".toList ++ (".Button".toList ++
    '(' :: (quote label ++ (styleSuffix style ++ "))".toList))))

theorem match?_buttonCall (label : Text) {style : Option Text}
    (hstyle : ∀ text ∈ style, StyleBase text) :
    Gives (buttonCall.match? (buttonStatement label style)) (fun found =>
      found.captures = ("rest", []) :: (styleCaptures style ++ [("label", escape label)])) := by
  have hopen : ∀ text : Text, '(' :: ("GUILayout".toList ++ text) =
      "(".toList ++ ("GUILayout".toList ++ text) := fun _ => rfl
  have hend : "))".toList = ")".toList ++ (")".toList ++ []) := by decide
  have hcapital : "Editor".toList = 'E' :: "ditor".toList := by decide
  have hnone : ∀ (following : Position → Option Position) (before : Option Char) (rest : Text),
      (text "Editor".toList).run following ⟨before, "GUILayout".toList ++ rest, []⟩ = none := by
    intro following before rest
    rw [hcapital]
    exact run_text_ne (by rintro c ⟨⟩; decide) following before []
  simp only [match?, matchAt, buttonCall, opening, ContainerShape.layoutGui, run_append, run_start]
  unfold buttonStatement
  refine run_text (fun before => ?_) none
  refine run_blanks_space (by rintro c ⟨⟩; decide) (fun before => ?_) before
  rw [hopen]
  refine run_text (fun before => ?_) before
  refine run_blanks_none (by rintro c ⟨⟩; decide) (fun before => ?_) before
  simp only [run_append]
  rw [run_opt_none (hnone _ _ _)]
  refine run_text (fun before => run_text (fun before => ?_) before) before
  refine run_parenthesis (head?_quote_append _ _) (fun before => ?_) before
  rw [run_literal, hend]
  have hclosed : ∀ before, Gives (blanks.run ((text ")".toList).run (blanks.run
      ((text ")".toList).run ((capture "rest" (many inLine)).run (finish.run some)))))
      ⟨before, ")".toList ++ (")".toList ++ []), styleCaptures style ++ [("label", escape label)]⟩)
      (fun found =>
        found.captures = ("rest", []) :: (styleCaptures style ++ [("label", escape label)])) := by
    intro before
    refine run_blanks_none (by rintro c ⟨⟩; decide) (fun before => ?_) before
    refine run_text (fun before => ?_) before
    refine run_blanks_none (by rintro c ⟨⟩; decide) (fun before => ?_) before
    refine run_text (fun before => ?_) before
    exact ⟨_, rfl, rfl⟩
  cases style with
  | none =>
    rw [styleSuffix, List.nil_append]
    refine run_blanks_none (by rintro c ⟨⟩; decide) (fun before => ?_) _
    have hnoStyle : ∀ (following : Position → Option Position) (before : Option Char)
        (captures : List (String × Text)),
        (("," : Pattern) ++ blanks ++ capture "style" (few1 inLine)).run following
          ⟨before, ")".toList ++ (")".toList ++ []), captures⟩ = none := fun _ _ _ => rfl
    rw [run_opt_none (hnoStyle _ _ _)]
    exact hclosed before
  | some style =>
    have hbase : StyleBase style := hstyle style rfl
    have hsplit : ∀ rest, styleSuffix (some style) ++ rest = ",".toList ++ ' ' :: (style ++ rest) :=
      fun _ => rfl
    rw [hsplit]
    refine run_blanks_none (by rintro c ⟨⟩; decide) (fun before => run_opt ?_) _
    simp only [run_append]
    refine run_text (fun before => ?_) before
    refine run_blanks_space (hbase.argument.head?_append _) (fun before => ?_) before
    refine run_capture_few1 hbase.nonempty ?_ ?_ hclosed before
    · intro c hc
      exact bne_iff_ne.mpr fun (hline : c = '\n') => hbase.inLine (hline ▸ hc)
    · intro front back heq hne before captures
      refine run_blanks_text_none hne (fun c hc => ?_) (fun hmem => ?_) _ before captures
      · have hlast : style.getLast? = back.getLast? := heq ▸ getLast?_of_append hne
        exact hbase.last c (hlast ▸ hc)
      · exact hbase.noParenthesis (heq ▸ List.mem_append_right front hmem)

end Step

namespace ContainerShape

/-- A shape whose calls have the names of a pair. -/
structure HasPair (shape : ContainerShape) (owner : Pattern) (pair : String) : Prop where
  opens : shape.opens = named owner ("Begin" ++ pair)
  closes : shape.closes = named owner ("End" ++ pair)

theorem hasPair_ofPair (owner : Pattern) (pair : String) (begin : Pattern)
    (fields? : Position → Option ElementFields) : HasPair (ofPair owner pair begin fields?) owner pair :=
  ⟨rfl, rfl⟩

/-- The first call that fits decides what is begun. -/
theorem beginning?_of_match (front : List ContainerShape) {behind : List ContainerShape} {shape : ContainerShape}
    {code : Text} {fields : ElementFields} (hall : all = front ++ shape :: behind)
    (hfront : ∀ other ∈ front, other.begin.match? code = none)
    (h : Gives (shape.begin.match? code) (fun found => shape.fields? found = some fields)) :
    beginning? code = some (shape, fields) := by
  obtain ⟨found, hfound, hfields⟩ := h
  have hnone : front.findSome? (fun other => ((other.begin.match? code).bind other.fields?).map
      fun fields => (other, fields)) = none := by
    rw [List.findSome?_eq_none_iff]
    intro other hother
    rw [hfront other hother]
    rfl
  rw [beginning?, hall, List.findSome?_append, hnone, List.findSome?_cons, hfound,
    Option.bind_some, hfields]
  rfl

/-- A closed call that begins a container without fields of its own. -/
theorem beginning?_of_accepts (front : List ContainerShape) {behind : List ContainerShape}
    {shape : ContainerShape} {code : Text} {fields : ElementFields} (hall : all = front ++ shape :: behind)
    (hfront : ∀ other ∈ front, other.begin.accepts code = false)
    (haccepts : shape.begin.accepts code) (hfields : ∀ found, shape.fields? found = some fields) :
    beginning? code = some (shape, fields) := by
  refine beginning?_of_match front hall (fun other hother => ?_) ?_
  · simpa [accepts] using hfront other hother
  · obtain ⟨found, hfound⟩ := Option.isSome_iff_exists.mp haccepts
    exact ⟨found, hfound, hfields found⟩

theorem beginning?_horizontal :
    ∃ shape, beginning? "EditorGUILayout.BeginHorizontal();" =
      some (shape, labelled .horizontalGroup "Horizontal") ∧
      shape.HasPair layoutGui "Horizontal" :=
  ⟨_, beginning?_of_accepts [] rfl (List.forall_mem_nil _) (by decide) (fun _ => rfl),
    hasPair_ofPair _ _ _ _⟩

theorem beginning?_vertical :
    ∃ shape, beginning? "EditorGUILayout.BeginVertical();" =
      some (shape, labelled .verticalGroup "Vertical") ∧ shape.HasPair layoutGui "Vertical" :=
  ⟨_, beginning?_of_accepts (all.take 2) rfl (by decide) (by decide)
    (fun _ => rfl), hasPair_ofPair _ _ _ _⟩

theorem beginning?_scrollView :
    ∃ shape, beginning? "scrollPosition = EditorGUILayout.BeginScrollView(scrollPosition);" =
      some (shape, labelled .scrollView "Scroll View") ∧ shape.HasPair layoutGui "ScrollView" :=
  ⟨_, beginning?_of_accepts (all.take 3) rfl (by decide) (by decide_cbv)
    (fun _ => rfl), hasPair_ofPair _ _ _ _⟩

/-- The call that begins a disabled group. -/
def disabledStatement (condition : Text) : Text :=
  "EditorGUI.BeginDisabledGroup".toList ++ ("(".toList ++ (condition ++ ");".toList))

theorem beginning?_disabled {condition : Text} (hcondition : CallArgument condition) :
    ∃ shape, beginning? (disabledStatement condition) =
      some (shape, { widget := .disabledGroup, label := "Disabled Group",
                     disableCondition := some condition }) ∧
      shape.HasPair "EditorGUI" "DisabledGroup" := by
  have hfits : Fits (Sketch.known "EditorGUI.BeginDisabledGroup" ++ [.rest])
      (disabledStatement condition) := Fits.rest.known_append _
  have hrules : ∀ other ∈ all.take 4, other.begin.rulesOut
      (Sketch.known "EditorGUI.BeginDisabledGroup" ++ [.rest]) := by decide
  have hend : ");".toList = ")".toList ++ (";".toList ++ []) := by decide
  refine ⟨_, beginning?_of_match (all.take 4) rfl (fun other hother =>
    match?_eq_none_of_rulesOut (hrules other hother) hfits) ?_, hasPair_ofPair _ _ _ _⟩
  simp only [match?, matchAt, ofPair, run_append, run_start]
  unfold disabledStatement
  refine run_text (fun before => ?_) none
  refine run_blanks_none (by rintro c ⟨⟩; decide) (fun before => ?_) before
  refine run_text (fun before => ?_) before
  refine run_capture_many_until ?_ ?_ (fun before => ?_) before
  · intro c hc
    exact bne_iff_ne.mpr fun (hnewline : c = '\n') => hcondition.inLine (hnewline ▸ hc)
  · intro front back heq hne before captures
    obtain ⟨c, others, rfl⟩ := List.exists_cons_of_ne_nil hne
    have hrest : ";".toList = others ++ back := (List.cons.inj heq).2
    refine run_text_ne (fun d hd => ?_) _ before captures
    rintro rfl
    have hmem := List.mem_append_right others (List.mem_of_mem_head? hd)
    exact absurd (hrest ▸ hmem) (by decide)
  rw [hend]
  refine run_text (fun before => ?_) before
  refine run_blanks_none (by rintro c ⟨⟩; decide) (fun before => ?_) before
  refine run_text (fun before => ?_) before
  refine ⟨_, rfl, ?_⟩
  have htrim : Text.trim condition = condition :=
    Text.trim_eq_self hcondition.first hcondition.last
  have hcaptured : Position.captured ⟨before, [], [("condition", condition)]⟩ "condition" =
      condition := rfl
  simp only [hcaptured, htrim]
  rfl

/-- The call that begins a box. -/
def boxStatement (style : Text) : Text :=
  "EditorGUILayout.BeginVertical".toList ++ '(' :: (style ++ ");".toList)

theorem beginning?_box {style : Text} (hstyle : CallArgument style) {fields : ElementFields}
    (hexpression : isStyleExpression style)
    (hfields : ElementFields.withStyle? { widget := .box, label := "Box" } style "\"box\"" =
      some fields) :
    ∃ shape, beginning? (boxStatement style) = some (shape, fields) ∧
      shape.HasPair layoutGui "Vertical" := by
  have hfits : Fits (Sketch.known "EditorGUILayout.BeginVertical" ++ [.rest])
      (boxStatement style) := Fits.rest.known_append _
  have hrules : ∀ other ∈ all.take 1, other.begin.rulesOut
      (Sketch.known "EditorGUILayout.BeginVertical" ++ [.rest]) := by decide
  have hcall : "EditorGUILayout.BeginVertical".toList = "Editor".toList ++ ("GUILayout".toList ++
      (".".toList ++ "BeginVertical".toList)) := by decide
  have hassoc : ∀ a b c d rest : Text, (a ++ (b ++ (c ++ d))) ++ rest =
      a ++ (b ++ (c ++ (d ++ rest))) := by
    intro a b c d rest
    simp
  refine ⟨_, beginning?_of_match (all.take 1) rfl (fun other hother =>
    match?_eq_none_of_rulesOut (hrules other hother) hfits) ?_, hasPair_ofPair _ _ _ _⟩
  simp only [match?, matchAt, ofPair, beginning, layoutGui, run_append, run_start]
  unfold boxStatement
  rw [hcall, hassoc]
  refine run_opt (run_text (fun before => ?_) none)
  refine run_text (fun before => run_text (fun before => run_text (fun before => ?_) before)
    before) before
  refine run_parenthesis (hstyle.head?_append _) (fun before => ?_) before
  refine run_lastStyle hstyle (fun before => ⟨_, rfl, ?_⟩) before
  have hcaptured : Position.captured ⟨before, [], [("style", style)]⟩ "style" = style := rfl
  simp only [boxFields?, hcaptured, hexpression, if_true]
  exact hfields

end ContainerShape

end EditorScript
