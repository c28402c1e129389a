import EditorScript.Proofs.BlockBetween
import EditorScript.Proofs.ReadLines

/-!
# Containers that are read back

A container is read back from its own lines when the lines of its children are:
the calls or braces around them are found, and what is between is read as if it
stood alone.
-/

namespace EditorScript

open Step

/-- Code that is neither a comment nor boilerplate, nor a text area. -/
structure Plainly (code : Text) : Prop where
  comment : code.startsWith "/*" = false
  boilerplate : isBoilerplate code = false
  textArea : CallShape.textArea.pattern.match? code = none

theorem plainly_of_match?_none {code : Text} {count : Nat} (hcount : 11 ≤ count)
    (h : ∀ pattern ∈ earlierShapes.take count ++ [CallShape.textArea.pattern],
      pattern.match? code = none) : Plainly code := by
  have hfirst : ∀ pattern ∈ Pattern.text "/*" :: boilerplateShapes,
      pattern.match? code = none := by
    intro pattern hpattern
    have heleven : earlierShapes.take 11 = Pattern.text "/*" :: boilerplateShapes := rfl
    refine h pattern (List.mem_append_left _ ?_)
    rw [← heleven] at hpattern
    exact (List.take_subset_take_left earlierShapes hcount) hpattern
  rw [List.forall_mem_cons] at hfirst
  exact ⟨startsWith_eq_false hfirst.1, isBoilerplate_eq_false hfirst.2,
    h _ (List.mem_append_right _ (List.mem_singleton.mpr rfl))⟩

/-- The step at code that begins a container. -/
theorem next_of_container {line code : Text} {rest : List Text} {step : Step}
    (hcode : codeOf line = code) (hne : code ≠ []) (h : Plainly code)
    (hstep : container? line rest = some step) : next line rest = step := by
  have hempty : code.isEmpty = false := by simpa using hne
  simp only [next, hcode, hempty, h.comment, h.boilerplate, hstep, Option.some_or,
    Option.getD_some, Bool.false_eq_true, if_false]

/-- Two calls that enclose a container with the given fields. -/
structure Encloses (front back : Text) (shown : ElementFields) : Prop where
  first : Statement front
  last : Statement back
  plainly : Plainly front
  begins : ∃ (pair : ContainerPair) (shape : ContainerShape),
    ContainerShape.beginning? front = some (shape, shown) ∧
      shape.HasPair pair.owner pair.name ∧ pair.Around front back

/-- A container between two calls. -/
theorem Encloses.readsAs {front back : Text} {shown : ElementFields} {lines : List Text}
    {children : Forest} (h : Encloses front back shown) (hinside : ReadsAs lines children)
    (count : Nat) :
    ReadsAs ((Text.spaces count ++ front) :: lines ++ [Text.spaces count ++ back])
      [.group shown children] := by
  obtain ⟨hfront, hback, hplainly, pair, shape, hbegin, hpair, haround⟩ := h
  have hcodes : pair.Around (codeOf (Text.spaces count ++ front))
      (codeOf (Text.spaces count ++ back)) := by
    rw [hfront.codeOf_eq, hback.codeOf_eq]
    exact haround
  constructor
  · intro rest _
    have hshape : (Text.spaces count ++ front) :: lines ++ [Text.spaces count ++ back] ++ rest =
        (Text.spaces count ++ front) :: (lines ++ (Text.spaces count ++ back) :: rest) := by simp
    have hstep : container? (Text.spaces count ++ front)
        (lines ++ (Text.spaces count ++ back) :: rest) = some (.enter shown lines rest) := by
      have hend := ContainerShape.linesToEnd?_inside hinside.passes hcodes hpair 0 rest
      have hdrop : (lines ++ (Text.spaces count ++ back) :: rest).drop (lines.length + 1) = rest := by
        simp
      simp only [container?, hfront.codeOf_eq, hbegin, Option.map_some, hend, List.take_left', hdrop]
    rw [hshape, recoverLines_of_enter (next_of_container (hfront.codeOf_eq count) hfront.ne_nil
      hplainly hstep), hinside.recoverLines_eq]
    rfl
  · intro rest _
    exact labelSafe_of_statement hfront (fun _ => matchCall?_ne_textArea hplainly.textArea) _ _
  · exact ContainerShape.passes_container hinside.passes hcodes

/-! ## Layout containers -/

/-- What the calls that begin a layout container begin with. -/
def containerFronts : List String :=
  ["EditorGUILayout.BeginHorizontal(", "EditorGUILayout.BeginVertical(",
    "scrollPosition = EditorGUILayout.BeginScrollView(", "EditorGUI.BeginDisabledGroup("]

theorem plainly_of_front {fixed : String} (hfixed : fixed ∈ containerFronts) (rest : Text) :
    Plainly (fixed.toList ++ rest) := by
  have hfits : Fits (Sketch.fixed fixed) (fixed.toList ++ rest) := Fits.rest.known_append _
  exact plainly_of_match?_none (Nat.le_refl 11) fun pattern hpattern =>
    Pattern.match?_eq_none_of_rulesOut (rulesOut_begin fixed hfixed pattern hpattern) hfits

theorem encloses_of_begins {front back rest : Text} {fixed : String} {pair : ContainerPair}
    {shown : ElementFields} (hfixed : fixed ∈ containerFronts) (hfront : front = fixed.toList ++ rest)
    (hfirst : Statement front) (hlast : Statement back)
    (haround : pair.Around front back)
    (hbegins : ∃ shape, ContainerShape.beginning? front = some (shape, shown) ∧
      shape.HasPair pair.owner pair.name) : Encloses front back shown := by
  obtain ⟨shape, hbegin, hpair⟩ := hbegins
  exact ⟨hfirst, hlast, hfront ▸ plainly_of_front hfixed rest, pair, shape, hbegin, hpair, haround⟩

/-- A statement of a call without quotes. -/
theorem statement_of_tame_call {code : Text} (htame : code.all isTame)
    (hfirst : code.head?.all (!isBlank ·)) (hend : code.endsWith ");") : Statement code := by
  refine statement_of_call (neutral_of_tame htame) ?_ (List.isSuffixOf_iff_suffix.mp hend)
  rintro c hc
  rw [Option.mem_def.mp hc] at hfirst
  simpa using hfirst

/-- Calls without arguments around a layout container. -/
theorem encloses_of_tame {front back : Text} {fixed : String} {pair : ContainerPair}
    {shown : ElementFields} (hfixed : fixed ∈ containerFronts) (hfront : fixed.toList <+: front)
    (hcodes : ∀ code ∈ [front, back],
      code.all isTame ∧ code.head?.all (!isBlank ·) ∧ code.endsWith ");")
    (haround : pair.Around front back)
    (hbegins : ∃ shape, ContainerShape.beginning? front = some (shape, shown) ∧
      shape.HasPair pair.owner pair.name) : Encloses front back shown := by
  obtain ⟨rest, rfl⟩ := hfront
  obtain ⟨⟨htame, hhead, hend⟩, hlast⟩ := List.forall_mem_cons.mp hcodes
  obtain ⟨htame', hhead', hend'⟩ := List.forall_mem_singleton.mp hlast
  exact encloses_of_begins hfixed rfl (statement_of_tame_call htame hhead hend)
    (statement_of_tame_call htame' hhead' hend') haround hbegins

theorem around_horizontal : ContainerPair.horizontal.Around "EditorGUILayout.BeginHorizontal();"
    "EditorGUILayout.EndHorizontal();" :=
  ContainerPair.around_of_all _ _ (by decide)

theorem around_vertical : ContainerPair.vertical.Around "EditorGUILayout.BeginVertical();"
    "EditorGUILayout.EndVertical();" :=
  ContainerPair.around_of_all _ _ (by decide)

theorem around_scrollView : ContainerPair.scrollView.Around
    "scrollPosition = EditorGUILayout.BeginScrollView(scrollPosition);"
    "EditorGUILayout.EndScrollView();" :=
  ContainerPair.around_of_all _ _ (by decide)

theorem around_disabledGroup : ContainerPair.disabledGroup.Around
    "EditorGUI.BeginDisabledGroup();" "EditorGUI.EndDisabledGroup();" :=
  ContainerPair.around_of_all _ _ (by decide_cbv)

theorem encloses_horizontal : Encloses "EditorGUILayout.BeginHorizontal();"
    "EditorGUILayout.EndHorizontal();" (CallShape.labelled .horizontalGroup "Horizontal") :=
  have hfixed : "EditorGUILayout.BeginHorizontal(" ∈ containerFronts := by decide
  encloses_of_tame hfixed (by decide) (by decide) around_horizontal
    ContainerShape.beginning?_horizontal

theorem encloses_vertical : Encloses "EditorGUILayout.BeginVertical();"
    "EditorGUILayout.EndVertical();" (CallShape.labelled .verticalGroup "Vertical") :=
  have hfixed : "EditorGUILayout.BeginVertical(" ∈ containerFronts := by decide
  encloses_of_tame hfixed (by decide) (by decide) around_vertical
    ContainerShape.beginning?_vertical

theorem encloses_scrollView : Encloses
    "scrollPosition = EditorGUILayout.BeginScrollView(scrollPosition);"
    "EditorGUILayout.EndScrollView();" (CallShape.labelled .scrollView "Scroll View") :=
  have hfixed : "scrollPosition = EditorGUILayout.BeginScrollView(" ∈ containerFronts := by decide
  encloses_of_tame hfixed (by decide) (by decide) around_scrollView
    ContainerShape.beginning?_scrollView

theorem callArgument_condition {condition : Text} (h : isCondition condition) (hne : condition ≠ []) :
    CallArgument condition := by
  have hchar : ∀ c ∈ condition, c = '!' ∨ c.isAlphanum || c == '_' || c == '.' := by
    unfold isCondition at h
    split at h
    · intro c hc
      rcases List.mem_cons.mp hc with rfl | hc
      · exact .inl rfl
      · exact .inr (List.all_eq_true.mp h c hc)
    · exact fun c hc => .inr (List.all_eq_true.mp h c hc)
  have hblank : ∀ c ∈ condition, isBlank c = false := by
    intro c hc
    rcases hchar c hc with rfl | hname
    · decide
    · rw [Bool.or_eq_true, beq_iff_eq] at hname
      rcases hname with hname | rfl
      · exact isBlank_of_isNameChar hname
      · decide
  exact {
    nonempty := hne
    inLine := fun hline => absurd (hblank _ hline) (by decide)
    first := fun c hc => hblank c (List.mem_of_mem_head? hc)
    last := fun c hc => hblank c (List.mem_of_getLast? hc) }

namespace ElementFields

variable {fields : ElementFields} {width level : Nat} {kind : ScriptKind} {inner texts : List Text}

/-- A call with an argument and the call that ends its container. -/
theorem encloses_of_argument {fixed : String} {argument front back bare : Text}
    {pair : ContainerPair} {shown : ElementFields}
    (hfront : front = fixed.toList ++ (argument ++ ");".toList))
    (hfixed : fixed ∈ containerFronts ∧
      isFront (ContainerPair.callNames.filter (· != pair.callName pair.opening)) fixed.toList ∧
      fixed.toList.head?.all (!isBlank ·))
    (hneutral : Neutral front) (hlast : Statement back) (haround : pair.Around bare back)
    (hargument : Avoids containerCalls argument)
    (hown : (ContainerShape.named pair.owner pair.opening).occurs
      (fixed.toList ++ (argument ++ ");".toList)))
    (hbegins : ∃ shape, ContainerShape.beginning? front = some (shape, shown) ∧
      shape.HasPair pair.owner pair.name) : Encloses front back shown := by
  obtain ⟨hmem, hisFront, hhead⟩ := hfixed
  have hend : Avoids containerCalls (argument ++ ");".toList) := by
    have hclose : isSeam containerCalls ");".toList := by decide
    have hseam := hargument.seam hclose avoids_nil
    rwa [List.append_nil] at hseam
  have hfirst : Statement front := by
    have hsuffix : ");".toList <:+ front :=
      hfront ▸ (List.suffix_append argument _).trans (List.suffix_append _ _)
    refine statement_of_call hneutral ?_ hsuffix
    have hfirstMem : ∀ entry ∈ containerFronts, entry.toList ≠ [] := by decide
    obtain ⟨c, others, hcons⟩ := List.exists_cons_of_ne_nil (hfirstMem fixed hmem)
    rw [hfront, hcons]
    rintro d ⟨⟩
    rw [hcons] at hhead
    simpa using hhead
  refine encloses_of_begins hmem hfront hfirst hlast ?_ hbegins
  rw [hfront]
  exact haround.of_argument hown hisFront hend

theorem encloses_disabledGroup (h : fields.Plain) (hwidget : fields.widget = .disabledGroup) :
    Encloses fields.groupCalls.1 fields.groupCalls.2 (fields.readBack kind) := by
  obtain ⟨hcondition, havoids⟩ : CallArgument ((present? fields.disableCondition).getD "false") ∧
      Avoids containerCalls ((present? fields.disableCondition).getD "false") := by
    cases hset : present? fields.disableCondition with
    | none => exact ⟨callArgument_condition (by decide) (by decide), by decide⟩
    | some condition =>
      have hmem := eq_some_of_present? hset
      have hne : condition ≠ [] := by
        simpa using (Option.filter_eq_some_iff.mp hset).2
      exact ⟨callArgument_condition (h.condition condition hmem) hne,
        h.texts condition (by simp [ElementFields.texts, hmem])⟩
  have hneutral := (neutral_groupCalls h.enclosed).1
  have hopen : ("EditorGUI.BeginDisabledGroup(" : Text) =
      "EditorGUI.BeginDisabledGroup".toList ++ "(".toList := by decide
  have hcalls : fields.groupCalls = ("EditorGUI.BeginDisabledGroup(".toList ++
      ((present? fields.disableCondition).getD "false" ++ ");".toList),
      "EditorGUI.EndDisabledGroup();".toList) := by
    rw [groupCalls, hwidget]
    exact congrArg (·, _) (List.append_assoc _ _ _)
  have hshown : fields.readBack kind =
      { widget := .disabledGroup, label := "Disabled Group"
        disableCondition := some ((present? fields.disableCondition).getD "false") } := by
    simp only [readBack, onlyLabel, hwidget]
  have hlast : Statement "EditorGUI.EndDisabledGroup();" :=
    statement_of_tame_call (by decide) (by decide) (by decide)
  rw [hcalls] at hneutral ⊢
  have hown : ∀ rest : Text, (ContainerShape.named ContainerPair.disabledGroup.owner
      ContainerPair.disabledGroup.opening).occurs
        ("EditorGUI.BeginDisabledGroup(".toList ++ rest) = true := fun _ => rfl
  refine encloses_of_argument rfl ⟨by decide, by decide +kernel, by decide⟩ hneutral hlast
    around_disabledGroup havoids (hown _) ?_
  have hbegins := ContainerShape.beginning?_disabled hcondition
  unfold ContainerShape.disabledStatement at hbegins
  rwa [hshown, hopen, List.append_assoc]

theorem encloses_box (h : fields.Plain) (hwidget : fields.widget = .box) :
    Encloses fields.groupCalls.1 fields.groupCalls.2 (fields.readBack kind) := by
  have husual : StyleBase "\"box\"" := styleBase_of_all (by decide)
  have hstyleable : fields.widget.isStyleable := by rw [hwidget]; rfl
  have hlook : Lookless { widget := .box, label := "Box" } := ⟨rfl, rfl, rfl, rfl⟩
  have hbox : ("\"box\"" : Text) = quote "box" := by decide
  obtain ⟨hstyle, hexpression, hread⟩ : CallArgument ((fields.style? "\"box\"").getD "\"box\"") ∧
      isStyleExpression ((fields.style? "\"box\"").getD "\"box\"") ∧
      withStyle? { widget := .box, label := "Box" } ((fields.style? "\"box\"").getD "\"box\"")
        "\"box\"" = some (withLook { widget := .box, label := "Box" } fields "\"box\"") := by
    have happly := applyStyle?_style hlook hstyleable h.hasReadableStyle husual
    cases hset : fields.style? "\"box\"" with
    | none =>
      rw [hset] at happly
      refine ⟨husual.argument, by decide, ?_⟩
      rw [← happly, Option.getD_none, hbox, withStyle?_quote hlook]
      decide
    | some style =>
      have hargument := callArgument_style husual h.boxStyle hset
      refine ⟨hargument, ?_, ?_⟩
      · rcases style?_cases hset with ⟨name, -, rfl⟩ | rfl
        · exact isStyleExpression_quote name
        · exact isStyleExpression_newStyleText _ _
      · rw [hset] at happly
        obtain ⟨c, others, hcons⟩ := List.exists_cons_of_ne_nil hargument.nonempty
        rw [hcons] at happly ⊢
        exact happly
  have hneutral := (neutral_groupCalls h.enclosed).1
  have hopen : ("EditorGUILayout.BeginVertical(" : Text) =
      "EditorGUILayout.BeginVertical".toList ++ ['('] := by decide
  have hcalls : fields.groupCalls = ("EditorGUILayout.BeginVertical(".toList ++
      ((fields.style? "\"box\"").getD "\"box\"" ++ ");".toList),
      "EditorGUILayout.EndVertical();".toList) := by
    rw [groupCalls, hwidget]
    exact congrArg (·, _) (List.append_assoc _ _ _)
  have hshown : fields.readBack kind = withLook { widget := .box, label := "Box" } fields
      "\"box\"" := by
    simp only [readBack, onlyLabel, hwidget]
  rw [hcalls] at hneutral ⊢
  have hlast : Statement "EditorGUILayout.EndVertical();" :=
    statement_of_tame_call (by decide) (by decide) (by decide)
  have hown : ∀ rest : Text, (ContainerShape.named ContainerPair.vertical.owner
      ContainerPair.vertical.opening).occurs
        ("EditorGUILayout.BeginVertical(".toList ++ rest) = true := fun _ => rfl
  refine encloses_of_argument rfl ⟨by decide, by decide +kernel, by decide⟩ hneutral hlast
    around_vertical (avoids_styleOr foreign_containerCalls (by decide_cbv) h.boxStyle) (hown _) ?_
  have hbegins := ContainerShape.beginning?_box hstyle hexpression hread
  unfold ContainerShape.boxStatement at hbegins
  rw [hshown, hopen, List.append_assoc]
  exact hbegins

/-- The widgets of containers between two calls. -/
def groupWidgets : List Widget :=
  [.horizontalGroup, .verticalGroup, .scrollView, .disabledGroup, .box]

theorem encloses_groupCalls (h : fields.Plain) (hwidget : fields.widget ∈ groupWidgets) :
    Encloses fields.groupCalls.1 fields.groupCalls.2 (fields.readBack kind) := by
  simp only [groupWidgets, List.mem_cons, List.not_mem_nil, or_false] at hwidget
  rcases hwidget with hwidget | hwidget | hwidget | hwidget | hwidget
  · simpa only [groupCalls, readBack, onlyLabel, CallShape.labelled, hwidget]
      using encloses_horizontal
  · simpa only [groupCalls, readBack, onlyLabel, CallShape.labelled, hwidget]
      using encloses_vertical
  · simpa only [groupCalls, readBack, onlyLabel, CallShape.labelled, hwidget]
      using encloses_scrollView
  · exact encloses_disabledGroup h hwidget
  · exact encloses_box h hwidget

/-- A container between two calls is read back with its children. -/
theorem Plain.readsAs_group (h : fields.Plain) (hwidget : fields.widget ∈ groupWidgets)
    {children : Forest} (hinner : ReadsAs (inner.flatMap Text.lines) children)
    (htexts : fields.lines width level kind inner = .ok texts) :
    ReadsAs (texts.flatMap Text.lines) [.group (fields.readBack kind) children] := by
  have hencloses : Encloses fields.groupCalls.1 fields.groupCalls.2 (fields.readBack kind) :=
    encloses_groupCalls h hwidget
  have hlines : fields.lines width level kind inner =
      .ok ((indentation width level ++ fields.groupCalls.1) :: inner ++
        [indentation width level ++ fields.groupCalls.2]) := by
    simp only [groupWidgets, List.mem_cons, List.not_mem_nil, or_false] at hwidget
    rcases hwidget with hwidget | hwidget | hwidget | hwidget | hwidget <;>
      simp only [lines, hwidget]
  rw [hlines] at htexts
  obtain rfl := Except.ok.inj htexts
  have hread := hencloses.readsAs hinner (width * level)
  rwa [List.flatMap_append, List.flatMap_cons, List.flatMap_singleton, indentation,
    hencloses.first.lines_eq, hencloses.last.lines_eq]

end ElementFields

end EditorScript
