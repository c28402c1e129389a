import EditorScript.Proofs.MovedLines

/-!
# Roots of a moved body

Each step of recovery sees of its lines their code and the places of their
braces.  So the steps on moved lines are alike: they skip the same, and where one
makes a root the other makes one that stands for code or for an element just so.
-/

namespace EditorScript

/-! ## Containers and comments -/

/-- No blank line ends a container. -/
theorem ContainerShape.closes_nil : ∀ shape ∈ all, shape.closes.occurs [] = false := by
  decide +kernel

theorem ContainerShape.mem_of_beginning? {code : Text} {shape : ContainerShape}
    {fields : ElementFields} (h : beginning? code = some (shape, fields)) : shape ∈ all := by
  obtain ⟨other, hmem, hfound⟩ := List.exists_of_findSome?_eq_some h
  obtain ⟨_, _, heq⟩ := Option.map_eq_some_iff.mp hfound
  exact (Prod.mk.inj heq).1 ▸ hmem

namespace Moved

variable {line other : Text} {lines others rest behind : List Text}

theorem linesToEnd?_of_blank {shape : ContainerShape} (hshape : shape.closes.occurs [] = false)
    (h : ∀ line ∈ lines, line.blank) (depth : Nat) : shape.linesToEnd? depth lines = none := by
  induction lines generalizing depth with
  | nil => rfl
  | cons line rest ih =>
    rw [List.forall_mem_cons] at h
    rw [ContainerShape.linesToEnd?, codeOf_of_blank h.1, hshape]
    simp [ih h.2]

/-- A container of moved lines ends with the same line. -/
theorem linesToEnd?_eq {shape : ContainerShape} (hshape : shape.closes.occurs [] = false)
    (h : Moved lines others) (depth : Nat) :
    shape.linesToEnd? depth lines = shape.linesToEnd? depth others := by
  induction h generalizing depth with
  | ended h h' => rw [linesToEnd?_of_blank hshape h, linesToEnd?_of_blank hshape h']
  | cons h _ ih =>
    rw [ContainerShape.linesToEnd?, ContainerShape.linesToEnd?, h.codeOf_eq]
    simp only [ih]

theorem cutAt?_blanks {needle : Text} {c : Char} {blanks : Text} (hneedle : needle.head? = some c)
    (hc : c ∉ blanks) (text : Text) :
    Text.cutAt? needle (blanks ++ text) =
      (Text.cutAt? needle text).map fun (before, after) => (blanks ++ before, after) := by
  induction blanks with
  | nil => simp
  | cons d rest ih =>
    rw [List.mem_cons, not_or] at hc
    have hstart : Text.startsWith (d :: (rest ++ text)) needle = false := by
      obtain ⟨others, rfl⟩ := List.head?_eq_some_iff.mp hneedle
      simp [Text.startsWith, List.isPrefixOf, hc.1]
    rw [List.cons_append, Text.cutAt?, hstart, ih hc.2, Option.map_map]
    rfl

/-- The text behind a needle does not depend on the margin. -/
theorem cutAt?_rel {needle : Text} {c : Char} (hneedle : needle.head? = some c)
    (hc : isBlank c = false) (h : SameButMargin line other) :
    (Text.cutAt? needle line).map Prod.snd = (Text.cutAt? needle other).map Prod.snd := by
  have hnotMem : ∀ {blanks : Text}, blanks.all isBlank → c ∉ blanks := fun hblank hmem => by
    rw [List.all_eq_true.mp hblank c hmem] at hc
    cases hc
  have hnone : ∀ {line : Text}, line.blank → Text.cutAt? needle line = none := by
    intro line hblank
    obtain ⟨others, rfl⟩ := List.head?_eq_some_iff.mp hneedle
    rw [← List.append_nil line, cutAt?_blanks hneedle (hnotMem hblank)]
    rfl
  obtain ⟨m, n, core, rfl, rfl⟩ | ⟨hline, hother⟩ := h
  · rw [cutAt?_blanks hneedle (hnotMem (spaces_all_isBlank m)),
      cutAt?_blanks hneedle (hnotMem (spaces_all_isBlank n)), Option.map_map, Option.map_map]
    rfl
  · rw [hnone hline, hnone hother]

theorem behindComment_eq (line : Text) (rest : List Text) :
    Step.behindComment line rest =
      match (Text.cutAt? "*/" line).map Prod.snd with
      | some after => if after.blank then rest else after :: rest
      | none =>
        match rest with
        | [] => []
        | next :: others => Step.behindComment next others := by
  cases rest <;> rw [Step.behindComment] <;> cases Text.cutAt? "*/" line <;> rfl

theorem behindComment_of_blank (hline : line.blank) (h : ∀ line ∈ rest, line.blank) :
    Step.behindComment line rest = [] := by
  induction rest generalizing line with
  | nil =>
    rw [behindComment_eq, @cutAt?_rel _ [] _ _ rfl (by decide) (.inr ⟨hline, rfl⟩)]
    rfl
  | cons next others ih =>
    rw [List.forall_mem_cons] at h
    rw [behindComment_eq, @cutAt?_rel _ [] _ _ rfl (by decide) (.inr ⟨hline, rfl⟩)]
    exact ih h.1 h.2

/-- Behind a comment, moved lines are moved lines. -/
theorem behindComment (hline : SameButMargin line other) (h : Moved rest behind) :
    Moved (Step.behindComment line rest) (Step.behindComment other behind) := by
  have hafter : ∀ {rest behind : List Text} (after : Text), Moved rest behind →
      Moved (if after.blank then rest else after :: rest)
        (if after.blank then behind else after :: behind) := by
    intro rest behind after hmoved
    split
    · exact hmoved
    · exact .cons (.inl ⟨0, 0, after, rfl, rfl⟩) hmoved
  induction h generalizing line other with
  | @ended rest behind h h' =>
    rw [behindComment_eq, behindComment_eq other, ← cutAt?_rel rfl (by decide) hline]
    split
    · exact hafter _ (.ended h h')
    · have hnil : ∀ {rest : List Text}, (∀ line ∈ rest, line.blank) →
          (match rest with
            | [] => []
            | next :: others => Step.behindComment next others) = [] := by
        intro rest hblank
        cases rest with
        | nil => rfl
        | cons next others =>
          rw [List.forall_mem_cons] at hblank
          exact behindComment_of_blank hblank.1 hblank.2
      rw [hnil h, hnil h']
      exact .refl []
  | cons hnext hrest ih =>
    rw [behindComment_eq, behindComment_eq other, ← cutAt?_rel rfl (by decide) hline]
    split
    · exact hafter _ (.cons hnext hrest)
    · exact ih hnext

end Moved

/-! ## Steps -/

namespace Step

/-- Steps that skip or make a root alike and go on with moved lines. -/
inductive Alike : Step → Step → Prop
  | skip {rest behind : List Text} (h : Moved rest behind) : Alike (skip rest) (skip behind)
  | take {element other : Element} {warnings warnings' rest behind : List Text}
      (hcode : other.fields.isOpaque = element.fields.isOpaque) (h : Moved rest behind) :
      Alike (take element warnings rest) (take other warnings' behind)
  | enter {fields : ElementFields} {inner inner' rest behind : List Text}
      (h : Moved rest behind) : Alike (enter fields inner rest) (enter fields inner' behind)

variable {line other : Text} {rest behind : List Text}

theorem container?_alike (hline : SameButMargin line other) (hrest : Moved rest behind) :
    Option.Rel Alike (container? line rest) (container? other behind) := by
  unfold container?
  dsimp only
  rw [← hline.codeOf_eq]
  cases hbegin : ContainerShape.beginning? (codeOf line) with
  | none => exact .none
  | some found =>
    obtain ⟨shape, fields⟩ := found
    have hshape := ContainerShape.closes_nil shape (ContainerShape.mem_of_beginning? hbegin)
    refine .some ?_
    dsimp only
    rw [← hrest.linesToEnd?_eq hshape]
    cases shape.linesToEnd? 0 rest with
    | none => exact .take rfl hrest
    | some count => exact .enter (hrest.drop _)

/-- The block behind a guard is found in both lists of lines or in neither. -/
theorem guarded?_rel (keyword : String) (variableName : Text) (hrest : Moved rest behind) :
    Option.Rel (fun found found' => Moved found.2 found'.2 ∧
        isEmptySwitch found'.1 = isEmptySwitch found.1)
      (guarded? keyword variableName rest) (guarded? keyword variableName behind) := by
  unfold guarded?
  rw [← hrest.firstCode?_eq]
  cases firstCode? rest with
  | none => exact .none
  | some first =>
    dsimp only
    split
    · have hsame := (hrest.drop first.1).findBlock?_rel
      generalize findBlock? (rest.drop first.1) 0 = block? at hsame
      generalize findBlock? (behind.drop first.1) 0 = block'? at hsame
      cases hsame with
      | none => exact .none
      | some hsame =>
        refine .some ⟨?_, hsame.body
          (fun code => code.isEmpty || emptyCase.accepts code) rfl⟩
        dsimp only
        rw [hsame.endLine]
        exact (hrest.drop _).drop _
    · exact .none

theorem foldout?_alike (hline : SameButMargin line other) (hrest : Moved rest behind) :
    Option.Rel Alike (foldout? line rest) (foldout? other behind) := by
  unfold foldout?
  rw [← hline.codeOf_eq]
  cases foldoutCall.match? (codeOf line) with
  | none => exact .none
  | some found =>
    refine .some ?_
    dsimp only
    have hguarded := guarded?_rel "if" (found.captured "variable") hrest
    generalize guarded? "if" (found.captured "variable") rest = block? at hguarded
    generalize guarded? "if" (found.captured "variable") behind = block'? at hguarded
    cases hguarded with
    | none => exact .take rfl hrest
    | some hguarded => exact .enter hguarded.1

theorem tabGroup?_alike (hline : SameButMargin line other) (hrest : Moved rest behind) :
    Option.Rel Alike (tabGroup? line rest) (tabGroup? other behind) := by
  unfold tabGroup?
  rw [← hline.codeOf_eq]
  cases toolbarCall.match? (codeOf line) with
  | none => exact .none
  | some found =>
    refine .some ?_
    dsimp only
    have hguarded := guarded?_rel "switch" (found.captured "variable") hrest
    generalize guarded? "switch" (found.captured "variable") rest = block? at hguarded
    generalize guarded? "switch" (found.captured "variable") behind = block'? at hguarded
    cases hguarded with
    | none => exact .take rfl hrest
    | some hguarded =>
      refine .take rfl ?_
      rw [hguarded.2]
      split
      · exact hguarded.1
      · exact hrest

theorem button?_alike (hline : SameButMargin line other) (hrest : Moved rest behind) :
    Option.Rel Alike (button? line rest) (button? other behind) := by
  unfold button?
  rw [← hline.codeOf_eq]
  cases buttonCall.match? (codeOf line) with
  | none => exact .none
  | some found =>
    simp only [Option.bind_some]
    cases (CallShape.labelled .button (CallShape.textOf found "label")).applyStyle?
      (found.captured? "style") "\"button\"" with
    | none => exact .none
    | some fields =>
      simp only [Option.bind_some]
      rw [← hrest.firstCode?_eq]
      split
      · have hsame := (Moved.cons hline hrest).findBlock?_rel
        generalize findBlock? (line :: rest) 0 = block? at hsame
        generalize findBlock? (other :: behind) 0 = block'? at hsame
        cases hsame with
        | none => exact .none
        | some hsame =>
          refine .some (.take rfl ?_)
          rw [hsame.endLine]
          exact hrest.drop _
      · split
        · exact .some (.take rfl hrest)
        · cases firstCode? rest with
          | none => exact .some (.take rfl hrest)
          | some first => exact .some (.take rfl (hrest.drop _).behind_extent)

theorem labelledTextArea?_alike (hline : SameButMargin line other) (hrest : Moved rest behind) :
    Option.Rel Alike (labelledTextArea? line rest) (labelledTextArea? other behind) := by
  unfold labelledTextArea?
  rw [← hline.codeOf_eq, ← hrest.firstCode?_eq]
  split
  · split
    · split
      · exact .some (.take rfl (hrest.drop _))
      · exact .none
    · exact .none
  · exact .none

theorem call?_alike (hline : SameButMargin line other) (hrest : Moved rest behind) :
    Option.Rel Alike (call? line rest) (call? other behind) := by
  unfold call?
  rw [← hline.codeOf_eq]
  cases matchCall? (codeOf line) with
  | none => exact .none
  | some found => exact .some (.take rfl hrest)

theorem code_alike (hline : SameButMargin line other) (hrest : Moved rest behind) :
    Alike (code line rest) (code other behind) := by
  unfold code
  rw [← hline.codeOf_eq]
  split
  · exact .take rfl (Moved.cons hline hrest).behind_extent
  · exact .take rfl hrest

theorem rel_or {first first' second second' : Option Step} (h : Option.Rel Alike first first')
    (h' : Option.Rel Alike second second') :
    Option.Rel Alike (first.or second) (first'.or second') := by
  cases h with
  | none => exact h'
  | some h => exact .some h

/-- The steps at the front of moved lines are alike. -/
theorem next_alike (hline : SameButMargin line other) (hrest : Moved rest behind) :
    Alike (next line rest) (next other behind) := by
  unfold next
  dsimp only
  rw [← hline.codeOf_eq]
  split
  · exact .skip hrest
  split
  · have hafter := @Moved.cutAt?_rel _ _ "/*" _ rfl (by decide) hline
    generalize Text.cutAt? "/*" line = cut at hafter
    generalize Text.cutAt? "/*" other = cut' at hafter
    cases cut with
    | none =>
      obtain rfl := Option.map_eq_none_iff.mp hafter.symm
      exact .skip hrest
    | some cut =>
      obtain ⟨⟨before', after'⟩, rfl, rfl⟩ := Option.map_eq_some_iff.mp hafter.symm
      exact .skip (.behindComment (.inl ⟨0, 0, cut.2, rfl, rfl⟩) hrest)
  split
  · refine .skip ?_
    unfold boilerplateExtent
    dsimp only [List.headD_cons]
    rw [← hline.codeOf_eq]
    split
    · exact hrest
    · exact (Moved.cons hline hrest).behind_extent
  · have hshown := rel_or (rel_or (rel_or (rel_or (rel_or (container?_alike hline hrest)
      (foldout?_alike hline hrest)) (tabGroup?_alike hline hrest)) (button?_alike hline hrest))
      (labelledTextArea?_alike hline hrest)) (call?_alike hline hrest)
    revert hshown
    generalize (((((container? line rest).or _).or _).or _).or _).or _ = step?
    generalize (((((container? other behind).or _).or _).or _).or _).or _ = step'?
    intro hshown
    cases hshown with
    | none => exact code_alike hline hrest
    | some h => exact h

end Step

/-! ## Roots -/

/-- Which roots that are recovered from some lines stand for code. -/
def opaqueRoots (lines : List Text) : List Bool :=
  (recoverLines lines).elements.map (·.fields.isOpaque)

/-- A blank line stands for nothing. -/
theorem opaqueRoots_blank_cons {line : Text} (h : line.blank) (rest : List Text) :
    opaqueRoots (line :: rest) = opaqueRoots rest := by
  have hnext : Step.next line rest = .skip rest := by
    rw [Step.next, codeOf_of_blank h]
    rfl
  rw [opaqueRoots, recoverLines_of_skip hnext]
  rfl

theorem opaqueRoots_blank_append {front : List Text} (h : ∀ line ∈ front, line.blank)
    (rest : List Text) : opaqueRoots (front ++ rest) = opaqueRoots rest := by
  induction front with
  | nil => rfl
  | cons line others ih =>
    rw [List.forall_mem_cons] at h
    rw [List.cons_append, opaqueRoots_blank_cons h.1, ih h.2]

/-- Which roots of a body stand for code does not depend on its margin. -/
theorem Moved.opaqueRoots_eq {lines others : List Text} (h : Moved lines others) :
    opaqueRoots lines = opaqueRoots others := by
  induction hweight : weight lines using Nat.strong_induction_on generalizing lines others with
  | _ bound ih =>
  cases h with
  | ended h h' =>
    have hnil : ∀ {lines : List Text}, (∀ line ∈ lines, line.blank) → opaqueRoots lines = [] := by
      intro lines hblank
      have hroots := opaqueRoots_blank_append hblank []
      rw [List.append_nil] at hroots
      rw [hroots, opaqueRoots, recoverLines_nil]
      rfl
    rw [hnil h, hnil h']
  | @cons line other rest behind hline hrest =>
    have hnext := Step.next_alike hline hrest
    have hshrinks := Step.shrinks_next line rest
    rw [hweight] at hshrinks
    generalize hstep : Step.next line rest = step at hnext hshrinks
    generalize hstep' : Step.next other behind = step' at hnext
    cases hnext with
    | skip h =>
      rw [opaqueRoots, opaqueRoots, recoverLines_of_skip hstep, recoverLines_of_skip hstep']
      exact ih _ hshrinks h rfl
    | take hcode h =>
      rw [opaqueRoots, opaqueRoots, recoverLines_of_take hstep, recoverLines_of_take hstep']
      exact congrArg₂ List.cons hcode.symm (ih _ hshrinks h rfl)
    | enter h =>
      rw [opaqueRoots, opaqueRoots, recoverLines_of_enter hstep, recoverLines_of_enter hstep']
      exact congrArg₂ List.cons rfl (ih _ hshrinks.2 h rfl)

theorem Moved.map {lines : List Text} {change : Text → Text}
    (h : ∀ line ∈ lines, SameButMargin line (change line)) : Moved lines (lines.map change) := by
  induction lines with
  | nil => exact .refl []
  | cons line rest ih =>
    rw [List.forall_mem_cons] at h
    exact .cons h.1 (ih h.2)

theorem Moved.append_blank {blanks : List Text} (h : ∀ line ∈ blanks, line.blank)
    (lines : List Text) : Moved lines (lines ++ blanks) := by
  induction lines with
  | nil => exact .ended (List.forall_mem_nil _) h
  | cons line rest ih => exact .cons (.inl ⟨0, 0, line, rfl, rfl⟩) ih

/-- Lines are the trimmed ones between empty lines. -/
theorem Text.exists_trimEmpty (lines : List Text) :
    ∃ front back, lines = front ++ (trimEmpty lines ++ back) ∧ (∀ line ∈ front, line.blank) ∧
      ∀ line ∈ back, line.blank := by
  have hblank : ∀ {items : List Text}, ∀ line ∈ items.takeWhile (·.isEmpty), line.blank := by
    intro items line hline
    rw [List.isEmpty_iff.mp (List.mem_takeWhile_imp hline)]
    rfl
  refine ⟨lines.takeWhile (·.isEmpty),
    ((lines.dropWhile (·.isEmpty)).reverse.takeWhile (·.isEmpty)).reverse, ?_, hblank,
    fun line hline => hblank line (List.mem_reverse.mp hline)⟩
  rw [trimEmpty, ← List.reverse_append, List.takeWhile_append_dropWhile, List.reverse_reverse,
    List.takeWhile_append_dropWhile]

/-- Empty lines at the two ends of a body stand for nothing. -/
theorem opaqueRoots_trimEmpty (lines : List Text) :
    opaqueRoots (Text.orBlank (Text.trimEmpty lines)) = opaqueRoots lines := by
  have horBlank : opaqueRoots (Text.orBlank (Text.trimEmpty lines)) =
      opaqueRoots (Text.trimEmpty lines) := by
    cases Text.trimEmpty lines with
    | nil => exact opaqueRoots_blank_cons rfl []
    | cons line rest => rfl
  obtain ⟨front, back, heq, hfront, hback⟩ := Text.exists_trimEmpty lines
  conv_rhs => rw [heq, opaqueRoots_blank_append hfront]
  rw [horBlank]
  exact (Moved.append_blank hback _).opaqueRoots_eq

/-- As much of a body stands for code at every margin. -/
theorem opaqueRoots_reindent {text : Text} (h : '\t' ∉ text) (count : Nat) :
    opaqueRoots (Text.reindent count text).lines = opaqueRoots text.lines := by
  rw [Text.lines_reindent, Text.lines_dedent h,
    ← (Moved.map fun line _ => Text.sameButMargin_indentLine count line).opaqueRoots_eq,
    opaqueRoots_trimEmpty]
  exact (Moved.map fun line hline => Text.sameButMargin_removeMargin fun hspaces =>
    Text.commonMargin_le hline hspaces).opaqueRoots_eq.symm

/-- A gate looks at the number of roots and at those that stand for code. -/
theorem Gate.fallsBack_eq (gate : Gate) {elements others : Forest}
    (h : elements.map (·.fields.isOpaque) = others.map (·.fields.isOpaque)) :
    gate.fallsBack elements = gate.fallsBack others := by
  have hlength : elements.length = others.length := by
    simpa using congrArg List.length h
  have hcount : Gate.opaqueCount elements = Gate.opaqueCount others := by
    have := congrArg (List.countP id) h
    rwa [List.countP_map, List.countP_map] at this
  rw [Gate.fallsBack, Gate.fallsBack, hlength, hcount]

end EditorScript
