import EditorScript.Number.Layout
import EditorScript.Recovery.Step

/-!
# Recovery of a body

Step by step the lines of a method's body become a forest of elements, the
inside of a container becoming its children.  Every step uses up characters, so
recovery ends for every body.
-/

namespace EditorScript

/-- Recovered elements and what could not be made sense of. -/
structure Recovered where
  elements : Forest
  warnings : List Text
deriving DecidableEq, Repr

namespace Step

/-- Everything a step leaves to do weighs less than the lines it started from. -/
def Shrinks (bound : Nat) : Step → Prop
  | skip rest => weight rest < bound
  | take _ _ rest => weight rest < bound
  | enter _ inner rest => weight inner < bound ∧ weight rest < bound

theorem length_cutAt?_le {needle text skipped after : Text}
    (h : Text.cutAt? needle text = some (skipped, after)) :
    after.length + needle.length ≤ text.length := by
  induction text generalizing skipped with
  | nil =>
    simp only [Text.cutAt?, Option.ite_none_right_eq_some] at h
    obtain ⟨rfl, h⟩ := h
    cases h
    simp
  | cons c rest ih =>
    rw [Text.cutAt?] at h
    split at h
    · rename_i hstart
      cases h
      have hle := (List.isPrefixOf_iff_prefix.mp hstart).length_le
      simp only [List.length_drop]
      omega
    · simp only [Option.map_eq_some_iff, Prod.mk.injEq] at h
      obtain ⟨⟨before, behind⟩, hcut, rfl, rfl⟩ := h
      have hle : behind.length + needle.length ≤ rest.length := ih hcut
      simp only [List.length_cons]
      omega

theorem weight_behindComment_le (line : Text) (rest : List Text) :
    weight (behindComment line rest) ≤ line.length + 1 + weight rest := by
  induction rest generalizing line with
  | nil =>
    rw [behindComment]
    split
    · rename_i hcut
      have := length_cutAt?_le hcut
      split
      · simp
      · simp only [weight_cons, weight_nil]
        omega
    · simp
  | cons next rest ih =>
    rw [behindComment]
    split
    · rename_i hcut
      have := length_cutAt?_le hcut
      split
      · omega
      · simp only [weight_cons]
        omega
    · have := ih next
      simp only [weight_cons]
      omega

theorem shrinks_drop {bound count : Nat} {rest : List Text} (h : weight rest < bound) :
    weight (rest.drop count) < bound :=
  Nat.lt_of_le_of_lt (weight_drop_le count rest) h

theorem shrinks_container? {line : Text} {rest : List Text} {step : Step}
    (h : container? line rest = some step) : step.Shrinks (weight (line :: rest)) := by
  simp only [container?, Option.map_eq_some_iff] at h
  obtain ⟨⟨shape, fields⟩, _, rfl⟩ := h
  have hrest : weight rest < weight (line :: rest) := by simp
  dsimp only
  split
  · exact ⟨Nat.lt_of_le_of_lt (weight_take_le _ _) hrest, shrinks_drop hrest⟩
  · exact hrest

/-- A guard is the first code, and the block that is found there is what it guards. -/
theorem guarded?_eq_some {keyword : String} {variableName : Text} {rest inner behind : List Text}
    (h : guarded? keyword variableName rest = some (inner, behind)) :
    ∃ place code block, firstCode? rest = some (place, code) ∧
      (guard keyword variableName).accepts code ∧ findBlock? (rest.drop place) 0 = some block ∧
        inner = block.bodyLines (rest.drop place) ∧
          behind = (rest.drop place).drop (block.endLine + 1) := by
  unfold guarded? at h
  split at h
  · cases h
  rename_i place code hfirst
  split at h
  · rename_i haccepts
    obtain ⟨block, hblock, heq⟩ := Option.map_eq_some_iff.mp h
    obtain ⟨rfl, rfl⟩ := Prod.mk.inj heq
    exact ⟨place, code, block, hfirst, haccepts, hblock, rfl, rfl⟩
  · cases h

theorem weight_guarded?_lt {keyword : String} {variableName : Text} {rest inner behind : List Text}
    {bound : Nat} (hrest : weight rest < bound)
    (h : guarded? keyword variableName rest = some (inner, behind)) :
    weight inner < bound ∧ weight behind < bound := by
  obtain ⟨place, _, block, -, -, hblock, rfl, rfl⟩ := guarded?_eq_some h
  exact ⟨Nat.lt_of_le_of_lt (weight_bodyLines_le hblock) (shrinks_drop hrest),
    shrinks_drop (shrinks_drop hrest)⟩

theorem shrinks_foldout? {line : Text} {rest : List Text} {step : Step}
    (h : foldout? line rest = some step) : step.Shrinks (weight (line :: rest)) := by
  simp only [foldout?, Option.map_eq_some_iff] at h
  obtain ⟨found, _, rfl⟩ := h
  have hrest : weight rest < weight (line :: rest) := by simp
  split
  · rename_i hguard
    exact weight_guarded?_lt hrest hguard
  · exact hrest

theorem shrinks_tabGroup? {line : Text} {rest : List Text} {step : Step}
    (h : tabGroup? line rest = some step) : step.Shrinks (weight (line :: rest)) := by
  simp only [tabGroup?, Option.map_eq_some_iff] at h
  obtain ⟨found, _, rfl⟩ := h
  have hrest : weight rest < weight (line :: rest) := by simp
  split
  · rename_i hguard
    simp only [Shrinks]
    split
    · exact (weight_guarded?_lt hrest hguard).2
    · exact hrest
  · exact hrest

theorem shrinks_button? {line : Text} {rest : List Text} {step : Step}
    (h : button? line rest = some step) : step.Shrinks (weight (line :: rest)) := by
  simp only [button?, Option.bind_eq_some_iff] at h
  obtain ⟨found, _, fields, _, h⟩ := h
  have hrest : weight rest < weight (line :: rest) := by simp
  split at h
  · simp only [Option.map_eq_some_iff] at h
    obtain ⟨block, _, rfl⟩ := h
    exact shrinks_drop hrest
  · split at h
    · cases h
      exact hrest
    · split at h
      · cases h
        exact hrest
      · cases h
        exact shrinks_drop (shrinks_drop hrest)

/-- A labelled text area is read from the next code, and what is behind that is left. -/
theorem labelledTextArea?_eq_some {line : Text} {rest : List Text} {step : Step}
    (h : labelledTextArea? line rest = some step) :
    ∃ found place code read, plainLabel.match? (codeOf line) = some found ∧
      firstCode? rest = some (place, code) ∧ matchCall? code = some read ∧
        read.2.widget = .textArea ∧
          step = take (.leaf { read.2 with label := CallShape.textOf found "text" }) []
            (rest.drop (place + 1)) := by
  unfold labelledTextArea? at h
  split at h
  · rename_i found place code hlabel hfirst
    split at h
    · rename_i hcall
      obtain ⟨hwidget, heq⟩ := Option.ite_none_right_eq_some.mp h
      exact ⟨found, place, code, _, hlabel, hfirst, hcall, hwidget, (Option.some.inj heq).symm⟩
    · cases h
  · cases h

theorem shrinks_labelledTextArea? {line : Text} {rest : List Text} {step : Step}
    (h : labelledTextArea? line rest = some step) : step.Shrinks (weight (line :: rest)) := by
  obtain ⟨_, _, _, _, -, -, -, -, rfl⟩ := labelledTextArea?_eq_some h
  exact shrinks_drop (by simp)

theorem shrinks_call? {line : Text} {rest : List Text} {step : Step}
    (h : call? line rest = some step) : step.Shrinks (weight (line :: rest)) := by
  simp only [call?, Option.map_eq_some_iff] at h
  obtain ⟨_, _, rfl⟩ := h
  simp [Shrinks]

theorem shrinks_code (line : Text) (rest : List Text) :
    (code line rest).Shrinks (weight (line :: rest)) := by
  have hrest : weight rest < weight (line :: rest) := by simp
  unfold code
  split
  · exact shrinks_drop hrest
  · exact hrest

/-- Every step uses up at least one character or line break. -/
theorem shrinks_next (line : Text) (rest : List Text) :
    (next line rest).Shrinks (weight (line :: rest)) := by
  have hrest : weight rest < weight (line :: rest) := by simp
  unfold next
  dsimp only
  split
  · exact hrest
  · split
    · split
      · rename_i opened hcut
        have hle := length_cutAt?_le hcut
        have hbehind := weight_behindComment_le opened rest
        have htwo : ("/*" : Text).length = 2 := rfl
        simp only [Shrinks, weight_cons]
        omega
      · exact hrest
    · split
      · exact shrinks_drop hrest
      · cases h1 : container? line rest with
        | some step => simpa using shrinks_container? h1
        | none =>
          cases h2 : foldout? line rest with
          | some step => simpa using shrinks_foldout? h2
          | none =>
            cases h3 : tabGroup? line rest with
            | some step => simpa using shrinks_tabGroup? h3
            | none =>
              cases h4 : button? line rest with
              | some step => simpa using shrinks_button? h4
              | none =>
                cases h5 : labelledTextArea? line rest with
                | some step => simpa using shrinks_labelledTextArea? h5
                | none =>
                  cases h6 : call? line rest with
                  | some step => simpa using shrinks_call? h6
                  | none => simpa using shrinks_code line rest

theorem shrinks_of_next_eq {line : Text} {rest : List Text} {step : Step}
    (h : next line rest = step) : step.Shrinks (weight (line :: rest)) :=
  h ▸ shrinks_next line rest

end Step

/-- The elements that the lines of a body stand for, in their order. -/
def recoverLines : List Text → Recovered
  | [] => ⟨[], []⟩
  | line :: rest =>
    match _ : Step.next line rest with
    | .skip behind => recoverLines behind
    | .take element warnings behind =>
      let others := recoverLines behind
      ⟨element :: others.elements, warnings ++ others.warnings⟩
    | .enter fields inner behind =>
      let inside := recoverLines inner
      let others := recoverLines behind
      ⟨.group fields inside.elements :: others.elements, inside.warnings ++ others.warnings⟩
termination_by lines => weight lines
decreasing_by
  · exact Step.shrinks_of_next_eq ‹_›
  · exact Step.shrinks_of_next_eq ‹_›
  · exact (Step.shrinks_of_next_eq ‹_› : (Step.enter fields inner behind).Shrinks _).1
  · exact (Step.shrinks_of_next_eq ‹_› : (Step.enter fields inner behind).Shrinks _).2

section

variable {line : Text} {rest behind inner : List Text}

theorem recoverLines_of_skip (h : Step.next line rest = .skip behind) :
    recoverLines (line :: rest) = recoverLines behind := by
  rw [recoverLines]
  split
  · rename_i hnext
    rw [h] at hnext
    cases hnext
    rfl
  · rename_i hnext
    rw [h] at hnext
    cases hnext
  · rename_i hnext
    rw [h] at hnext
    cases hnext

theorem recoverLines_of_take {element : Element} {warnings : List Text}
    (h : Step.next line rest = .take element warnings behind) :
    recoverLines (line :: rest) = ⟨element :: (recoverLines behind).elements,
      warnings ++ (recoverLines behind).warnings⟩ := by
  rw [recoverLines]
  split
  · rename_i hnext
    rw [h] at hnext
    cases hnext
  · rename_i hnext
    rw [h] at hnext
    cases hnext
    rfl
  · rename_i hnext
    rw [h] at hnext
    cases hnext

theorem recoverLines_of_enter {fields : ElementFields}
    (h : Step.next line rest = .enter fields inner behind) :
    recoverLines (line :: rest) = ⟨.group fields (recoverLines inner).elements ::
      (recoverLines behind).elements, (recoverLines inner).warnings ++
        (recoverLines behind).warnings⟩ := by
  rw [recoverLines]
  split
  · rename_i hnext
    rw [h] at hnext
    cases hnext
  · rename_i hnext
    rw [h] at hnext
    cases hnext
  · rename_i hnext
    rw [h] at hnext
    cases hnext
    rfl

theorem recoverLines_nil : recoverLines [] = ⟨[], []⟩ := by
  rw [recoverLines]

end

/-- The elements that the text of a body stands for. -/
def recover (body : Text) : Recovered :=
  recoverLines body.lines

/-- Whether the element holds a whole number of more digits than one is read from. -/
def ElementFields.hasLongNumber (fields : ElementFields) : Bool :=
  [fields.spaceHeight, fields.fontSize].any fun number =>
    number.any fun value => (natText value.natAbs).length > maxDigits

/-- Whether some element holds such a number. -/
def Forest.hasLongNumber (forest : Forest) : Bool :=
  forest.flatten.any fun element => element.fields.hasLongNumber

end EditorScript
