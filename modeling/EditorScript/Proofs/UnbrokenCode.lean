import EditorScript.Proofs.MovedTexts
import EditorScript.Proofs.ReadBack
import EditorScript.Proofs.Trimming

/-!
# Statements on one line

What an element writes on a line has no newline and no tab in it, whatever is quoted there.
A statement of that kind begins with a visible character, so its margin is the one it is
written behind.
-/

namespace EditorScript

/-! ## Pieces of statements -/

/-- A piece of a line without tabs. -/
def Unbroken (text : Text) : Prop :=
  '\n' ∉ text ∧ '\t' ∉ text

instance (text : Text) : Decidable (Unbroken text) :=
  inferInstanceAs (Decidable ('\n' ∉ text ∧ '\t' ∉ text))

theorem Unbroken.append {first second : Text} (h : Unbroken first) (h' : Unbroken second) :
    Unbroken (first ++ second) :=
  ⟨by simp [h.1, h'.1], by simp [h.2, h'.2]⟩

theorem Unbroken.around {front middle back : Text} (h : Unbroken front) (hmiddle : Unbroken middle)
    (hback : Unbroken back) : Unbroken (front ++ middle ++ back) :=
  (h.append hmiddle).append hback

theorem Unbroken.literal {characters : List Char} (h : Unbroken characters) :
    Unbroken (String.ofList characters).toList :=
  Text.literal h

theorem unbroken_quote (content : Text) : Unbroken (quote content) := by
  have hescape : '\t' ∉ escape content := by
    induction content with
    | nil => simp
    | cons c rest ih =>
      rw [escape_cons, List.mem_append, not_or]
      refine ⟨?_, ih⟩
      unfold escapeChar
      split_ifs <;> simp_all [eq_comm]
  exact ⟨newline_notMem_quote content, by simp [quote_eq, hescape]⟩

theorem unbroken_dirtyTarget (kind : ScriptKind) : Unbroken kind.dirtyTarget := by
  cases kind <;> decide

theorem Unbroken.join {separator : Text} {pieces : List Text} (h : Unbroken separator)
    (hpieces : ∀ piece ∈ pieces, Unbroken piece) : Unbroken (Text.join separator pieces) :=
  ⟨Text.notMem_join h.1 fun piece hpiece => (hpieces piece hpiece).1,
    Text.notMem_join h.2 fun piece hpiece => (hpieces piece hpiece).2⟩

/-- Characters of a class without newlines and tabs. -/
theorem unbroken_of_forall {accepts : Char → Bool} {text : Text} (h : ∀ c ∈ text, accepts c)
    (hnewline : accepts '\n' = false) (htab : accepts '\t' = false) : Unbroken text := by
  constructor <;> intro hmem
  · exact absurd (h _ hmem) (by rw [hnewline]; decide)
  · exact absurd (h _ hmem) (by rw [htab]; decide)

theorem unbroken_numeral {text : Text} (h : text.all isNumeral) : Unbroken text :=
  unbroken_of_forall (List.all_eq_true.mp h) (by decide) (by decide)

theorem unbroken_boolText (value : Bool) : Unbroken (boolText value) := by
  cases value <;> decide

theorem unbroken_name_severity (severity : Severity) : Unbroken (Named.name severity) := by
  cases severity <;> decide

theorem unbroken_stringArray (items : List Text) : Unbroken (stringArray items) := by
  have hitems : ∀ item ∈ items.map quote, Unbroken item := by
    intro item hitem
    obtain ⟨content, -, rfl⟩ := List.mem_map.mp hitem
    exact unbroken_quote content
  exact .around (.literal (by decide)) (.join (.literal (by decide)) hitems)
    (.literal (by decide))

/-- A text that is set, or else a usual one. -/
theorem unbroken_present?_getD {text : Option Text} (h : ∀ content ∈ text, Unbroken content)
    {usual : Text} (husual : Unbroken usual) : Unbroken ((present? text).getD usual) := by
  cases hcontent : present? text with
  | none => exact husual
  | some content => exact h content (eq_some_of_present? hcontent)

theorem unbroken_wholeLimit {limit : Binary64} {text : Text} (h : wholeLimit limit = .ok text) :
    Unbroken text := by
  unfold wholeLimit at h
  split at h
  · cases h
    exact unbroken_numeral (numeral_intText _)
  · cases h

namespace ElementFields

variable {fields : ElementFields}

theorem unbroken_styleChange {change : Text} (h : change ∈ fields.styleChanges) :
    Unbroken change := by
  simp only [styleChanges, List.mem_append] at h
  rcases h with (h | h) | h
  · split at h
    · split at h
      · cases h
      · rw [List.mem_singleton.mp h]
        exact .append (.literal (by decide)) (unbroken_numeral (numeral_intText _))
    · cases h
  · split at h
    · cases h
    · cases h
    · rename_i style _ _
      rw [List.mem_singleton.mp h]
      refine .append (.literal (by decide)) ?_
      cases style <;> decide
  · split at h
    · rename_i side _
      rw [List.mem_singleton.mp h]
      refine .append (.literal (by decide)) ?_
      cases side <;> decide
    · cases h

theorem unbroken_style {usual style : Text} (husual : Unbroken usual)
    (h : style ∈ fields.style? usual) : Unbroken style := by
  have hnamed : ∀ name ∈ (present? fields.boxStyle).map quote, Unbroken name := by
    intro name hname
    obtain ⟨content, -, rfl⟩ := Option.map_eq_some_iff.mp hname
    exact unbroken_quote content
  unfold style? at h
  split at h
  · dsimp only at h
    split at h
    · exact hnamed style h
    · rw [Option.mem_some_iff] at h
      subst h
      have hbase : Unbroken (((present? fields.boxStyle).map quote).getD usual) := by
        cases hname : (present? fields.boxStyle).map quote with
        | none => exact husual
        | some name => exact hnamed name hname
      have hchanges : Unbroken (Text.join ", " fields.styleChanges) :=
        .join (.literal (by decide)) fun change hchange => unbroken_styleChange hchange
      exact .around (.around (.literal (by decide)) hbase (.literal (by decide))) hchanges
        (.literal (by decide))
  · cases h

theorem unbroken_style?_getD {usual : Text} (husual : Unbroken usual) :
    Unbroken ((fields.style? usual).getD usual) := by
  cases hstyle : fields.style? usual with
  | none => exact husual
  | some style => exact unbroken_style husual hstyle

theorem unbroken_styledArguments {arguments : List Text} {usual : Text}
    (h : ∀ argument ∈ arguments, Unbroken argument) (husual : Unbroken usual) :
    Unbroken (fields.styledArguments arguments usual) := by
  refine .join (.literal (by decide)) fun argument hargument => ?_
  rcases List.mem_append.mp hargument with hargument | hargument
  · exact h argument hargument
  · exact unbroken_style husual (by simpa using hargument)

end ElementFields

/-! ## Whole statements -/

/-- A statement as it stands behind its margin: a piece of a line that begins with a visible
character. -/
def Inline (code : Text) : Prop :=
  code.head?.any (fun c => !isBlank c) ∧ Unbroken code

instance (code : Text) : Decidable (Inline code) :=
  inferInstanceAs (Decidable (code.head?.any (fun c => !isBlank c) ∧ Unbroken code))

namespace Inline

variable {code : Text}

theorem literal {characters : List Char} (h : Inline characters) :
    Inline (String.ofList characters).toList :=
  Text.literal h

theorem exists_cons (h : Inline code) : ∃ c rest, code = c :: rest ∧ isBlank c = false := by
  obtain ⟨hfirst, -⟩ := h
  cases code with
  | nil => cases hfirst
  | cons c rest => exact ⟨c, rest, rfl, by simpa using hfirst⟩

theorem append (h : Inline code) {more : Text} (hmore : Unbroken more) :
    Inline (code ++ more) := by
  obtain ⟨c, rest, rfl, hblank⟩ := h.exists_cons
  refine ⟨?_, h.2.append hmore⟩
  simp [hblank]

theorem around (h : Inline code) {middle back : Text} (hmiddle : Unbroken middle)
    (hback : Unbroken back) : Inline (code ++ middle ++ back) :=
  (h.append hmiddle).append hback

theorem blank_eq_false (h : Inline code) : code.blank = false := by
  obtain ⟨c, rest, rfl, hblank⟩ := h.exists_cons
  simp [Text.blank, hblank]

theorem ne_nil (h : Inline code) : code ≠ [] := by
  obtain ⟨c, rest, rfl, -⟩ := h.exists_cons
  exact List.cons_ne_nil c rest

theorem ne_space (h : Inline code) : ∀ c ∈ code.head?, c ≠ ' ' := by
  obtain ⟨c, rest, rfl, hblank⟩ := h.exists_cons
  rintro _ ⟨⟩ rfl
  rw [isBlank_space] at hblank
  cases hblank

theorem margin_eq_zero (h : Inline code) : code.margin = 0 := by
  obtain ⟨c, rest, rfl, -⟩ := h.exists_cons
  simp [Text.margin, h.ne_space c rfl]

theorem onlySpaces_eq_false (h : Inline code) : code.onlySpaces = false := by
  obtain ⟨c, rest, rfl, -⟩ := h.exists_cons
  simp [Text.onlySpaces, h.ne_space c rfl]

theorem of_isVariableName (h : IsVariableName code) : Inline code := by
  obtain ⟨hne, hword⟩ := h
  obtain ⟨c, rest, rfl⟩ := List.exists_cons_of_ne_nil hne
  refine ⟨?_, unbroken_of_forall hword (by decide) (by decide)⟩
  simp [isBlank_of_isWord (hword c List.mem_cons_self)]

end Inline

namespace ElementFields

variable {fields : ElementFields}

theorem inline_valueCall (hname : Inline fields.variableName) {call : Text} (hcall : Unbroken call)
    {arguments : List Text} (h : ∀ argument ∈ arguments, Unbroken argument) :
    Inline (fields.valueCall call arguments) := by
  have hall : ∀ argument ∈ [quote fields.label, fields.variableName] ++ arguments,
      Unbroken argument :=
    List.forall_mem_append.mpr ⟨List.forall_mem_cons.mpr ⟨unbroken_quote _,
      List.forall_mem_singleton.mpr hname.2⟩, h⟩
  exact ((hname.append (.literal (by decide))).around hcall (.literal (by decide))).around
    (.join (.literal (by decide)) hall) (.literal (by decide))

section Action

variable {action : ButtonAction} (haction : fields.action = some action) (hset : action ≠ .none)
  (hown : action ≠ .customCode) (kind : ScriptKind)
include haction hset hown

/-- An action without code of its own is one statement. -/
theorem inline_actionCode : Inline (fields.actionCode 0 0 kind) := by
  have hzero : indentation 0 0 = [] := rfl
  have hquote := unbroken_quote
  have htarget := unbroken_dirtyTarget kind
  cases action <;> simp only [actionCode, haction, hzero, List.nil_append]
  case none => exact absurd rfl hset
  case customCode => exact absurd rfl hown
  case repaint => decide
  case debugLog => exact .around (.literal (by decide)) (hquote _) (.literal (by decide))
  case setDirty => exact .around (.literal (by decide)) htarget (.literal (by decide))
  case displayDialog =>
    exact .around (.around (.literal (by decide)) (hquote _) (.literal (by decide))) (hquote _)
      (.literal (by decide))
  case undoRecord =>
    exact .around (.around (.literal (by decide)) htarget (.literal (by decide))) (hquote _)
      (.literal (by decide))

/-- The level it is written at shows in its margin only. -/
theorem actionCode_eq (width level : Nat) :
    fields.actionCode width level kind =
      indentation width level ++ fields.actionCode 0 0 kind := by
  have hzero : indentation 0 0 = [] := rfl
  cases action <;> simp only [actionCode, haction, hzero, List.nil_append, List.append_assoc]
  case none => exact absurd rfl hset
  case customCode => exact absurd rfl hown

end Action

/-- The block of a button holds one statement, which depends on the level by its margin only, or
code that is written at the margin. -/
theorem blockCode_cases (fields : ElementFields) (kind : ScriptKind) :
    (∃ code, Inline code ∧ ∀ width level,
      fields.blockCode width level kind = indentation width level ++ code) ∨
    ∃ code, fields.action = some .customCode ∧ fields.actionParam = some code ∧
      code.blank = false ∧ ∀ width level,
        fields.blockCode width level kind = Text.reindent (width * level) code := by
  have hcomment : (∀ width level, fields.actionCode width level kind = []) →
      ∃ code, Inline code ∧ ∀ width level,
        fields.blockCode width level kind = indentation width level ++ code := by
    intro hnothing
    refine ⟨"// Button action", by decide, fun width level => ?_⟩
    simp only [blockCode, hnothing, List.isEmpty_nil, if_true]
  cases haction : fields.action with
  | none => exact .inl (hcomment fun _ _ => by simp only [actionCode, haction])
  | some action =>
    by_cases hset : action = .none
    · exact .inl (hcomment fun _ _ => by simp only [actionCode, haction, hset])
    by_cases hown : action = .customCode
    · subst hown
      cases hparam : fields.actionParam with
      | none =>
        exact .inl (hcomment fun _ _ => by simp [actionCode, haction, hparam, Text.blank])
      | some code =>
        cases hblank : code.blank with
        | true =>
          exact .inl (hcomment fun _ _ => by simp [actionCode, haction, hparam, hblank])
        | false =>
          refine .inr ⟨code, rfl, rfl, hblank, fun width level => ?_⟩
          have hne := Text.moveRight_ne_nil (Text.blank_dedent hblank) (width * level)
          rw [← Text.reindent_eq_moveRight] at hne
          simp [blockCode, actionCode, haction, hparam, hblank, hne]
    · have hcode := inline_actionCode haction hset hown kind
      refine .inl ⟨fields.actionCode 0 0 kind, hcode, fun width level => ?_⟩
      have hne : fields.actionCode width level kind ≠ [] := by
        rw [actionCode_eq haction hset hown, Ne, List.append_eq_nil_iff]
        exact fun hnil => hcode.ne_nil hnil.2
      rw [blockCode, if_neg (by simpa using hne), actionCode_eq haction hset hown]

end ElementFields

end EditorScript
