import EditorScript.Emission.Statement
import EditorScript.Proofs.Margin
import EditorScript.Proofs.NeutralPiece

/-!
# Statements that stay within their braces

What an element is drawn with is lexically closed.  Labels, messages, options,
paths and styles are written as literals and may hold anything.  Only texts that
are written as they are have to be of the shape that C# asks for in their place:
names, conditions, initial values, and fragments of code.
-/

namespace EditorScript

/-- ASCII words with points between and around them. -/
def isDottedName (name : Text) : Bool :=
  name.all fun c => c.isAlphanum || c == '_' || c == '.'

/-- A name, perhaps negated. -/
def isCondition : Text → Bool
  | '!' :: name => isDottedName name
  | name => isDottedName name

/-- Code of one line without quotes, braces and slashes. -/
def isSimpleCode (code : Text) : Bool :=
  code.all fun c => isPlain c && c != '{' && c != '}' && c != '\n'

/-- A fragment of code that can be moved to any margin inside braces. -/
structure ClosedFragment (code : Text) : Prop where
  noTab : '\t' ∉ code
  closed : LexicallyClosed code

instance (code : Text) : Decidable (ClosedFragment code) :=
  decidable_of_iff ('\t' ∉ code ∧ LexicallyClosed code)
    ⟨fun h => ⟨h.1, h.2⟩, fun h => ⟨h.noTab, h.closed⟩⟩

/-- The texts that an element's statements show as they are have the shape of what
they are written for. -/
structure ElementFields.Enclosed (fields : ElementFields) : Prop where
  variableName : fields.needsVariable → isDottedName fields.variableName
  objectType : ∀ type ∈ fields.objectType, isDottedName type
  condition : ∀ condition ∈ fields.disableCondition, isCondition condition
  tabs : ∀ tabs ∈ fields.tabs, ∀ tab ∈ tabs, '\n' ∉ tab
  code : fields.isOpaque ∨ (fields.widget = .button ∧ fields.action = some .customCode) →
    ∀ code ∈ fields.actionParam, ClosedFragment code

/-- The texts that an element's statements and the declaration of its variable show
as they are have the shape of what they are written for. -/
structure ElementFields.Confined (fields : ElementFields) : Prop extends fields.Enclosed where
  value : fields.needsVariable → !fields.widget.keepsText →
    ∀ value ∈ fields.defaultValue, isSimpleCode value
  text : fields.needsVariable → fields.widget.keepsText →
    ∀ value ∈ fields.defaultValue, !Text.startsWith value "\""

instance (fields : ElementFields) : Decidable fields.Confined :=
  decidable_of_iff
    ((fields.needsVariable → isDottedName fields.variableName) ∧
      (∀ type ∈ fields.objectType, isDottedName type) ∧
      (∀ condition ∈ fields.disableCondition, isCondition condition) ∧
      (∀ tabs ∈ fields.tabs, ∀ tab ∈ tabs, '\n' ∉ tab) ∧
      (fields.needsVariable → !fields.widget.keepsText →
        ∀ value ∈ fields.defaultValue, isSimpleCode value) ∧
      (fields.needsVariable → fields.widget.keepsText →
        ∀ value ∈ fields.defaultValue, !Text.startsWith value "\"") ∧
      (fields.isOpaque ∨ (fields.widget = .button ∧ fields.action = some .customCode) →
        ∀ code ∈ fields.actionParam, ClosedFragment code))
    ⟨fun ⟨h1, h2, h3, h4, h5, h6, h7⟩ => ⟨⟨h1, h2, h3, h4, h7⟩, h5, h6⟩,
      fun h => ⟨h.variableName, h.objectType, h.condition, h.tabs, h.value, h.text, h.code⟩⟩

theorem isTame_of_isAlphanum {c : Char} (h : c.isAlphanum || c == '_' || c == '.') :
    isTame c := by
  have hne : ∀ d : Char, !(d.isAlphanum || d == '_' || d == '.') → c ≠ d := by
    rintro d hd rfl
    simp [h] at hd
  have h1 := hne '/' (by decide)
  have h2 := hne '"' (by decide)
  have h3 := hne '\'' (by decide)
  have h4 := hne '{' (by decide)
  have h5 := hne '}' (by decide)
  have h6 := hne '@' (by decide)
  have h7 := hne '\n' (by decide)
  simp [isTame, isPlain, h1, h2, h3, h4, h5, h6, h7]

theorem tame_of_isDottedName {name : Text} (h : isDottedName name) : name.all isTame :=
  List.all_eq_true.mpr fun c hc => isTame_of_isAlphanum (List.all_eq_true.mp h c hc)

theorem neutral_of_isDottedName {name : Text} (h : isDottedName name) : Neutral name :=
  neutral_of_tame (tame_of_isDottedName h)

theorem neutral_of_isCondition {condition : Text} (h : isCondition condition) :
    Neutral condition := by
  unfold isCondition at h
  split at h
  · rename_i name
    have hmark : Neutral ['!'] := neutral_of_tame (by decide)
    exact hmark.append (neutral_of_isDottedName h)
  · exact neutral_of_isDottedName h

theorem neutral_spaces (count : Nat) : Neutral (Text.spaces count) :=
  neutral_of_tame (List.all_eq_true.mpr fun c hc => by
    rw [(List.mem_replicate.mp hc).2]
    decide)

theorem neutral_indentation (width level : Nat) : Neutral (indentation width level) :=
  neutral_spaces _

/-- The digits of a number and the marks between them. -/
def isNumeral (c : Char) : Bool :=
  c.isAlphanum || c == '.' || c == '-' || c == '+'

theorem isTame_of_isNumeral {c : Char} (h : isNumeral c) : isTame c := by
  simp only [isNumeral, Bool.or_eq_true, beq_iff_eq] at h
  rcases h with ((h | rfl) | rfl) | rfl
  · exact isTame_of_isAlphanum (by simp [h])
  all_goals decide

theorem numeral_natText (n : Nat) : (natText n).all isNumeral :=
  List.all_eq_true.mpr fun c hc => by
    have hdigit : c.isDigit := Nat.isDigit_of_mem_toDigits (by decide) (by decide) hc
    simp [isNumeral, Char.isAlphanum, hdigit]

private theorem numeral_of_subset {text other : Text} (h : text.all isNumeral)
    (hsubset : other ⊆ text) : other.all isNumeral :=
  List.all_eq_true.mpr fun c hc => List.all_eq_true.mp h c (hsubset hc)

theorem numeral_decimal (layout : NumberLayout) (d : Decimal) :
    (layout.decimal d).all isNumeral := by
  have hdigits := numeral_natText d.digits
  have htake : ∀ n, ((natText d.digits).take n).all isNumeral := fun n =>
    numeral_of_subset hdigits (List.take_subset n _)
  have hdrop : ∀ n, ((natText d.digits).drop n).all isNumeral := fun n =>
    numeral_of_subset hdigits (List.drop_subset n _)
  have hzeros : ∀ n, (List.replicate n '0').all isNumeral := fun n => by
    simp [List.all_replicate, show isNumeral '0' from rfl]
  have hpower := numeral_natText d.leading.natAbs
  have hmarks : List.all "0." isNumeral ∧ List.all "e-" isNumeral ∧ List.all "e+" isNumeral ∧
      isNumeral '0' ∧ isNumeral '.' := by decide
  unfold NumberLayout.decimal
  dsimp only
  split_ifs <;> simp only [List.all_append, List.all_cons, List.all_nil, padded,
    Bool.and_eq_true, hdigits, htake, hdrop, hzeros, hpower, hmarks, and_self]

theorem numeral_intText (n : Int) : (intText n).all isNumeral := by
  unfold intText
  split
  · rw [List.all_cons, numeral_natText]
    decide
  · exact numeral_natText _

/-- A number is written with digits and the marks between them. -/
theorem numeral_numberText (x : Binary64) : (numberText x).all isNumeral := by
  unfold numberText
  split
  · exact numeral_intText _
  · unfold NumberLayout.text
    split
    · decide
    · rw [List.all_append, Bool.and_eq_true]
      constructor
      · split <;> decide
      · split_ifs
        · decide
        · decide
        · exact numeral_decimal _ _

theorem neutral_of_numeral {text : Text} (h : text.all isNumeral) : Neutral text :=
  neutral_of_tame (List.all_eq_true.mpr fun c hc =>
    isTame_of_isNumeral (List.all_eq_true.mp h c hc))

theorem neutral_natText (n : Nat) : Neutral (natText n) :=
  neutral_of_numeral (numeral_natText n)

theorem neutral_intText (n : Int) : Neutral (intText n) :=
  neutral_of_numeral (numeral_intText n)

theorem neutral_numberText (x : Binary64) : Neutral (numberText x) :=
  neutral_of_numeral (numeral_numberText x)

theorem neutral_boolText (value : Bool) : Neutral (boolText value) := by
  cases value <;> exact neutral_literal (by decide)

theorem neutral_name_severity (severity : Severity) : Neutral (Named.name severity) := by
  cases severity <;> exact neutral_literal (by decide)

theorem neutral_styleChange {fields : ElementFields} {change : Text}
    (h : change ∈ fields.styleChanges) : Neutral change := by
  simp only [ElementFields.styleChanges, List.mem_append] at h
  rcases h with (h | h) | h
  · split at h
    · split at h
      · simp at h
      · rw [List.mem_singleton.mp h]
        exact (neutral_literal (by decide)).append (neutral_intText _)
    · simp at h
  · split at h
    · simp at h
    · simp at h
    · rw [List.mem_singleton.mp h]
      rename_i style _ _
      refine (neutral_literal (by decide)).append ?_
      cases style <;> exact neutral_literal (by decide)
  · split at h
    · rw [List.mem_singleton.mp h]
      rename_i side _
      refine (neutral_literal (by decide)).append ?_
      cases side <;> exact neutral_literal (by decide)
    · simp at h

/-- Neutral items in braces with blanks on the inside. -/
theorem loose_blockOf {before items : Text} (h : Loose before) (hitems : Neutral (items ++ [' '])) :
    Loose (before ++ ['\x7b', ' '] ++ items ++ [' ', '\x7d']) := by
  have hshape : before ++ ['\x7b', ' '] ++ items ++ [' ', '\x7d'] =
      before ++ ('\x7b' :: (([' '] ++ (items ++ [' '])) ++ ['\x7d'])) := by simp
  rw [hshape]
  exact h.append (loose_braces ((neutral_of_tame (by decide)).append hitems)).neutral

/-- Changes of a style in their braces. -/
private theorem loose_changes (fields : ElementFields) :
    Loose (") \x7b " ++ Text.join ", " fields.styleChanges ++ " \x7d") := by
  have hchanges : Neutral (Text.join ", " fields.styleChanges ++ [' ']) :=
    neutral_join_append (fun change hchange => (neutral_styleChange hchange).separable)
      (loose_of_tame (by decide) (by decide))
  have hbefore : Loose ") ".toList := loose_literal (by decide) (by decide)
  exact loose_blockOf hbefore hchanges

/-- A style can stand among the arguments of a call. -/
theorem separable_style {fields : ElementFields} {usual style : Text} (husual : Separable usual)
    (h : style ∈ fields.style? usual) : Separable style := by
  unfold ElementFields.style? at h
  split at h
  · dsimp only at h
    have hnamed : ∀ name ∈ (present? fields.boxStyle).map quote, Separable name := by
      intro name hname
      obtain ⟨content, -, rfl⟩ := Option.map_eq_some_iff.mp hname
      exact separable_quote content
    split at h
    · exact hnamed style h
    · rw [Option.mem_some_iff] at h
      subst h
      have hbase : Separable (((present? fields.boxStyle).map quote).getD usual) := by
        cases hname : (present? fields.boxStyle).map quote with
        | none => exact husual
        | some name => exact hnamed name hname
      have hwhole := hbase.append (loose_changes fields)
      have hopen : Neutral "new GUIStyle(".toList := neutral_literal (by decide)
      simpa [List.append_assoc] using (hopen.append hwhole).separable
  · simp at h

theorem separable_styledArguments {fields : ElementFields} {arguments : List Text} {usual : Text}
    (h : ∀ argument ∈ arguments, Separable argument) (husual : Separable usual) {rest : Text}
    (hrest : Loose rest) : Neutral (fields.styledArguments arguments usual ++ rest) := by
  refine neutral_join_append (fun argument hargument => ?_) hrest
  rcases List.mem_append.mp hargument with hargument | hargument
  · exact h argument hargument
  · exact separable_style husual (by simpa using hargument)

theorem neutral_valueCall {fields : ElementFields} (hname : isDottedName fields.variableName)
    {call : Text} (hcall : Neutral call) {arguments : List Text}
    (h : ∀ argument ∈ arguments, Separable argument) :
    Neutral (fields.valueCall call arguments) := by
  have hvariable := neutral_of_isDottedName hname
  unfold ElementFields.valueCall
  rw [List.append_assoc _ (Text.join _ _)]
  refine (((hvariable.append (neutral_literal (by decide))).append hcall).append
    (neutral_literal (by decide))).append (neutral_join_append ?_ (loose_literal (by decide) (by decide)))
  intro argument hargument
  simp only [List.cons_append, List.nil_append, List.mem_cons] at hargument
  rcases hargument with rfl | rfl | hargument
  · exact separable_quote _
  · exact hvariable.separable
  · exact h argument hargument

theorem loose_stringArray (items : List Text) : Loose (stringArray items) := by
  have hitems : Neutral (Text.join ", " (items.map quote) ++ [' ']) := by
    refine neutral_join_append ?_ (loose_of_tame (by decide) (by decide))
    intro item hitem
    obtain ⟨content, -, rfl⟩ := List.mem_map.mp hitem
    exact separable_quote content
  have hbefore : Loose "new string[] ".toList := loose_literal (by decide) (by decide)
  have hopen : ("new string[] \x7b " : Text) = ("new string[] " : Text) ++ ['\x7b', ' '] := by
    decide
  have hclose : (" \x7d" : Text) = [' ', '\x7d'] := rfl
  unfold stringArray
  rw [hopen, hclose]
  exact loose_blockOf hbefore hitems

theorem neutral_dirtyTarget (kind : ScriptKind) : Neutral kind.dirtyTarget := by
  cases kind <;> exact neutral_literal (by decide)

end EditorScript
