import EditorScript.Proofs.CodeLine
import EditorScript.Proofs.DeclaredNames
import EditorScript.Proofs.StyleReading
import EditorScript.Proofs.WrittenVariables

/-!
# Reading written declarations

From each line that is written for a variable, the type and the name of the variable are
read again, whatever its initial value is (`Forest.fieldHead?_variableDeclarations`).  A
script that declares its variables with these lines needs no further ones.
-/

namespace EditorScript

open Pattern

/-- The words that may stand in front of the type of a field. -/
def fieldModifierWords : List Text :=
  ["public", "private", "protected", "internal", "static", "readonly", "const", "volatile", "new"]

/-- A name of a type: words with points between and around them, and not a word that stands
in front of types. -/
structure IsTypeName (type : Text) : Prop where
  nonempty : type ≠ []
  dotted : ∀ c ∈ type, isWord c ∨ c = '.'
  notModifier : type ∉ fieldModifierWords

instance (type : Text) : Decidable (IsTypeName type) :=
  decidable_of_iff (type ≠ [] ∧ (∀ c ∈ type, isWord c ∨ c = '.') ∧
      fieldModifierWords.contains type = false)
    ⟨fun h => ⟨h.1, h.2.1, by simpa using h.2.2⟩,
      fun h => ⟨h.nonempty, h.dotted, by simpa using h.notModifier⟩⟩

namespace IsTypeName

variable {type : Text} (htype : IsTypeName type)
include htype

theorem isBlank_eq_false : ∀ c ∈ type, isBlank c = false := by
  intro c hc
  rcases htype.dotted c hc with hword | rfl
  · exact isBlank_of_isWord hword
  · decide

/-- What is read as a type is the name itself. -/
theorem filter_eq_self : type.filter (!isBlank ·) = type :=
  List.filter_eq_self.mpr fun c hc => by rw [htype.isBlank_eq_false c hc]; rfl

theorem any_sign_eq_false : type.any ("{}()=;".toList.contains ·) = false := by
  rw [List.any_eq_false]
  intro c hc
  rcases htype.dotted c hc with hword | rfl
  · intro hsign
    have hsigns : ∀ sign ∈ "{}()=;".toList, isWord sign = false := by decide
    rw [hsigns c (List.contains_iff_mem.mp hsign)] at hword
    cases hword
  · decide

end IsTypeName

/-! ## What stands in front of a type -/

namespace Pattern

/-- A front that a pattern matches once and not again is dropped. -/
theorem dropMatch_many_once {body : Pattern} {front rest : Text} (hne : front ≠ [])
    (hround : ∀ next : Position → Option Position,
      (∀ before, Gives (next ⟨before, rest, []⟩) (·.after = rest)) →
        ∀ before, Gives (body.run next ⟨before, front ++ rest, []⟩) (·.after = rest))
    (hstop : ∀ (next : Position → Option Position) before,
      body.run next ⟨before, rest, []⟩ = none) :
    (start ++ many body).dropMatch (front ++ rest) = rest := by
  have hgives : Gives ((start ++ many body).match? (front ++ rest)) (·.after = rest) := by
    rw [match?, matchAt, run_append, run_start]
    exact run_many_once hne hround hstop (fun before => ⟨_, rfl, rfl⟩) none
  obtain ⟨found, hfound, hafter⟩ := hgives
  rw [dropMatch, hfound]
  exact hafter

end Pattern

/-- The mark of a serialized variable is dropped. -/
theorem dropMatch_serialized (rest : Text) :
    leadingAttributes.dropMatch ("[SerializeField] " ++ ("private " ++ rest : Text)) =
      "private " ++ rest := by
  have hshape : ("[SerializeField] " : Text) ++ ("private " ++ rest) =
      "[".toList ++ ("SerializeField".toList ++ ("]".toList ++ ' ' :: ("private " ++ rest))) := rfl
  refine dropMatch_many_once (by decide) (fun next h before => ?_) fun next before => ?_
  · rw [hshape]
    simp only [run_append]
    refine run_text (fun before => ?_) before
    refine run_many (Text.forall_mem_of_all (by decide)) (by rintro c ⟨⟩; decide)
      (fun before => ?_) before
    refine run_text (fun before => ?_) before
    exact run_blanks_space (by rintro c ⟨⟩; decide) h before
  · simp only [run_append]
    exact run_text_ne (by rintro c ⟨⟩; decide) _ before []

/-- A type that is no modifier is not read as one. -/
theorem run_modifier_type {type : Text} (htype : IsTypeName type) (rest : Text)
    (next : Position → Option Position) (before : Option Char) :
    (firstOf (fieldModifierWords.map text) ++ blanks1).run next
      ⟨before, type ++ ' ' :: rest, []⟩ = none := by
  refine run_eq_none (fun later hreaches => ?_) next
  obtain ⟨middle, hmodifier, hgap⟩ := hreaches.append
  obtain ⟨modifier, hmem, hfront⟩ := hmodifier.firstOf_eq
  obtain ⟨gap, hne, hbehind, hblank⟩ := hgap.many1_eq
  obtain ⟨blank, others, rfl⟩ := List.exists_cons_of_ne_nil hne
  have hwords : ∀ word ∈ fieldModifierWords, ∀ c ∈ word, (!isBlank c) = true := by decide
  have heq : type ++ ' ' :: rest = modifier ++ blank :: (others ++ later.after) := by
    rw [hbehind] at hfront
    exact hfront
  obtain ⟨hsame, -, -⟩ := @append_cons_inj_of (!isBlank ·) _ _ _ _ _ _
    (fun c hc => by rw [htype.isBlank_eq_false c hc]; rfl) (hwords modifier hmem) (by decide)
    (by rw [hblank blank List.mem_cons_self]; rfl) heq
  exact htype.notModifier (hsame ▸ hmem)

/-- The word that hides a variable is dropped, and its type is left. -/
theorem dropMatch_private {type : Text} (htype : IsTypeName type) (rest : Text) :
    fieldModifiers.dropMatch ("private " ++ (type ++ ' ' :: rest)) = type ++ ' ' :: rest := by
  refine @dropMatch_many_once (firstOf (fieldModifierWords.map text) ++ blanks1) _ _
    (by decide) (fun next h before => ?_) (run_modifier_type htype rest)
  have hhead : ∀ c ∈ (type ++ ' ' :: rest).head?, isBlank c = false := by
    obtain ⟨first, others, heq⟩ := List.exists_cons_of_ne_nil htype.nonempty
    subst heq
    rintro _ ⟨⟩
    exact htype.isBlank_eq_false _ List.mem_cons_self
  have hpublic : ∀ following : Position → Option Position,
      (text "public".toList).run following ⟨before, "private " ++ (type ++ ' ' :: rest), []⟩ =
        none := fun _ => rfl
  have hprivate : ("private " : Text) ++ (type ++ ' ' :: rest) =
      "private".toList ++ ([' '] ++ (type ++ ' ' :: rest)) := rfl
  have hwords : firstOf (fieldModifierWords.map text) = either (text "public".toList)
      (either (text "private".toList) (firstOf ((fieldModifierWords.drop 2).map text))) := rfl
  rw [run_append, hwords, run, run, hpublic, Option.none_or, hprivate]
  refine Gives.or ?_ _
  refine run_text (fun before => ?_) before
  exact run_many1 (List.cons_ne_nil _ _) (List.forall_mem_singleton.mpr (by decide)) hhead h before

/-! ## Type and name -/

/-- What stands behind the name of a written variable: the end of its declaration, or an
equals sign, its initial value on the same line, and the end. -/
def IsTail (tail : Text) : Prop :=
  tail = ";" ∨ ∃ value, '\n' ∉ value ∧ tail = " = " ++ value ++ ";"

namespace IsTail

variable {tail : Text} (htail : IsTail tail)
include htail

theorem newline_notMem : '\n' ∉ tail := by
  rcases htail with rfl | ⟨value, hvalue, rfl⟩
  · decide
  · simp only [List.mem_append, not_or]
    exact ⟨⟨by decide, hvalue⟩, by decide⟩

theorem getLast?_eq : tail.getLast? = some ';' := by
  rcases htail with rfl | ⟨value, -, rfl⟩
  · rfl
  · exact List.getLast?_append_of_ne_nil _ (by decide)

theorem ne_nil : tail ≠ [] := fun heq => by
  have hlast := htail.getLast?_eq
  rw [heq] at hlast
  cases hlast

/-- The end of a declaration is read behind the name. -/
theorem gives {good : Position → Prop} {captures : List (String × Text)}
    (hgood : ∀ before rest, good ⟨before, rest, captures⟩) (before : Option Char) :
    Gives (blanks.run ((either ("=" ++ check fun _ after =>
      !(after.head?.any fun c => c == '=' || c == '>')) ";").run some)
      ⟨before, tail, captures⟩) good := by
  rcases htail with rfl | ⟨value, -, rfl⟩
  · refine run_blanks_none (by rintro c ⟨⟩; decide) (fun before => ?_) before
    exact ⟨⟨some ';', [], captures⟩, rfl, hgood _ _⟩
  · have hequals : (" = " : Text) ++ value ++ ";" = ' ' :: ('=' :: ' ' :: (value ++ ";")) := rfl
    rw [hequals]
    refine run_blanks_space (by rintro c ⟨⟩; decide) (fun before => ?_) before
    exact ⟨⟨some '=', ' ' :: (value ++ ";"), captures⟩, rfl, hgood _ _⟩

end IsTail

section

variable {type name tail : Text} (htype : IsTypeName type) (hname : IsVariableName name)
  (htail : IsTail tail)
include htype hname htail

/-- Type and name are read in front of the end of a declaration. -/
theorem gives_fieldHead :
    Gives (fieldHead.match? (type ++ ' ' :: (name ++ tail))) fun found =>
      found.captured "type" = type ∧ found.captured "name" = name := by
  have hbehindGap : ∀ c ∈ (name ++ tail).head?, isBlank c = false := by
    obtain ⟨first, others, heq⟩ := List.exists_cons_of_ne_nil hname.1
    subst heq
    rintro _ ⟨⟩
    exact isBlank_of_isWord (hname.2 _ List.mem_cons_self)
  have hbehindName : ∀ c ∈ tail.head?, isWord c = false := by
    rcases htail with rfl | ⟨value, -, rfl⟩ <;> rintro c ⟨⟩ <;> decide
  have hgap : ∀ rest : Text, ' ' :: rest = [' '] ++ rest := fun _ => rfl
  simp only [match?, matchAt, fieldHead, run_append, run_start]
  refine run_capture_few1 htype.nonempty (fun _ _ => rfl)
    (fun front back heq hne before captures => ?_) (fun before => ?_) none
  · -- inside the type there is no gap to stop at
    obtain ⟨c, others, rfl⟩ := List.exists_cons_of_ne_nil hne
    have hsolid : ∀ d ∈ ((c :: others) ++ ' ' :: (name ++ tail)).head?, isBlank d = false := by
      rintro _ ⟨⟩
      exact htype.isBlank_eq_false c (heq ▸ List.mem_append_right _ List.mem_cons_self)
    exact run_one_of_not hsolid _ before captures
  · rw [hgap]
    refine run_many1 (List.cons_ne_nil _ _) (List.forall_mem_singleton.mpr (by decide)) hbehindGap
      (fun before => ?_) before
    refine run_capture_many1 hname.1 hname.2 hbehindName (fun before => ?_) before
    exact htail.gives (fun _ _ => ⟨rfl, rfl⟩) before

end

/-! ## Lines -/

/-- The line of a variable, without its margin: its mark, its type, its name, and what stands
behind them. -/
def fieldLine (serialized : Bool) (type name tail : Text) : Text :=
  (if serialized then ("[SerializeField] " : Text) else []) ++
    ("private " ++ (type ++ ' ' :: (name ++ tail)))

section

variable {type name tail : Text} (serialized : Bool)

theorem head?_fieldLine : ∀ c ∈ (fieldLine serialized type name tail).head?,
    isBlank c = false ∧ c ≠ '/' ∧ c ≠ '*' ∧ c ≠ '#' := by
  cases serialized <;> rintro c ⟨⟩ <;> decide

theorem dropMatch_fieldLine :
    leadingAttributes.dropMatch (fieldLine serialized type name tail) =
      "private " ++ (type ++ ' ' :: (name ++ tail)) := by
  cases serialized
  · exact dropMatch_leadingAttributes (by rintro c ⟨⟩; decide)
  · exact dropMatch_serialized _

variable (htail : IsTail tail)
include htail

theorem getLast?_fieldLine :
    (fieldLine serialized type name tail).getLast? = some ';' := by
  have hend : fieldLine serialized type name tail =
      ((if serialized then ("[SerializeField] " : Text) else []) ++
        ("private " ++ (type ++ ' ' :: name))) ++ tail := by
    simp only [fieldLine, List.append_assoc, List.cons_append]
  rw [hend, List.getLast?_append_of_ne_nil _ htail.ne_nil, htail.getLast?_eq]

variable (htype : IsTypeName type) (hname : IsVariableName name)
include htype hname

theorem newline_notMem_fieldLine : '\n' ∉ fieldLine serialized type name tail := by
  have hmark : '\n' ∉ (if serialized then ("[SerializeField] " : Text) else []) := by
    cases serialized <;> decide
  have hprivate : '\n' ∉ "private ".toList := by decide
  have htypeLine : '\n' ∉ type := fun hmem =>
    absurd (htype.isBlank_eq_false _ hmem) (by decide)
  have hnameLine : '\n' ∉ name := fun hmem => absurd (hname.2 _ hmem) (by decide)
  simp only [fieldLine, List.mem_append, List.mem_cons, not_or]
  exact ⟨hmark, hprivate, htypeLine, by decide, hnameLine, htail.newline_notMem⟩

/-- The code of the line of a variable is the line without its margin. -/
theorem fieldCode_fieldLine (count : Nat) :
    fieldCode (Text.spaces count ++ fieldLine serialized type name tail) =
      fieldLine serialized type name tail := by
  have hend := @getLast?_fieldLine type name tail serialized htail
  have hinLine := newline_notMem_fieldLine serialized htail htype hname
  have hhead := @head?_fieldLine type name tail serialized
  generalize fieldLine serialized type name tail = line at hend hinLine hhead ⊢
  have hline : '\n' ∉ Text.spaces count ++ line := by
    rw [List.mem_append, not_or]
    exact ⟨fun hmem => absurd (List.eq_of_mem_replicate hmem) (by decide), hinLine⟩
  have hlast : ∀ c ∈ line.getLast?, isBlank c = false := by
    rw [hend]
    rintro c ⟨⟩
    decide
  have hkept : (!line.isEmpty && !isRemark line) = true := by
    rw [isRemark_eq_false fun c hc => (hhead c hc).2]
    cases line with
    | nil => cases hend
    | cons _ _ => rfl
  rw [fieldCode, Text.lines_eq_singleton hline, List.map_singleton,
    Text.trim_spaces_append count (fun c hc => (hhead c hc).1) hlast, List.filter_cons,
    if_pos hkept]
  exact Text.join_singleton _ _

/-- Type and name of a variable are read from its line. -/
theorem fieldHead?_fieldLine (count : Nat) :
    fieldHead? (Text.spaces count ++ fieldLine serialized type name tail) =
      some ⟨type, name⟩ := by
  obtain ⟨found, hfound, hfoundType, hfoundName⟩ := gives_fieldHead htype hname htail
  rw [fieldHead?_eq, fieldCode_fieldLine serialized htail htype hname count, dropMatch_fieldLine,
    dropMatch_private htype, hfound, Option.bind_some, hfoundType, hfoundName,
    htype.filter_eq_self]
  dsimp only
  rw [htype.any_sign_eq_false]
  rfl

end

/-! ## Variables of elements -/

/-- Elements whose variables can be read again: the variable has a name, the type of its
objects is not given or has a name, and its initial value is not given or on one line. -/
structure ElementFields.Declarable (fields : ElementFields) : Prop where
  variableName : IsVariableName fields.variableName
  objectType : ∀ type ∈ present? fields.objectType, IsTypeName type
  oneLine : ∀ value ∈ fields.defaultValue, '\n' ∉ value

namespace ElementFields

instance (fields : ElementFields) : Decidable fields.Declarable :=
  decidable_of_iff (IsVariableName fields.variableName ∧
      (∀ type ∈ present? fields.objectType, IsTypeName type) ∧
      ∀ value ∈ fields.defaultValue, '\n' ∉ value)
    ⟨fun h => ⟨h.1, h.2.1, h.2.2⟩, fun h => ⟨h.variableName, h.objectType, h.oneLine⟩⟩

/-- What is declared for the variable of an element. -/
def variableHead (fields : ElementFields) : FieldHead :=
  ⟨fields.variableType, fields.variableName⟩

namespace Declarable

variable {fields : ElementFields} (h : fields.Declarable)
include h

theorem isTypeName_variableType : IsTypeName fields.variableType := by
  have hpresent : ∀ usual, IsTypeName usual →
      IsTypeName ((present? fields.objectType).getD usual) := by
    intro usual husual
    cases htype : present? fields.objectType with
    | none => exact husual
    | some type => exact h.objectType type htype
  unfold variableType
  split
  · exact hpresent _ (by decide)
  · exact hpresent _ (by decide)
  · cases fields.widget <;> decide

/-- The initial value of a variable is on one line. -/
theorem newline_notMem_initialValue : '\n' ∉ fields.initialValue := by
  have hset : ∀ value, present? fields.defaultValue = some value → '\n' ∉ value :=
    fun value hvalue => h.oneLine value (eq_some_of_present? hvalue)
  unfold initialValue
  split
  · cases hvalue : present? fields.defaultValue with
    | none => exact ((neutral_limit _) [] calm_nil).oneLine
    | some value => exact hset value hvalue
  · cases fields.foldoutDefault.getD false <;> decide
  · split
    · rename_i value hvalue
      split_ifs
      · exact newline_notMem_quote value
      · exact hset value hvalue
    · cases fields.widget <;> decide

theorem fieldHead?_declaration (width level : Nat) (serialized : Bool) :
    fieldHead? (indentation width level ++ fields.declaration serialized) =
      some fields.variableHead := by
  have hline : fields.declaration serialized = fieldLine serialized fields.variableType
      fields.variableName (" = " ++ fields.initialValue ++ ";") := by
    simp only [declaration, fieldLine, List.append_assoc]
    rfl
  rw [hline]
  exact fieldHead?_fieldLine serialized (.inr ⟨_, h.newline_notMem_initialValue, rfl⟩)
    h.isTypeName_variableType h.variableName _

end Declarable

end ElementFields

/-- What is declared for the scroll views. -/
def scrollHead : FieldHead :=
  ⟨"Vector2", scrollVariable⟩

theorem fieldHead?_scrollDeclaration (width level : Nat) :
    fieldHead? (indentation width level ++ "private Vector2 " ++ scrollVariable ++ ";") =
      some scrollHead := by
  have hline : indentation width level ++ "private Vector2 " ++ scrollVariable ++ ";" =
      Text.spaces (width * level) ++ fieldLine false "Vector2" scrollVariable ";" := by
    simp only [indentation, List.append_assoc]
    rfl
  rw [hline]
  exact fieldHead?_fieldLine false (.inl rfl) (by decide) (by decide) _

/-- The types and names that the lines for elements declare, in the order of the lines. -/
def writtenHeads (declared : List Text) (forest : Forest) : List FieldHead :=
  (firstBindings declared forest.bound).map (·.variableHead) ++
    if forest.hasScrollView && !declared.contains scrollVariable then [scrollHead] else []

theorem map_name_writtenHeads (declared : List Text) (forest : Forest) :
    (writtenHeads declared forest).map (·.name) = writtenNames declared forest := by
  rw [writtenHeads, List.map_append, List.map_map, writtenNames]
  split <;> rfl

namespace Forest

variable {forest : Forest} {width level : Nat} {serialized : Bool} {declared : List Text}

/-- Nothing is written where everything is declared. -/
theorem variableDeclarations_eq_nil (h : ∀ name, forest.Needs name → name ∈ declared) :
    variableDeclarations width level serialized declared forest = [] := by
  have hnames : writtenNames declared forest = [] := by
    rw [List.eq_nil_iff_forall_not_mem]
    intro name hname
    obtain ⟨hneeds, hnew⟩ := mem_writtenNames.mp hname
    exact hnew (h name hneeds)
  have hlines := declares_variableDeclarations width level serialized declared forest
  rw [hnames, List.forall₂_nil_left_iff] at hlines
  exact hlines

variable (h : ∀ fields ∈ forest.bound, fields.Declarable)
include h

theorem map_fieldHead?_variableDeclarations :
    (variableDeclarations width level serialized declared forest).map fieldHead? =
      (writtenHeads declared forest).map some := by
  rw [variableDeclarations, writtenHeads, List.map_append, List.map_append, List.map_map,
    List.map_map]
  congr 1
  · refine List.map_congr_left fun fields hfields => ?_
    exact (h fields (mem_of_mem_firstBindings hfields)).fieldHead?_declaration width level
      serialized
  · split
    · exact congrArg ([·]) (fieldHead?_scrollDeclaration width level)
    · rfl

theorem declaredNames_variableDeclarations :
    declaredNames (variableDeclarations width level serialized declared forest) =
      writtenNames declared forest := by
  have hmap : declaredNames (variableDeclarations width level serialized declared forest) =
      ((variableDeclarations width level serialized declared forest).map fieldHead?).filterMap
        (·.map (·.name)) := by
    rw [List.filterMap_map]
    rfl
  rw [hmap, map_fieldHead?_variableDeclarations h, List.filterMap_map,
    ← map_name_writtenHeads]
  exact congrFun List.filterMap_eq_map _

end Forest

/-- From each line that is written for a variable, its type and its name are read.  So the
names in the lines are those that the forest needs, and no further line is written for a
script that has these lines. -/
theorem Forest.declarations_read_back (forest : Forest) (width level : Nat) (serialized : Bool)
    (h : ∀ fields ∈ forest.bound, fields.Declarable) :
    (∀ declared, (variableDeclarations width level serialized declared forest).map fieldHead? =
        (writtenHeads declared forest).map some) ∧
      let names := declaredNames (variableDeclarations width level serialized [] forest)
      (∀ name, name ∈ names ↔ forest.Needs name) ∧
        ∀ width level serialized,
          variableDeclarations width level serialized names forest = [] := by
  have hnames : ∀ name,
      name ∈ declaredNames (variableDeclarations width level serialized [] forest) ↔
        forest.Needs name := by
    intro name
    rw [declaredNames_variableDeclarations h, mem_writtenNames]
    exact and_iff_left List.not_mem_nil
  exact ⟨fun declared => map_fieldHead?_variableDeclarations h, hnames, fun _ _ _ =>
    variableDeclarations_eq_nil fun name => (hnames name).mpr⟩

/-- An object and a text with signs in it, inside a scroll view. -/
def signedForest : Forest :=
  [.group { widget := .scrollView, label := "S" }
    [.leaf {
        widget := .objectField
        label := "A"
        variableName := "target"
        objectType := some "UnityEngine.GameObject" },
      .leaf {
        widget := .textField
        label := "B"
        variableName := "note"
        defaultValue := some "a => \"b\" = [c]; // d" }]]

theorem declarations_read_back_signedForest :
    let lines := variableDeclarations 4 1 true [] signedForest
    (∀ fields ∈ signedForest.bound, fields.Declarable) ∧
      lines =
        ["    [SerializeField] private UnityEngine.GameObject target = null;".toList,
          "    [SerializeField] private string note = \"a => \\\"b\\\" = [c]; // d\";".toList,
          "    private Vector2 scrollPosition;".toList] ∧
      lines.map fieldHead? = [some ⟨"UnityEngine.GameObject", "target"⟩, some ⟨"string", "note"⟩,
        some ⟨"Vector2", "scrollPosition"⟩] ∧
      (∀ name, name ∈ declaredNames lines ↔ signedForest.Needs name) ∧
      variableDeclarations 4 1 true (declaredNames lines) signedForest = [] := by
  have hbound : signedForest.bound =
      [{ widget := .objectField, label := "A", variableName := "target",
          objectType := some "UnityEngine.GameObject" },
        { widget := .textField, label := "B", variableName := "note",
          defaultValue := some "a => \"b\" = [c]; // d" }] := by
    simp [Forest.bound, Forest.flatten, signedForest, Element.fields,
      ElementFields.needsVariable, Widget.hasNoVariable]
  have hscroll : signedForest.hasScrollView = true := by
    simp [Forest.hasScrollView, Forest.flatten, signedForest, Element.widget, Element.fields]
  have hfields : ∀ fields ∈ signedForest.bound, fields.Declarable := by
    rw [hbound]
    decide +kernel
  obtain ⟨hheads, hnames, hnothing⟩ := signedForest.declarations_read_back 4 1 true hfields
  refine ⟨hfields, ?_, ?_, hnames, hnothing 4 1 true⟩
  · simp only [variableDeclarations, hbound, hscroll]
    decide +kernel
  · rw [hheads, writtenHeads, hbound, hscroll]
    decide +kernel

end EditorScript
