import EditorScript.Emission.Template
import EditorScript.Proofs.ClosedElement

/-!
# Sources with balanced braces

No text of a project breaks the braces of its source.  Each section of the class
is closed on its own, whether it is made from settings and elements or carried
along, so the braces around the sections pair up and a reader that starts at the
header of the class finds the block of the class.
-/

namespace EditorScript

/-- The texts of a project that are written as they are have the shape of what
they are written for; all others may hold anything. -/
structure Project.Confined (project : Project) : Prop where
  className : isDottedName project.settings.className
  namespaceName : isDottedName project.settings.namespaceName
  targetType : isDottedName project.settings.targetType
  targetAttribute : isDottedName project.settings.targetAttribute
  requireComponents : ∀ type ∈ project.settings.requireComponents, isDottedName type
  interfaces : ∀ type ∈ project.settings.interfaces, isDottedName type
  classAttributes : ∀ line ∈ project.settings.classAttributes, isSimpleCode line
  usings : ∀ line ∈ project.usings, isSimpleCode line
  elements : project.elements.Everywhere ElementFields.Confined
  fieldDeclarations : ∀ code ∈ project.fieldDeclarations, ClosedFragment code
  innerTypes : ∀ code ∈ project.innerTypes, ClosedFragment code
  lifecycleMethods : ∀ code ∈ project.lifecycleMethods, ClosedFragment code
  customMethods : ∀ code ∈ project.customMethods, ClosedFragment code
  outerCode : ∀ code ∈ project.outerCode, ClosedFragment code
  rawBody : ClosedFragment project.rawBody

/-! ## Closed lines and blocks -/

/-- What all items of a list have, those of the list or of none have. -/
theorem forall_mem_unless {α : Type} {property : α → Prop} {condition : Bool} {items : List α}
    (h : ∀ item ∈ items, property item) :
    ∀ item ∈ if condition then [] else items, property item := by
  cases condition
  · exact h
  · simp

/-- A line that is read to its end and closes all its braces. -/
structure ClosedLine (line : Text) : Prop where
  oneLine : '\n' ∉ line
  reads : ∃ chars, Reads [] line chars ∧ nesting? 0 chars = some 0

theorem ClosedLine.lexicallyClosed {line : Text} (h : ClosedLine line) : LexicallyClosed line := by
  obtain ⟨chars, hreads, hdepth⟩ := h.reads
  rw [LexicallyClosed, Text.lines_eq_singleton h.oneLine]
  exact .of_reads hreads hdepth

theorem Neutral.closedLine {line : Text} (h : Neutral line) : ClosedLine line := by
  obtain ⟨hline, -, chars, hreads, hdepth⟩ := h [] calm_nil
  exact ⟨hline, chars, hreads, hdepth 0⟩

/-- A neutral line with code of one line at its end. -/
theorem closedLine_simpleCode {front code : Text} (h : Neutral front)
    (hcode : isSimpleCode code) : ClosedLine (front ++ code) := by
  obtain ⟨hfront, -, chars, hreads, hdepth⟩ := h [] calm_nil
  have hmem : ∀ c ∈ code, isPlain c ∧ c ≠ '{' ∧ c ≠ '}' ∧ c ≠ '\n' := by
    intro c hc
    have := List.all_eq_true.mp hcode c hc
    simpa [and_assoc] using this
  have hline : '\n' ∉ front ++ code := by
    rw [List.mem_append, not_or]
    exact ⟨hfront, fun hin => (hmem _ hin).2.2.2 rfl⟩
  have hplain : code.all isPlain := List.all_eq_true.mpr fun c hc => (hmem c hc).1
  have hbraces : nesting? 0 code = some 0 :=
    nesting?_of_noBrace (fun c hc => ⟨(hmem c hc).2.1, (hmem c hc).2.2.1⟩) 0
  refine ⟨hline, _, hreads.append (.of_plain hplain _), ?_⟩
  rw [nesting?_append, hdepth]
  exact hbraces

theorem lexicallyClosed_simpleCode {front code : Text} (h : Neutral front)
    (hcode : isSimpleCode code) : LexicallyClosed (front ++ code) :=
  (closedLine_simpleCode h hcode).lexicallyClosed

theorem LexicallyClosed.append_newline {first second : Text} (h : LexicallyClosed first)
    (h' : LexicallyClosed second) : LexicallyClosed (first ++ '\n' :: second) := by
  rw [LexicallyClosed, Text.lines_append_newline]
  exact h.append h'

/-- Closed texts below each other. -/
theorem lexicallyClosed_unlines {texts : List Text} (h : ∀ text ∈ texts, LexicallyClosed text) :
    LexicallyClosed (Text.unlines texts) := by
  cases texts with
  | nil => exact lexicallyClosed_nil
  | cons text rest =>
    exact (nests_unlines_iff (List.cons_ne_nil _ _) 0 0).mpr (.flatMap h)

/-- A block is closed when its body is. -/
theorem lexicallyClosed_blockText {width level : Nat} {signature : Text} {body : List Text}
    (hsignature : Neutral signature) (hbody : ∀ text ∈ body, LexicallyClosed text) :
    LexicallyClosed (blockText width level signature body) := by
  have hlines : Nests 1 (body.flatMap Text.lines) 1 :=
    .flatMap fun text htext => (hbody text htext).of_zero 1
  unfold blockText
  refine (nests_unlines_iff (by simp) 0 0).mpr ?_
  simp only [List.flatMap_append, List.flatMap_cons, List.flatMap_nil, List.append_nil]
  exact .append (.append ((nests_statement hsignature width level 0).append
    (nests_opening width level 0)) hlines) (nests_closing width level 0)

/-! ## Variables -/

private theorem dotted_toUpper_of_lt :
    ∀ code : Fin 128, isDottedName [Char.ofNat code] → isDottedName [(Char.ofNat code).toUpper] := by
  decide

theorem toNat_lt_of_isAlphanum {c : Char} (h : c.isAlphanum || c == '_' || c == '.') :
    c.toNat < 128 := by
  simp only [Bool.or_eq_true, beq_iff_eq] at h
  rcases h with (h | rfl) | rfl
  · exact isAscii_of_isAlphanum h
  · decide
  · decide

/-- The upper-case form of a name is a name. -/
theorem isDottedName_capitalize {name : Text} (h : isDottedName name) :
    isDottedName (capitalize name) := by
  cases name with
  | nil => rfl
  | cons c rest =>
    simp only [isDottedName, List.all_cons, Bool.and_eq_true] at h
    have hascii := toNat_lt_of_isAlphanum h.1
    have hfirst : isDottedName [c.toUpper] := by
      have hone := dotted_toUpper_of_lt ⟨c.toNat, hascii⟩
      rw [Char.ofNat_toNat] at hone
      exact hone (by simpa [isDottedName] using h.1)
    rw [capitalize, upperForm_ascii hascii]
    simp only [isDottedName, List.all_cons, List.all_nil, Bool.and_true, List.singleton_append,
      Bool.and_eq_true] at hfirst ⊢
    exact ⟨hfirst, h.2⟩

namespace ElementFields

variable {fields : ElementFields}

/-- The initial value of a variable is a literal, or code of one line. -/
theorem separable_or_simple_initialValue (h : fields.Confined) (hbound : fields.needsVariable) :
    Separable fields.initialValue ∨ isSimpleCode fields.initialValue := by
  have htame : ∀ {value : Text}, value.all isTame → Separable value :=
    fun hvalue => (neutral_of_tame hvalue).separable
  have hset : ∀ {value : Text}, present? fields.defaultValue = some value →
      !fields.widget.keepsText → isSimpleCode value :=
    fun hvalue hkept => h.value hbound hkept _ (eq_some_of_present? hvalue)
  unfold initialValue
  split
  · rename_i hwidget
    cases hvalue : present? fields.defaultValue with
    | none => exact .inl (neutral_limit _).separable
    | some value => exact .inr (hset hvalue (by rw [hwidget]; rfl))
  · exact .inl (neutral_boolText _).separable
  · split
    · rename_i value hvalue
      split_ifs with hkept
      · exact .inl (separable_quote value)
      · by_cases htext : fields.widget.keepsText
        · have hquote := h.text hbound htext value (eq_some_of_present? hvalue)
          exact absurd (by simpa [htext] using hquote) hkept
        · exact .inr (hset hvalue (by simpa using htext))
    · cases fields.widget
      case textField | textArea | tagField => exact .inl (separable_quote [])
      all_goals exact .inl (htame (by decide))

/-- The line of a declaration is closed, whatever its initial value is. -/
theorem Confined.closedLine_declaration (h : fields.Confined) (hbound : fields.needsVariable)
    (serialized : Bool) (width level : Nat) :
    ClosedLine (indentation width level ++ fields.declaration serialized) := by
  have hname := neutral_of_isDottedName (h.variableName hbound)
  have htype := neutral_of_isDottedName (isDottedName_variableType h.toEnclosed)
  have hserialized : Neutral (if serialized then "[SerializeField] ".toList else []) := by
    cases serialized
    · exact neutral_nil
    · exact neutral_literal (by decide)
  have hprivate : Neutral "private ".toList := neutral_literal (by decide)
  have hspace : Neutral " ".toList := neutral_literal (by decide)
  have hequals : Neutral " = ".toList := neutral_literal (by decide)
  have hend : Loose ";".toList := loose_literal (by decide) (by decide)
  have hfront := (neutral_indentation width level).append
    (((((hserialized.append hprivate).append htype).append hspace).append hname).append hequals)
  rw [declaration, List.append_assoc _ fields.initialValue, ← List.append_assoc (indentation _ _)]
  rcases separable_or_simple_initialValue h hbound with hvalue | hvalue
  · exact (hfront.append (hvalue.append hend)).closedLine
  · refine closedLine_simpleCode hfront ?_
    simp only [isSimpleCode, List.all_append, Bool.and_eq_true] at hvalue ⊢
    exact ⟨hvalue, by decide⟩

theorem Confined.lexicallyClosed_accessor (h : fields.Confined) (hbound : fields.needsVariable)
    (width level : Nat) : LexicallyClosed (indentation width level ++ fields.accessor) := by
  have hname := neutral_of_isDottedName (h.variableName hbound)
  have hproperty := neutral_of_isDottedName (isDottedName_capitalize (h.variableName hbound))
  have htype := neutral_of_isDottedName (isDottedName_variableType h.toEnclosed)
  have hpublic : Neutral "public ".toList := neutral_literal (by decide)
  have hspace : Neutral " ".toList := neutral_literal (by decide)
  have harrow : Neutral " => ".toList := neutral_literal (by decide)
  have hend : Neutral ";".toList := neutral_literal (by decide)
  exact ((neutral_indentation width level).append
    ((((((hpublic.append htype).append hspace).append hproperty).append harrow).append
      hname).append hend)).lexicallyClosed

end ElementFields

/-- The first bindings are among the elements. -/
theorem mem_of_mem_firstBindings {fields : ElementFields} {declared : List Text}
    {bound : List ElementFields} (h : fields ∈ firstBindings declared bound) :
    fields ∈ bound := by
  induction bound generalizing declared with
  | nil => simp [firstBindings] at h
  | cons first rest ih =>
    rw [firstBindings] at h
    split at h
    · exact List.mem_cons_of_mem _ (ih h)
    · rcases List.mem_cons.mp h with rfl | h
      · exact List.mem_cons_self
      · exact List.mem_cons_of_mem _ (ih h)

/-- What is bound first in a confined forest is confined and has a variable. -/
theorem Forest.Everywhere.of_mem_firstBindings {forest : Forest}
    (h : forest.Everywhere ElementFields.Confined)
    {declared : List Text} {fields : ElementFields}
    (hfields : fields ∈ firstBindings declared forest.bound) :
    fields.Confined ∧ fields.needsVariable := by
  obtain ⟨hmem, hbound⟩ := List.mem_filter.mp (mem_of_mem_firstBindings hfields)
  obtain ⟨element, helement, rfl⟩ := List.mem_map.mp hmem
  exact ⟨h element helement, hbound⟩

namespace Project

variable {project : Project} {width level : Nat}

/-! ## Sections of the class -/

theorem lexicallyClosed_fieldMembers (h : project.Confined) :
    ∀ text ∈ project.fieldMembers width level, LexicallyClosed text := by
  have hdeclarations : ∀ text ∈ variableDeclarations width level project.kind.serializesFields
      (declaredNames project.fieldDeclarations) project.elements, LexicallyClosed text := by
    intro text htext
    rcases List.mem_append.mp htext with htext | htext
    · obtain ⟨fields, hfields, rfl⟩ := List.mem_map.mp htext
      obtain ⟨hconfined, hbound⟩ := h.elements.of_mem_firstBindings hfields
      exact (hconfined.closedLine_declaration hbound _ _ _).lexicallyClosed
    · split at htext
      · rw [List.mem_singleton.mp htext]
        exact (((neutral_indentation width level).append (neutral_literal (by decide))).append
          (neutral_literal (by decide))).append (neutral_literal (by decide)) |>.lexicallyClosed
      · simp at htext
  unfold fieldMembers
  split
  · simp
  · rename_i declarations hne
    exact List.forall_mem_singleton.mpr (lexicallyClosed_unlines hdeclarations)

/-- Fragments that are carried along stay closed at their new margin. -/
theorem lexicallyClosed_reindented {fragments : List Text}
    (h : ∀ code ∈ fragments, ClosedFragment code) (count : Nat) :
    ∀ text ∈ fragments.map (Text.reindent count), LexicallyClosed text := by
  intro text htext
  obtain ⟨code, hcode, rfl⟩ := List.mem_map.mp htext
  exact (h code hcode).closed.reindent (h code hcode).noTab count

theorem lexicallyClosed_declarationSections (h : project.Confined) :
    ∀ text ∈ project.declarationSections width level, LexicallyClosed text := by
  have hdeclarations : LexicallyClosed (indentation width level ++ declarationsMarker) :=
    nests_comment width level " === Preserved field declarations ===".toList (by decide) 0
  have htypes : LexicallyClosed (indentation width level ++ innerTypesMarker) :=
    nests_comment width level " === Preserved inner types ===".toList (by decide) 0
  refine List.forall_mem_append.mpr ⟨?_, ?_⟩
  · split
    · simp
    · exact List.forall_mem_singleton.mpr (lexicallyClosed_unlines (List.forall_mem_cons.mpr
        ⟨hdeclarations, lexicallyClosed_reindented h.fieldDeclarations _⟩))
  · split
    · simp
    · refine List.forall_mem_singleton.mpr ?_
      rw [List.append_assoc]
      exact htypes.append_newline
        (lexicallyClosed_join_blank (lexicallyClosed_reindented h.innerTypes _))

theorem lexicallyClosed_methodSections (h : project.Confined) :
    ∀ text ∈ project.methodSections width level, LexicallyClosed text :=
  lexicallyClosed_reindented
    (List.forall_mem_append.mpr ⟨h.lifecycleMethods, h.customMethods⟩) _

theorem lexicallyClosed_leadingMembers (h : project.Confined) :
    ∀ text ∈ project.leadingMembers width level, LexicallyClosed text := by
  have hname := neutral_of_isDottedName h.className
  have hend : Loose ")]".toList := loose_literal (by decide) (by decide)
  have hattribute : Neutral (indentation width level ++ "[MenuItem(" ++
      (quote project.settings.menuPath ++ ")]")) :=
    ((neutral_indentation width level).append (neutral_literal (by decide))).append
      ((separable_quote _).append hend)
  have hopening : Neutral (indentation width (level + 1) ++ "GetWindow<" ++
      project.settings.className ++ ">(" ++ quote project.settings.windowTitle ++ ");") := by
    rw [List.append_assoc _ (quote _)]
    exact ((((neutral_indentation width (level + 1)).append (neutral_literal (by decide))).append
      hname).append (neutral_literal (by decide))).append
      ((separable_quote _).append (loose_literal (by decide) (by decide)))
  have hsignature : Neutral "public static void ShowWindow()".toList :=
    neutral_literal (by decide)
  have hblock : LexicallyClosed (blockText width level "public static void ShowWindow()" _) :=
    lexicallyClosed_blockText hsignature (List.forall_mem_singleton.mpr hopening.lexicallyClosed)
  unfold leadingMembers
  split
  · refine List.forall_mem_singleton.mpr ?_
    have hbreak : (")]\n" : Text) = (")]" : Text) ++ ['\n'] := by decide
    rw [hbreak]
    have hwhole := hattribute.lexicallyClosed.append_newline hblock
    simpa only [List.append_assoc, List.cons_append, List.nil_append] using hwhole
  · simp

theorem lexicallyClosed_membersBeforeGui (h : project.Confined) :
    ∀ text ∈ project.membersBeforeGui width level, LexicallyClosed text := by
  have hname := neutral_of_isDottedName h.className
  have hscope : Neutral (Named.name project.settings.settingsScope) := by
    cases project.settings.settingsScope <;> exact neutral_literal (by decide)
  have hsignature : Neutral (indentation width level ++ "public " ++ project.settings.className ++
      "(string path, SettingsScope scope = SettingsScope." ++
      Named.name project.settings.settingsScope ++ ")") :=
    (((((neutral_indentation width level).append (neutral_literal (by decide))).append
      hname).append (neutral_literal (by decide))).append hscope).append
      (neutral_literal (by decide))
  have hbraces : Loose ('\x7b' :: (" ".toList ++ ['\x7d'])) :=
    loose_braces (neutral_literal (by decide))
  have hcall : (": base(path, scope) \x7b \x7d" : Text) =
      ": base(path, scope) ".toList ++ ('\x7b' :: (" ".toList ++ ['\x7d'])) := by decide
  have hbase : LexicallyClosed
      (indentation width (level + 1) ++ ": base(path, scope) \x7b \x7d") := by
    rw [hcall]
    exact ((neutral_indentation width (level + 1)).append
      ((neutral_literal (by decide)).append hbraces.neutral)).lexicallyClosed
  unfold membersBeforeGui
  split
  · refine List.forall_mem_singleton.mpr ?_
    have hbreak : (")\n" : Text) = (")" : Text) ++ ['\n'] := by decide
    rw [hbreak]
    have hwhole := hsignature.lexicallyClosed.append_newline hbase
    simpa only [List.append_assoc, List.cons_append, List.nil_append] using hwhole
  · simp

theorem lexicallyClosed_membersAfterGui (h : project.Confined) :
    ∀ text ∈ project.membersAfterGui width level, LexicallyClosed text := by
  have hname := neutral_of_isDottedName h.className
  unfold membersAfterGui
  split
  · split
    · have hstart : Neutral "private void Start()".toList := neutral_literal (by decide)
      have hupdate : Neutral "private void Update()".toList := neutral_literal (by decide)
      exact List.forall_mem_cons.mpr
        ⟨lexicallyClosed_blockText hstart (List.forall_mem_singleton.mpr
          (nests_comment width (level + 1) " Initialization".toList (by decide) 0)),
        List.forall_mem_singleton.mpr (lexicallyClosed_blockText hupdate
          (List.forall_mem_singleton.mpr
            (nests_comment width (level + 1) " Per-frame logic".toList (by decide) 0)))⟩
    · simp
  · split
    · simp
    · refine List.forall_mem_singleton.mpr (lexicallyClosed_unlines ?_)
      intro text htext
      obtain ⟨fields, hfields, rfl⟩ := List.mem_map.mp htext
      obtain ⟨hconfined, hbound⟩ := h.elements.of_mem_firstBindings hfields
      exact hconfined.lexicallyClosed_accessor hbound _ _
  · refine List.forall_mem_singleton.mpr ?_
    have hsignature : Neutral
        ("public static SettingsProvider Create" ++ project.settings.className ++ "()") :=
      ((neutral_literal (by decide)).append hname).append (neutral_literal (by decide))
    have hreturn : Neutral (indentation width (level + 1) ++ "return new " ++
        project.settings.className ++ "(" ++ quote ((present? (some
          project.settings.settingsPath)).getD ("Preferences/" ++ project.settings.className)) ++
        ");") := by
      rw [List.append_assoc _ (quote _)]
      exact ((((neutral_indentation width (level + 1)).append (neutral_literal (by decide))).append
        hname).append (neutral_literal (by decide))).append
        ((separable_quote _).append (loose_literal (by decide) (by decide)))
    have hattribute : Neutral (indentation width level ++ "[SettingsProvider]") :=
      (neutral_indentation width level).append (neutral_literal (by decide))
    have hbreak : ("[SettingsProvider]\n" : Text) = ("[SettingsProvider]" : Text) ++ ['\n'] := by
      decide
    rw [hbreak]
    have hblock : LexicallyClosed (blockText width level _ _) :=
      lexicallyClosed_blockText hsignature (List.forall_mem_singleton.mpr hreturn.lexicallyClosed)
    have hwhole := hattribute.lexicallyClosed.append_newline hblock
    simpa only [List.append_assoc, List.cons_append, List.nil_append] using hwhole
  · simp

theorem lexicallyClosed_guiContent (h : project.Confined) {content : Text}
    (hcontent : project.guiContent width level = .ok content) : LexicallyClosed content := by
  unfold guiContent at hcontent
  split_ifs at hcontent
  · exact Forest.lexicallyClosed_render (h.elements.imp fun _ hfields => hfields.toEnclosed) hcontent
  · obtain rfl := Except.ok.inj hcontent
    exact h.rawBody.closed.reindent h.rawBody.noTab _
  · obtain rfl := Except.ok.inj hcontent
    exact nests_comment width level " Add UI elements from the palette".toList (by decide) 0

/-- The statements around the elements are fixed. -/
theorem neutral_guiStatement (kind : ScriptKind) :
    (∀ statement ∈ kind.guiPrologue, Neutral statement) ∧
      (∀ statement ∈ kind.guiEpilogue, Neutral statement) ∧
      ∀ signature ∈ kind.guiSignature?, Neutral signature := by
  have htame : ∀ statements : List Text, (statements.all fun text => text.all isTame) →
      ∀ statement ∈ statements, Neutral statement := fun _ hall statement hmem =>
    neutral_of_tame (List.all_eq_true.mp hall statement hmem)
  exact ⟨htame _ (by cases kind <;> decide), htame _ (by cases kind <;> decide),
    fun signature hsignature => htame kind.guiSignature?.toList (by cases kind <;> decide) signature
      (Option.mem_toList.mpr hsignature)⟩

/-- The drawing method is closed, with the elements or with a body kept as text. -/
theorem lexicallyClosed_guiMethod (h : project.Confined) {gui : List Text}
    (hgui : project.guiMethod width level = .ok gui) : ∀ text ∈ gui, LexicallyClosed text := by
  obtain ⟨hprologue, hepilogue, hsignatures⟩ := neutral_guiStatement project.kind
  have hmoved : ∀ {statements : List Text}, (∀ statement ∈ statements, Neutral statement) →
      ∀ text ∈ statements.map (indentation width (level + 1) ++ ·), LexicallyClosed text := by
    intro statements hneutral text htext
    obtain ⟨statement, hstatement, rfl⟩ := List.mem_map.mp htext
    exact nests_statement (hneutral statement hstatement) width (level + 1) 0
  unfold guiMethod at hgui
  split at hgui
  · obtain rfl := Except.ok.inj hgui
    simp
  · rename_i signature hsignature
    cases hcontent : project.guiContent width (level + 1) with
    | error reason => simp [hcontent, bind, Except.bind] at hgui
    | ok content =>
      simp only [hcontent, bind, Except.bind, pure, Except.pure] at hgui
      obtain rfl := Except.ok.inj hgui
      refine List.forall_mem_singleton.mpr
        (lexicallyClosed_blockText (hsignatures signature hsignature) ?_)
      refine List.forall_mem_append.mpr ⟨List.forall_mem_append.mpr ⟨forall_mem_unless ?_,
        List.forall_mem_singleton.mpr (lexicallyClosed_guiContent h hcontent)⟩,
        forall_mem_unless ?_⟩
      · exact List.forall_mem_append.mpr ⟨hmoved (forall_mem_unless hprologue),
          List.forall_mem_singleton.mpr lexicallyClosed_nil⟩
      · exact List.forall_mem_cons.mpr
          ⟨lexicallyClosed_nil, hmoved (forall_mem_unless hepilogue)⟩

/-- Every member of the class is closed. -/
theorem lexicallyClosed_members (h : project.Confined) {gui : List Text}
    (hgui : project.guiMethod width (project.level + 1) = .ok gui) :
    ∀ text ∈ project.members width gui, LexicallyClosed text := by
  unfold members
  simp only [List.forall_mem_append]
  exact ⟨⟨⟨⟨⟨⟨lexicallyClosed_leadingMembers h, lexicallyClosed_fieldMembers h⟩,
    lexicallyClosed_declarationSections h⟩, lexicallyClosed_membersBeforeGui h⟩,
    lexicallyClosed_guiMethod h hgui⟩, lexicallyClosed_methodSections h⟩,
    lexicallyClosed_membersAfterGui h⟩

theorem lexicallyClosed_insideClass (h : project.Confined) {gui : List Text}
    (hgui : project.guiMethod width (project.level + 1) = .ok gui) :
    ∀ text ∈ project.insideClass width gui, LexicallyClosed text :=
  forall_mem_unless (List.forall_mem_singleton.mpr
    (lexicallyClosed_join_blank (lexicallyClosed_members h hgui)))

/-! ## Around the class -/

/-- Items that are kept one by one are items that were kept before or that are
looked at. -/
theorem mem_of_mem_foldl_unless {skips : List Text → Text → Bool} {item : Text}
    {kept items : List Text}
    (h : item ∈ items.foldl (fun kept next => if skips kept next then kept else kept ++ [next])
      kept) : item ∈ kept ∨ item ∈ items := by
  induction items generalizing kept with
  | nil => exact .inl h
  | cons next rest ih =>
    rcases ih h with hkept | hrest
    · dsimp only at hkept
      split at hkept
      · exact .inl hkept
      · rcases List.mem_append.mp hkept with hkept | hnext
        · exact .inl hkept
        · exact .inr (List.mem_cons.mpr (.inl (List.mem_singleton.mp hnext)))
    · exact .inr (List.mem_cons_of_mem _ hrest)

theorem lexicallyClosed_mergeUsings (h : project.Confined) :
    ∀ text ∈ mergeUsings project project.kind.usualUsings, LexicallyClosed text := by
  have husual : ∀ line ∈ project.kind.usualUsings, isSimpleCode line :=
    List.all_eq_true.mp (by cases project.kind <;> decide)
  have hsimple : ∀ line ∈ mergeUsings project project.kind.usualUsings, isSimpleCode line := by
    intro line hline
    rcases mem_of_mem_foldl_unless hline with hline | hline
    · rcases mem_of_mem_foldl_unless hline with hline | hline
      · simp at hline
      · exact h.usings line hline
    · exact husual line hline
  exact fun line hline => lexicallyClosed_simpleCode neutral_nil (hsimple line hline)

theorem isDottedName_present {name usual : Text} (h : isDottedName name)
    (husual : isDottedName usual) : isDottedName ((present? (some name)).getD usual) := by
  cases hset : present? (some name) with
  | none => exact husual
  | some other =>
    obtain rfl := Option.some.inj (eq_some_of_present? hset)
    exact h

theorem neutral_attributeType (h : project.Confined) :
    Neutral project.settings.attributeType :=
  (neutral_of_isDottedName (isDottedName_present h.targetAttribute (by decide))).append
    (neutral_literal (by decide))

theorem lexicallyClosed_leadingTypes (h : project.Confined) :
    ∀ text ∈ project.leadingTypes width level, LexicallyClosed text := by
  unfold leadingTypes
  split
  · refine forall_mem_unless (List.forall_mem_singleton.mpr (lexicallyClosed_blockText ?_ (by simp)))
    exact ((neutral_literal (by decide)).append (neutral_attributeType h)).append
      (neutral_literal (by decide))
  · simp

/-- A name needs no escapes. -/
theorem escape_of_isDottedName {name : Text} (h : isDottedName name) : escape name = name := by
  induction name with
  | nil => rfl
  | cons c rest ih =>
    simp only [isDottedName, List.all_cons, Bool.and_eq_true] at h
    have hplain : escapeChar c = [c] := by
      unfold escapeChar
      split_ifs with hc
      all_goals first
        | rfl
        | (subst c; exact absurd h.1 (by decide))
    rw [escape_cons, hplain, ih h.2]
    rfl

theorem neutral_kindAttributes (h : project.Confined) :
    ∀ text ∈ project.settings.kindAttributes project.kind, Neutral text := by
  unfold Settings.kindAttributes
  split
  · refine List.forall_mem_singleton.mpr ?_
    exact ((neutral_literal (by decide)).append (neutral_of_isDottedName
      (isDottedName_present h.targetType (by decide)))).append (neutral_literal (by decide))
  · refine List.forall_mem_append.mpr ⟨?_, ?_⟩
    · intro text htext
      obtain ⟨type, htype, rfl⟩ := List.mem_map.mp htext
      exact ((neutral_literal (by decide)).append (neutral_of_isDottedName
        (h.requireComponents type htype))).append (neutral_literal (by decide))
    · split
      · refine List.forall_mem_singleton.mpr ?_
        rw [List.append_assoc]
        exact (neutral_literal (by decide)).append
          ((separable_quote _).append (loose_literal (by decide) (by decide)))
      · simp
  · refine List.forall_mem_singleton.mpr ?_
    have hfile : isDottedName ("New" ++ project.settings.className) := by
      simp only [isDottedName, List.all_append, Bool.and_eq_true]
      exact ⟨by decide, h.className⟩
    have hquoted : ∀ name rest : Text, isDottedName ("New" ++ name) →
        ("[CreateAssetMenu(fileName = \"New" : Text) ++ name ++ "\", menuName = " ++ rest ++ ")]" =
          ("[CreateAssetMenu(fileName = " : Text) ++ (quote ("New" ++ name) ++
            (", menuName = " ++ (rest ++ ")]"))) := by
      intro name rest hname
      have hfront : ("[CreateAssetMenu(fileName = \"New" : Text) =
          ("[CreateAssetMenu(fileName = " : Text) ++ (("\"" : Text) ++ ("New" : Text)) := by decide
      have hback : ("\", menuName = " : Text) = ("\"" : Text) ++ (", menuName = " : Text) := by
        decide
      rw [quote, escape_of_isDottedName hname, hfront, hback]
      simp only [List.append_assoc]
    rw [hquoted _ _ hfile]
    exact (neutral_literal (by decide)).append ((separable_quote _).append
      ((loose_literal (by decide) (by decide)).append
        ((separable_quote _).append (loose_literal (by decide) (by decide)))))
  · refine List.forall_mem_singleton.mpr ?_
    exact ((neutral_literal (by decide)).append (neutral_attributeType h)).append
      (neutral_literal (by decide))
  · simp

end Project

end EditorScript
