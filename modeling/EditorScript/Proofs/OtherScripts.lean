import EditorScript.Proofs.ShapeTable
import EditorScript.Proofs.Trimming

/-!
# Names and white space of other scripts

Names may hold letters and digits of any script, and white space may stand between any
two parts of a statement.  A shape tells characters apart only by the ASCII characters
and the few classes that it names, so it fits no text whose view in ASCII it does not fit.
-/

namespace EditorScript

open Pattern

/-- The view of a character in ASCII: what it has in common with other ones is kept. -/
def familiar (c : Char) : Char :=
  if c.toNat < 128 then c
  else if isBlank c then ' '
  else if isDecimal c then '0'
  else if isWord c then 'a'
  else '?'

/-- White space in ASCII. -/
def asciiBlanks : List Char :=
  ['\t', '\n', '\x0b', '\x0c', '\r', '\x1c', '\x1d', '\x1e', '\x1f', ' ']

theorem familiar_of_lt {c : Char} (h : c.toNat < 128) : familiar c = c :=
  if_pos h

private theorem mem_asciiBlanks_of_lt : ∀ code : Fin 128,
    isBlank (Char.ofNat code) → Char.ofNat code ∈ asciiBlanks := by
  decide

theorem familiar_mem_asciiBlanks {c : Char} (h : isBlank c) : familiar c ∈ asciiBlanks := by
  by_cases hascii : c.toNat < 128
  · have hmem := mem_asciiBlanks_of_lt ⟨c.toNat, hascii⟩
    rw [Char.ofNat_toNat] at hmem
    rw [familiar_of_lt hascii]
    exact hmem h
  · rw [familiar, if_neg hascii, if_pos h]
    decide

theorem familiar_mem_nameChars {c : Char} (h : isWord c) : familiar c ∈ nameChars := by
  by_cases hascii : c.toNat < 128
  · rw [familiar_of_lt hascii]
    exact mem_nameChars ((isWord_ascii hascii).symm.trans h)
  · have hblank : ¬ isBlank c := by rw [isBlank_of_isWord h]; exact Bool.false_ne_true
    rw [familiar, if_neg hascii, if_neg hblank, if_pos h]
    split <;> decide

/-- A digit is no white space. -/
theorem isBlank_of_isDecimal {c : Char} (h : isDecimal c) : isBlank c = false := by
  rw [← Bool.not_eq_true]
  intro hblank
  rw [isDecimal, digitValue?] at h
  split at h
  · rename_i hdigit
    rw [isBlank_of_isNameChar (isNameChar_of_isDigit hdigit)] at hblank
    cases hblank
  · rw [Option.isSome_map, List.find?_isSome] at h
    have hdigits : inRanges digitRanges c.toNat := List.any_eq_true.mpr h
    rw [inRanges_disjoint (by decide +kernel) hblank] at hdigits
    cases hdigits

/-! ## Shapes seen in ASCII -/

section

variable {c : Char}

theorem isBlank_familiar (h : isBlank c) : isBlank (familiar c) :=
  have hall : ∀ d ∈ asciiBlanks, isBlank d := by decide
  hall _ (familiar_mem_asciiBlanks h)

theorem isWord_familiar (h : isWord c) : isWord (familiar c) :=
  have hall : ∀ d ∈ nameChars, isWord d := by decide
  hall _ (familiar_mem_nameChars h)

theorem isDecimal_familiar (h : isDecimal c) : isDecimal (familiar c) := by
  by_cases hascii : c.toNat < 128
  · rwa [familiar_of_lt hascii]
  · have hblank : ¬ isBlank c := by rw [isBlank_of_isDecimal h]; exact Bool.false_ne_true
    rw [familiar, if_neg hascii, if_neg hblank, if_pos h]
    decide

/-- What is seen as a mark of ASCII is that mark. -/
theorem eq_of_familiar_eq {mark : Char} (hmark : mark ∉ [' ', '0', 'a', '?'])
    (h : familiar c = mark) : c = mark := by
  simp only [List.mem_cons, List.not_mem_nil, or_false, not_or] at hmark
  obtain ⟨hblank, hdigit, hletter, hother⟩ := hmark
  unfold familiar at h
  split_ifs at h
  · exact h
  · exact absurd h.symm hblank
  · exact absurd h.symm hdigit
  · exact absurd h.symm hletter
  · exact absurd h.symm hother

end

namespace Pattern

variable {view : Char → Char} {first second body : Pattern}

@[simp]
theorem respects_append :
    (first ++ second).Respects view ↔ first.Respects view ∧ second.Respects view :=
  Iff.rfl

@[simp]
theorem respects_seq :
    (seq first second).Respects view ↔ first.Respects view ∧ second.Respects view :=
  Iff.rfl

@[simp]
theorem respects_either :
    (either first second).Respects view ↔ first.Respects view ∧ second.Respects view :=
  Iff.rfl

@[simp]
theorem respects_opt : (opt body).Respects view ↔ body.Respects view :=
  and_iff_left trivial

@[simp]
theorem respects_many : (many body).Respects view ↔ body.Respects view :=
  Iff.rfl

@[simp]
theorem respects_few : (few body).Respects view ↔ body.Respects view :=
  Iff.rfl

@[simp]
theorem respects_few1 : (few1 body).Respects view ↔ body.Respects view :=
  and_self_iff

@[simp]
theorem respects_capture {name : String} :
    (capture name body).Respects view ↔ body.Respects view :=
  Iff.rfl

@[simp]
theorem respects_check {holds : Option Char → Text → Bool} : (check holds).Respects view :=
  trivial

@[simp]
theorem respects_same {name : String} : (same name).Respects view :=
  trivial

theorem respects_text {content : Text} (h : content.all (·.toNat < 128)) :
    (text content).Respects familiar := by
  induction content with
  | nil => trivial
  | cons c rest ih =>
    rw [List.all_cons, Bool.and_eq_true, decide_eq_true_eq] at h
    refine ⟨fun d hd => ?_, ih h.2⟩
    obtain rfl : d = c := by simpa using hd
    simpa using familiar_of_lt h.1

theorem respects_oneOf {characters : String} (h : characters.toList.all (·.toNat < 128)) :
    (oneOf characters).Respects familiar := by
  intro c hc
  rwa [familiar_of_lt (by simpa using List.all_eq_true.mp h c (List.contains_iff_mem.mp hc))]

theorem respects_noneOf {characters : String}
    (h : characters.toList.all (· ∉ [' ', '0', 'a', '?'])) :
    (noneOf characters).Respects familiar := by
  intro c hc
  simp only [Bool.not_eq_true', List.contains_eq_mem, decide_eq_false_iff_not] at hc ⊢
  intro hmem
  have hmark := of_decide_eq_true (List.all_eq_true.mp h _ hmem)
  exact hc (eq_of_familiar_eq hmark rfl ▸ hmem)

@[simp]
theorem respects_inLine : inLine.Respects familiar := by
  intro c hc
  simp only [bne_iff_ne, ne_eq] at hc ⊢
  exact fun hline => hc (eq_of_familiar_eq (by decide) hline)

@[simp]
theorem respects_blanks : blanks.Respects familiar := fun _ h => isBlank_familiar h

@[simp]
theorem respects_blanks1 : blanks1.Respects familiar :=
  ⟨fun _ h => isBlank_familiar h, fun _ h => isBlank_familiar h⟩

@[simp]
theorem respects_one_isWord : (one isWord).Respects familiar := fun _ h => isWord_familiar h

@[simp]
theorem respects_word : word.Respects familiar :=
  ⟨fun _ h => isWord_familiar h, fun _ h => isWord_familiar h⟩

@[simp]
theorem respects_digits : digits.Respects familiar :=
  ⟨fun _ h => isDecimal_familiar h, fun _ h => isDecimal_familiar h⟩

end Pattern

theorem respects_editorGui : CallShape.editorGui.Respects familiar := by
  simp (disch := decide) [CallShape.editorGui, respects_text]

theorem respects_layoutGui : ContainerShape.layoutGui.Respects familiar := by
  simp (disch := decide) [ContainerShape.layoutGui, respects_text]

theorem respects_literal (name : String) : (literal name).Respects familiar := by
  simp (disch := decide) [literal, literalContent, respects_text, respects_noneOf]

theorem respects_closing : closing.Respects familiar := by
  simp (disch := decide) [closing, finish, respects_text]

theorem respects_comma : comma.Respects familiar := by
  simp (disch := decide) [comma, respects_text]

theorem respects_opening {name : Pattern} :
    (opening name).Respects familiar ↔ name.Respects familiar := by
  simp (disch := decide) [opening, respects_text]

theorem respects_assigned : CallShape.assigned.Respects familiar := by
  simp (disch := decide) [CallShape.assigned, start, respects_text]

theorem respects_stringList (name : String) : (CallShape.stringList name).Respects familiar := by
  simp (disch := decide) [CallShape.stringList, respects_text]

/-- The shapes that are tried before those of calls can be seen in ASCII. -/
theorem respects_earlierShapes : ∀ pattern ∈ Step.earlierShapes, pattern.Respects familiar := by
  simp (disch := decide) [Step.earlierShapes, boilerplateShapes, anyArguments, start, finish,
    firstOf, ContainerShape.all, ContainerShape.ofPair, ContainerShape.beginning,
    Step.foldoutCall, Step.toolbarCall, Step.buttonCall, respects_text, respects_oneOf,
    respects_editorGui, respects_layoutGui, respects_literal, respects_closing, respects_comma,
    respects_opening, respects_assigned, respects_stringList]

/-! ## Lines that begin with a variable or a condition -/

namespace Sketch

/-- Any name gets a value that begins with fixed characters. -/
def assigning (front : String) : Sketch :=
  .run nameChars :: .run asciiBlanks :: .char '=' :: .run asciiBlanks :: (known front ++ [.rest])

/-- A condition that begins with fixed characters. -/
def asking (front : String) : Sketch :=
  known "if" ++ .run asciiBlanks :: .char '(' :: .run asciiBlanks :: (known front ++ [.rest])

end Sketch

theorem rulesOut_assigning_foldout : ∀ front ∈ ["EditorGUI.Foldout", "EditorGUILayout.Foldout"],
    ∀ pattern ∈ Step.earlierShapes.take 16, pattern.rulesOut (Sketch.assigning front) := by
  decide +kernel

theorem rulesOut_assigning_toolbar :
    ∀ pattern ∈ Step.earlierShapes.take 17,
      pattern.rulesOut (Sketch.assigning "GUILayout.Toolbar") := by
  decide +kernel

theorem rulesOut_asking_button : ∀ front ∈ ["GUILayout.Button", "EditorGUILayout.Button"],
    ∀ pattern ∈ Step.earlierShapes.take 18, pattern.rulesOut (Sketch.asking front) := by
  decide +kernel

/-- A run of characters of a class is seen as a run of the same class in ASCII. -/
theorem Fits.view_append {characters : List Char} {sketch : Sketch} {text front : Text}
    (h : Fits sketch (text.map familiar)) (hfront : ∀ c ∈ front, familiar c ∈ characters) :
    Fits (.run characters :: sketch) ((front ++ text).map familiar) := by
  rw [List.map_append]
  refine h.run_append fun c hc => ?_
  obtain ⟨d, hd, rfl⟩ := List.mem_map.mp hc
  exact hfront d hd

theorem Fits.view_blanks {sketch : Sketch} {text blanks : Text}
    (h : Fits sketch (text.map familiar)) (hblank : ∀ c ∈ blanks, isBlank c) :
    Fits (.run asciiBlanks :: sketch) ((blanks ++ text).map familiar) :=
  h.view_append fun c hc => familiar_mem_asciiBlanks (hblank c hc)

/-- Fixed characters are seen as they are. -/
theorem fits_view_front {front : String} (hfront : front.toList.all (·.toNat < 128))
    (rest : Text) : Fits (Sketch.known front ++ [.rest]) ((front.toList ++ rest).map familiar) := by
  have hsame : front.toList.map familiar = front.toList := by
    refine (List.map_congr_left fun c hc => ?_).trans (List.map_id _)
    exact familiar_of_lt (of_decide_eq_true (List.all_eq_true.mp hfront c hc))
  rw [List.map_append, hsame]
  exact Fits.rest.known_append _

namespace Pattern

variable {place later : Position}

/-- A variable that is given a value. -/
theorem Reaches.assigned_eq (h : Reaches CallShape.assigned place later) :
    ∃ name front back, place.after = name ++ (front ++ '=' :: (back ++ later.after)) ∧
      (∀ c ∈ name, isWord c) ∧ (∀ c ∈ front, isBlank c) ∧ ∀ c ∈ back, isBlank c := by
  obtain ⟨_, h, hback⟩ := h.append
  obtain ⟨_, h, hequals⟩ := h.append
  obtain ⟨_, h, hfront⟩ := h.append
  obtain ⟨_, hstart, hname⟩ := h.append
  cases hstart
  obtain ⟨middle, hword, hmiddle⟩ := hname.capture_body
  obtain ⟨name, -, hplace, hall⟩ := hword.many1_eq
  obtain ⟨front, hfrontEq, hfrontBlank⟩ := hfront.blanks_eq
  obtain ⟨back, hbackEq, hbackBlank⟩ := hback.blanks_eq
  rw [hmiddle, hfrontEq, hequals.text_eq, hbackEq] at hplace
  exact ⟨name, front, back, hplace, hall, hfrontBlank, hbackBlank⟩

theorem Reaches.editorGui_eq (h : Reaches CallShape.editorGui place later) :
    place.after = "EditorGUI".toList ++ later.after ∨
      place.after = "EditorGUILayout".toList ++ later.after := by
  obtain ⟨_, hgui, hlayout⟩ := h.append
  cases hlayout with
  | left hlayout => exact .inr (by rw [hgui.text_eq, hlayout.text_eq]; rfl)
  | right hnone =>
    cases hnone
    exact .inl hgui.text_eq

theorem Reaches.layoutGui_eq (h : Reaches ContainerShape.layoutGui place later) :
    place.after = "GUILayout".toList ++ later.after ∨
      place.after = "EditorGUILayout".toList ++ later.after := by
  obtain ⟨_, heditor, hgui⟩ := h.append
  cases heditor with
  | left heditor => exact .inr (by rw [heditor.text_eq, hgui.text_eq]; rfl)
  | right hnone =>
    cases hnone
    exact .inl hgui.text_eq

end Pattern

namespace Step

/-- A value of fixed characters is seen in ASCII. -/
theorem fits_assigning {code name front back rest : Text} {call : String}
    (hcall : call.toList.all (·.toNat < 128))
    (hcode : code = name ++ (front ++ '=' :: (back ++ (call.toList ++ rest))))
    (hname : ∀ c ∈ name, isWord c) (hfront : ∀ c ∈ front, isBlank c)
    (hback : ∀ c ∈ back, isBlank c) : Fits (Sketch.assigning call) (code.map familiar) := by
  subst hcode
  have hvalue := (fits_view_front hcall rest).view_blanks hback
  have hequals : Fits (.char '=' :: .run asciiBlanks :: (Sketch.known call ++ [.rest]))
      (('=' :: (back ++ (call.toList ++ rest))).map familiar) := .char hvalue
  exact (hequals.view_blanks hfront).view_append fun c hc => familiar_mem_nameChars (hname c hc)

/-- A condition on fixed characters is seen in ASCII. -/
theorem fits_asking {code front back rest : Text} {call : String}
    (hcall : call.toList.all (·.toNat < 128))
    (hcode : code = "if".toList ++ (front ++ ("(".toList ++ (back ++ (call.toList ++ rest)))))
    (hfront : ∀ c ∈ front, isBlank c) (hback : ∀ c ∈ back, isBlank c) :
    Fits (Sketch.asking call) (code.map familiar) := by
  subst hcode
  have hvalue := (fits_view_front hcall rest).view_blanks hback
  have hopen : Fits (.char '(' :: .run asciiBlanks :: (Sketch.known call ++ [.rest]))
      (('(' :: (back ++ (call.toList ++ rest))).map familiar) := .char hvalue
  exact .char (.char (hopen.view_blanks hfront))

/-- The calls that a line of a foldout may hold. -/
theorem fits_of_match?_foldoutCall {code : Text} {found : Position}
    (h : foldoutCall.match? code = some found) :
    ∃ front ∈ ["EditorGUI.Foldout", "EditorGUILayout.Foldout"],
      Fits (Sketch.assigning front) (code.map familiar) := by
  obtain ⟨_, hreach, -⟩ := run_sound h
  iterate 9 obtain ⟨_, hreach, -⟩ := hreach.append
  obtain ⟨_, hreach, hopening⟩ := hreach.append
  iterate 3 obtain ⟨_, hopening, -⟩ := hopening.append
  obtain ⟨_, hreach, hpoint⟩ := hreach.append
  obtain ⟨_, hassigned, hgui⟩ := hreach.append
  obtain ⟨name, front, back, hcode, hname, hfront, hback⟩ := hassigned.assigned_eq
  have hcall : ∀ rest : Text, ".".toList ++ ("Foldout".toList ++ rest) =
      ".Foldout".toList ++ rest := fun _ => rfl
  rcases hgui.editorGui_eq with hgui | hgui
  · have hjoin : "EditorGUI.Foldout".toList = "EditorGUI".toList ++ ".Foldout".toList := by decide
    rw [hgui, hpoint.text_eq, hopening.text_eq, hcall, ← List.append_assoc "EditorGUI".toList,
      ← hjoin] at hcode
    exact ⟨_, List.mem_cons_self, fits_assigning (by decide) hcode hname hfront hback⟩
  · have hjoin : "EditorGUILayout.Foldout".toList = "EditorGUILayout".toList ++
        ".Foldout".toList := by decide
    rw [hgui, hpoint.text_eq, hopening.text_eq, hcall,
      ← List.append_assoc "EditorGUILayout".toList, ← hjoin] at hcode
    exact ⟨_, List.mem_cons_of_mem _ List.mem_cons_self,
      fits_assigning (by decide) hcode hname hfront hback⟩

theorem fits_of_match?_toolbarCall {code : Text} {found : Position}
    (h : toolbarCall.match? code = some found) :
    Fits (Sketch.assigning "GUILayout.Toolbar") (code.map familiar) := by
  obtain ⟨_, hreach, -⟩ := run_sound h
  iterate 4 obtain ⟨_, hreach, -⟩ := hreach.append
  obtain ⟨_, hassigned, hopening⟩ := hreach.append
  iterate 3 obtain ⟨_, hopening, -⟩ := hopening.append
  obtain ⟨name, front, back, hcode, hname, hfront, hback⟩ := hassigned.assigned_eq
  rw [hopening.text_eq] at hcode
  exact fits_assigning (by decide) hcode hname hfront hback

/-- The calls that a condition on a button may hold. -/
theorem fits_of_match?_buttonCall {code : Text} {found : Position}
    (h : buttonCall.match? code = some found) :
    ∃ front ∈ ["GUILayout.Button", "EditorGUILayout.Button"],
      Fits (Sketch.asking front) (code.map familiar) := by
  obtain ⟨_, hreach, -⟩ := run_sound h
  iterate 9 obtain ⟨_, hreach, -⟩ := hreach.append
  obtain ⟨_, hreach, hopening⟩ := hreach.append
  iterate 3 obtain ⟨_, hopening, -⟩ := hopening.append
  obtain ⟨_, hgui, hbutton⟩ := hopening.append
  obtain ⟨_, hreach, hback⟩ := hreach.append
  obtain ⟨_, hreach, hparenthesis⟩ := hreach.append
  obtain ⟨_, hreach, hfront⟩ := hreach.append
  obtain ⟨_, hstart, hif⟩ := hreach.append
  cases hstart
  obtain ⟨front, hfrontEq, hfront⟩ := hfront.blanks_eq
  obtain ⟨back, hbackEq, hback⟩ := hback.blanks_eq
  have hcode := hif.text_eq
  rw [hfrontEq, hparenthesis.text_eq, hbackEq] at hcode
  dsimp only at hcode
  rcases hgui.layoutGui_eq with hgui | hgui
  · have hjoin : "GUILayout.Button".toList = "GUILayout".toList ++ ".Button".toList := by decide
    rw [hgui, hbutton.text_eq, ← List.append_assoc "GUILayout".toList, ← hjoin] at hcode
    exact ⟨_, List.mem_cons_self, fits_asking (by decide) hcode hfront hback⟩
  · have hjoin : "EditorGUILayout.Button".toList = "EditorGUILayout".toList ++
        ".Button".toList := by decide
    rw [hgui, hbutton.text_eq, ← List.append_assoc "EditorGUILayout".toList, ← hjoin] at hcode
    exact ⟨_, List.mem_cons_of_mem _ List.mem_cons_self,
      fits_asking (by decide) hcode hfront hback⟩

/-- What has a view fits none of the shapes that the view rules out. -/
theorem match?_eq_none_of_view {code : Text} {sketch : Sketch} {count : Nat}
    (hrules : ∀ pattern ∈ earlierShapes.take count, pattern.rulesOut sketch)
    (hfits : Fits sketch (code.map familiar)) :
    ∀ pattern ∈ earlierShapes.take count, pattern.match? code = none := fun pattern hpattern =>
  match?_eq_none_of_map (hrules pattern hpattern)
    (respects_earlierShapes pattern (List.mem_of_mem_take hpattern)) hfits

/-- Code that is no comment, no boilerplate and begins no container. -/
structure Uncontained (code : Text) : Prop where
  comment : code.startsWith "/*" = false
  boilerplate : isBoilerplate code = false
  container : ContainerShape.beginning? code = none

theorem uncontained_of_match?_none {code : Text} {count : Nat} (hcount : 16 ≤ count)
    (h : ∀ pattern ∈ earlierShapes.take count, pattern.match? code = none) :
    Uncontained code := by
  have hfirst : ∀ pattern ∈ text "/*" :: boilerplateShapes ++ ContainerShape.all.map (·.begin),
      pattern.match? code = none := fun pattern hpattern =>
    h pattern (List.take_subset_take_left earlierShapes hcount hpattern)
  simp only [List.cons_append, List.forall_mem_cons, List.forall_mem_append] at hfirst
  exact ⟨startsWith_eq_false hfirst.1, isBoilerplate_eq_false hfirst.2.1,
    beginning?_eq_none hfirst.2.2⟩

theorem isEmpty_of_match? {pattern : Pattern} {code : Text} {found : Position}
    (hnil : pattern.match? [] = none) (h : pattern.match? code = some found) :
    code.isEmpty = false := by
  rw [List.isEmpty_eq_false_iff]
  rintro rfl
  rw [hnil] at h
  cases h

variable {line : Text} {rest : List Text} {step : Step}

/-- What is read as a foldout is not read as anything else before. -/
theorem next_of_foldout? (h : foldout? line rest = some step) : next line rest = step := by
  obtain ⟨found, hfound, -⟩ := Option.map_eq_some_iff.mp h
  obtain ⟨front, hfront, hfits⟩ := fits_of_match?_foldoutCall hfound
  have hcode : Uncontained (codeOf line) := uncontained_of_match?_none (Nat.le_refl 16)
    (match?_eq_none_of_view (rulesOut_assigning_foldout front hfront) hfits)
  have hempty : (codeOf line).isEmpty = false := isEmpty_of_match? rfl hfound
  simp only [next, hempty, hcode.comment, hcode.boilerplate, container?, hcode.container, h,
    Option.map_none, Option.none_or, Option.some_or, Option.getD_some, Bool.false_eq_true, if_false]

/-- What is read as a group of tabs is not read as anything else before. -/
theorem next_of_tabGroup? (h : tabGroup? line rest = some step) : next line rest = step := by
  obtain ⟨found, hfound, -⟩ := Option.map_eq_some_iff.mp h
  have hnone := match?_eq_none_of_view rulesOut_assigning_toolbar
    (fits_of_match?_toolbarCall hfound)
  have hcode : Uncontained (codeOf line) := uncontained_of_match?_none (by decide) hnone
  have hfoldout : foldoutCall.match? (codeOf line) = none :=
    hnone foldoutCall (by simp [earlierShapes, boilerplateShapes, ContainerShape.all])
  have hempty : (codeOf line).isEmpty = false := isEmpty_of_match? rfl hfound
  simp only [next, hempty, hcode.comment, hcode.boilerplate, container?, hcode.container, h,
    foldout?, hfoldout, Option.map_none, Option.none_or, Option.some_or, Option.getD_some,
    Bool.false_eq_true, if_false]

/-- What is read as a button is not read as anything else before. -/
theorem next_of_button? (h : button? line rest = some step) : next line rest = step := by
  obtain ⟨found, hfound, -⟩ := Option.bind_eq_some_iff.mp h
  obtain ⟨front, hfront, hfits⟩ := fits_of_match?_buttonCall hfound
  have hnone := match?_eq_none_of_view (rulesOut_asking_button front hfront) hfits
  have hcode : Uncontained (codeOf line) := uncontained_of_match?_none (by decide) hnone
  have hfoldout : foldoutCall.match? (codeOf line) = none :=
    hnone foldoutCall (by simp [earlierShapes, boilerplateShapes, ContainerShape.all])
  have htoolbar : toolbarCall.match? (codeOf line) = none :=
    hnone toolbarCall (by simp [earlierShapes, boilerplateShapes, ContainerShape.all])
  have hempty : (codeOf line).isEmpty = false := isEmpty_of_match? rfl hfound
  simp only [next, hempty, hcode.comment, hcode.boilerplate, container?, hcode.container, h,
    foldout?, hfoldout, tabGroup?, htoolbar, Option.map_none, Option.none_or, Option.some_or,
    Option.getD_some, Bool.false_eq_true, if_false]

end Step

end EditorScript
