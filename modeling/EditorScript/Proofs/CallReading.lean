import EditorScript.Proofs.StyleLook

/-!
# Shapes of calls on written statements

Each shape reads the statement that is written for its widget and captures the
label, the variable and the other arguments as they were written.
-/

namespace EditorScript

open Pattern

/-- An argument of one line without outer white space. -/
structure CallArgument (text : Text) : Prop where
  nonempty : text ≠ []
  inLine : '\n' ∉ text
  first : ∀ c ∈ text.head?, isBlank c = false
  last : ∀ c ∈ text.getLast?, isBlank c = false

theorem StyleBase.argument {base : Text} (h : StyleBase base) : CallArgument base :=
  ⟨h.nonempty, h.inLine, h.first, h.last⟩

theorem CallArgument.head?_append {text : Text} (h : CallArgument text) (rest : Text) :
    ∀ c ∈ (text ++ rest).head?, isBlank c = false := by
  obtain ⟨c, others, rfl⟩ := List.exists_cons_of_ne_nil h.nonempty
  exact h.first

/-- The style behind the other arguments of a call. -/
def styleSuffix : Option Text → Text
  | none => []
  | some style => ',' :: ' ' :: style

/-- What is captured of the style behind the other arguments. -/
def styleCaptures : Option Text → List (String × Text)
  | none => []
  | some style => [("style", style)]

namespace CallShape

variable {β : Type} {next : Position → Option β} {good : β → Prop} {rest : Text}
  {captures : List (String × Text)}

/-- A style as the last argument of a call. -/
theorem run_lastStyle {style : Text} (hstyle : CallArgument style)
    (h : ∀ before, Gives (next ⟨before, [], ("style", style) :: captures⟩) good)
    (before : Option Char) :
    Gives ((capture "style" (few1 inLine)).run (closing.run next)
      ⟨before, style ++ ");".toList, captures⟩) good := by
  refine run_capture_few1 hstyle.nonempty ?_ ?_ (run_closing h) before
  · intro c hc
    exact bne_iff_ne.mpr fun (hline : c = '\n') => hstyle.inLine (hline ▸ hc)
  · intro front back heq hne before captures
    refine run_closing_none hne (fun c hc => ?_) next before captures
    have hlast : c ∈ style.getLast? := by rwa [heq, getLast?_of_append hne]
    rw [hstyle.last c hlast]
    decide

/-- An optional style and the end of the call. -/
theorem run_styleTail {style : Option Text} (hstyle : ∀ text ∈ style, CallArgument text)
    (h : ∀ before, Gives (next ⟨before, [], styleCaptures style ++ captures⟩) good)
    (before : Option Char) :
    Gives (styleTail.run next ⟨before, styleSuffix style ++ ");".toList, captures⟩) good := by
  simp only [styleTail, run_append]
  cases style with
  | none =>
    have hcomma : ∀ before, ((opt (("," : Pattern) ++ blanks ++ capture "style" (few1 inLine))).run
        (closing.run next) ⟨before, ");".toList, captures⟩) =
          closing.run next ⟨before, ");".toList, captures⟩ := by
      intro before
      exact run_opt_none rfl
    refine run_blanks_none (by rintro c ⟨⟩; decide) (fun before => ?_) before
    rw [styleSuffix, List.nil_append, hcomma]
    exact run_closing h before
  | some style =>
    have hstyle := hstyle style rfl
    have hsplit : styleSuffix (some style) ++ ");".toList =
        ",".toList ++ ' ' :: (style ++ ");".toList) := rfl
    rw [hsplit]
    refine run_blanks_none (by rintro c ⟨⟩; decide) (fun before => run_opt ?_) before
    simp only [run_append]
    refine run_text (fun before => ?_) before
    refine run_blanks_space (hstyle.head?_append _) (fun before => ?_) before
    exact run_lastStyle hstyle h before

/-! ## Fields bound to a variable -/

/-- What is captured of a label and a variable makes an element bound to it. -/
theorem bound_eq (more : List (String × Text)) {found : Position} {name label : Text}
    (hfound : found.captures = more ++ [("label", escape label), ("variable", name)])
    (hmore : more.lookup "label" = none ∧ more.lookup "variable" = none) (widget : Widget) :
    bound widget found = { widget, variableName := name, label } := by
  have hvariable : found.captured? "variable" = some name := by
    rw [Position.captured?, hfound, List.lookup_append, hmore.2]
    rfl
  have hlabel : found.captured? "label" = some (escape label) := by
    rw [Position.captured?, hfound, List.lookup_append, hmore.1]
    rfl
  simp [bound, Position.captured, hvariable, hlabel]

theorem recognise?_of_match {shape : CallShape} {line : Text} {fields : ElementFields}
    (h : Gives (shape.pattern.match? line) (fun found => shape.fields? found = some fields)) :
    shape.recognise? line = some fields := by
  obtain ⟨found, hfound, hfields⟩ := h
  rw [recognise?, hfound]
  exact hfields

/-- A field with a label and a variable. -/
theorem recognise?_simple (shapeName call : String) (widget : Widget) {name : Text}
    (hname : isName name) (label : Text) :
    (simple shapeName call widget).recognise? (valueStatement call name label ");".toList) =
      some { widget, variableName := name, label } := by
  refine recognise?_of_match (run_valueCall hname fun before => ?_)
  refine run_closing (fun before => ⟨_, rfl, ?_⟩) before
  exact congrArg some (bound_eq [] rfl ⟨rfl, rfl⟩ widget)

theorem lookup_styleCaptures (style : Option Text) :
    (styleCaptures style).lookup "style" = style ∧ (styleCaptures style).lookup "label" = none ∧
      (styleCaptures style).lookup "variable" = none := by
  cases style <;> exact ⟨rfl, rfl, rfl⟩

/-- A text field with its style. -/
theorem recognise?_textField {name : Text} (hname : isName name) (label : Text)
    {style : Option Text} (hstyle : ∀ text ∈ style, CallArgument text) {fields : ElementFields}
    (hfields : ElementFields.applyStyle? { widget := .textField, variableName := name, label }
      style "EditorStyles.textField" = some fields) :
    textField.recognise? (valueStatement "TextField" name label
      (styleSuffix style ++ ");".toList)) = some fields := by
  refine recognise?_of_match (run_valueCall hname fun before => ?_)
  refine run_styleTail hstyle (fun before => ⟨_, rfl, ?_⟩) before
  obtain ⟨hlookup, hlabel, hvariable⟩ := lookup_styleCaptures style
  have hbound : bound .textField ⟨before, [], styleCaptures style ++
      [("label", escape label), ("variable", name)]⟩ =
        { widget := .textField, variableName := name, label } :=
    bound_eq _ rfl ⟨hlabel, hvariable⟩ .textField
  have hcaptured : Position.captured? ⟨before, [], styleCaptures style ++
      [("label", escape label), ("variable", name)]⟩ "style" = style := by
    rw [Position.captured?, List.lookup_append, hlookup]
    cases style <;> rfl
  simp only [textField, hbound, hcaptured]
  exact hfields

/-! ## Limits -/

/-- A numeric literal: a sign, digits with points, and the letter of a type. -/
def IsNumberLiteral (text : Text) : Prop :=
  ∃ sign body suffix : Text, text = sign ++ (body ++ suffix) ∧ (sign = [] ∨ sign = ['-']) ∧
    body ≠ [] ∧ (∀ c ∈ body, c.isDigit || c == '.') ∧ (suffix = [] ∨ suffix = ['f'])

theorem isDecimal_of_mem {body : Text} (hbody : ∀ c ∈ body, c.isDigit || c == '.') {c : Char}
    (hc : c ∈ body) : isDecimal c || c == '.' := by
  have hdigit := hbody c hc
  rw [Bool.or_eq_true] at hdigit ⊢
  exact hdigit.imp_left isDecimal_of_isDigit

/-- A character that ends a numeric literal. -/
def endsNumber (c : Char) : Bool :=
  !isDecimal c && c != '.' && !"fFdD".toList.contains c

theorem run_numberArgument {key : String} {number : Text} (hnumber : IsNumberLiteral number)
    (hrest : ∀ c ∈ rest.head?, endsNumber c)
    (h : ∀ before, Gives (next ⟨before, rest, (key, number) :: captures⟩) good)
    (before : Option Char) :
    Gives ((numberArgument key).run next ⟨before, number ++ rest, captures⟩) good := by
  obtain ⟨sign, body, suffix, rfl, hsign, hne, hbody, hsuffix⟩ := hnumber
  simp only [numberArgument, run_capture, run_append]
  generalize hlast : (fun later : Position => next { later with
    captures := (key, Position.upTo ⟨before, (sign ++ (body ++ suffix)) ++ rest, captures⟩
      later) :: later.captures }) = last
  have hend : ∀ later, Gives (last ⟨later, rest, captures⟩) good := by
    intro later
    subst hlast
    dsimp only
    rw [upTo_append]
    exact h later
  have hbehind : ∀ c ∈ (suffix ++ rest).head?, (isDecimal c || c == '.') = false := by
    rcases hsuffix with rfl | rfl
    · intro c hc
      have hends := hrest c hc
      simp only [endsNumber, Bool.and_eq_true, Bool.not_eq_true', bne_iff_ne] at hends
      simp [hends.1.1, hends.1.2]
    · rintro c ⟨⟩
      decide
  have htype : ∀ before, Gives ((opt (oneOf "fFdD")).run last ⟨before, suffix ++ rest, captures⟩)
      good := by
    intro before
    rcases hsuffix with rfl | rfl
    · have hnone : (oneOf "fFdD").run last ⟨before, rest, captures⟩ = none := by
        refine run_one_of_not (fun c hc => ?_) last before captures
        have hends := hrest c hc
        simp only [endsNumber, Bool.and_eq_true, Bool.not_eq_true'] at hends
        exact hends.2
      rw [List.nil_append, run_opt_none hnone]
      exact hend before
    · refine run_opt ?_
      rw [List.singleton_append, oneOf, run_one (by decide)]
      exact hend _
  have hdigits : ∀ before, Gives ((many1 (one fun c => isDecimal c || c == '.')).run
      ((opt (oneOf "fFdD")).run last) ⟨before, body ++ (suffix ++ rest), captures⟩) good :=
    run_many1 hne (fun c hc => isDecimal_of_mem hbody hc) hbehind htype
  rw [List.append_assoc, List.append_assoc]
  rcases hsign with rfl | rfl
  · have hfirst : ∀ c ∈ (body ++ (suffix ++ rest)).head?, c ≠ '-' := by
      obtain ⟨first, others, rfl⟩ := List.exists_cons_of_ne_nil hne
      rintro c ⟨⟩ rfl
      exact absurd (hbody '-' List.mem_cons_self) (by decide)
    have hnone : (text "-".toList).run ((many1 (one fun c => isDecimal c || c == '.')).run
        ((opt (oneOf "fFdD")).run last)) ⟨before, body ++ (suffix ++ rest), captures⟩ = none :=
      run_text_ne hfirst _ _ _
    rw [List.nil_append, run_opt_none hnone]
    exact hdigits before
  · exact run_opt (run_text hdigits before)

/-- A slider with its limits. -/
theorem recognise?_limited (shapeName call : String) (widget : Widget) {name : Text}
    (hname : isName name) (label : Text) {low high : Text} (hlow : IsNumberLiteral low)
    (hhigh : IsNumberLiteral high) :
    (limited shapeName call widget).recognise? (valueStatement call name label
      (',' :: ' ' :: (low ++ ',' :: ' ' :: (high ++ ");".toList)))) =
      some { widget, variableName := name, label
             minValue := readLiteralNumber? low, maxValue := readLiteralNumber? high } := by
  have hhead : ∀ {number : Text}, IsNumberLiteral number → ∀ rest : Text,
      ∀ c ∈ (number ++ rest).head?, isBlank c = false := by
    rintro number ⟨sign, body, suffix, rfl, hsign, hne, hbody, -⟩ rest
    obtain ⟨first, others, rfl⟩ := List.exists_cons_of_ne_nil hne
    rcases hsign with rfl | rfl
    · have hfirst := hbody first List.mem_cons_self
      rw [Bool.or_eq_true, beq_iff_eq] at hfirst
      rintro c ⟨⟩
      rcases hfirst with hdigit | rfl
      · exact isBlank_of_isNameChar (isNameChar_of_isDigit hdigit)
      · decide
    · rintro c ⟨⟩
      decide
  refine recognise?_of_match (run_valueCall hname fun before => ?_)
  simp only [limitsTail, run_append]
  refine run_comma (hhead hlow _) (fun before => ?_) before
  refine run_numberArgument hlow (by rintro c ⟨⟩; decide) (fun before => ?_) before
  refine run_comma (hhead hhigh _) (fun before => ?_) before
  refine run_numberArgument hhigh (by rintro c ⟨⟩; decide) (fun before => ?_) before
  refine run_closing (fun before => ⟨_, rfl, ?_⟩) before
  have hbound : bound widget ⟨before, [], [("high", high), ("low", low),
      ("label", escape label), ("variable", name)]⟩ = { widget, variableName := name, label } :=
    bound_eq [("high", high), ("low", low)] rfl ⟨rfl, rfl⟩ widget
  simp only [limited, hbound]
  rfl

/-! ## Lists of strings -/

/-- What stands between the braces of a list of strings. -/
def stringsInside (items : List Text) : Text :=
  ' ' :: (Text.join ", " (items.map quote) ++ [' '])

theorem run_stringList {key : String} {inside : Text} (hline : '\n' ∉ inside)
    (h : ∀ before, Gives (next ⟨before, [], (key, inside) :: captures⟩) good)
    (before : Option Char) :
    Gives ((stringList key).run (closing.run next)
      ⟨before, "new string[] \x7b".toList ++ (inside ++ "\x7d);".toList), captures⟩) good := by
  have hopening : "new string[] \x7b".toList = "new".toList ++ ' ' :: ("string".toList ++
      ("[".toList ++ ("]".toList ++ ' ' :: "\x7b".toList))) := by decide
  have hclosing : "\x7d);".toList = "\x7d".toList ++ ");".toList := by decide
  have hassoc : ∀ a b c d e f g : Text,
      (a ++ ' ' :: (b ++ (c ++ (d ++ ' ' :: e)))) ++ (f ++ g) =
        a ++ ' ' :: (b ++ (c ++ (d ++ ' ' :: (e ++ (f ++ g))))) := by
    intro a b c d e f g
    simp
  rw [hopening, hassoc]
  simp only [stringList, run_append]
  refine run_text (fun before => ?_) before
  refine run_blanks_space (by rintro c ⟨⟩; decide) (fun before => run_opt ?_) before
  refine run_text (fun before => ?_) before
  refine run_blanks_none (by rintro c ⟨⟩; decide) (fun before => run_opt ?_) before
  refine run_text (fun before => ?_) before
  refine run_blanks_none (by rintro c ⟨⟩; decide) (fun before => ?_) before
  refine run_text (fun before => ?_) before
  refine run_blanks_space (by rintro c ⟨⟩; decide) (fun before => ?_) before
  refine run_text (fun before => ?_) before
  rw [hclosing]
  refine run_capture_many_until ?_ ?_ (fun before => ?_) before
  · intro c hc
    exact bne_iff_ne.mpr fun (hnewline : c = '\n') => hline (hnewline ▸ hc)
  · intro front back heq hne before captures
    obtain ⟨c, others, rfl⟩ := List.exists_cons_of_ne_nil hne
    have hrest : ");".toList = others ++ back := (List.cons.inj heq).2
    have hmem : '\x7d' ∉ back := fun hmem =>
      absurd (hrest ▸ List.mem_append_right others hmem) (by decide)
    refine run_text_ne (fun d hd => ?_) _ before captures
    rintro rfl
    exact hmem (List.mem_of_mem_head? hd)
  · exact run_text (run_closing h) before

end CallShape

/-! ## Literals in a text -/

private theorem literal_before (before : Option Char) (text : Text) :
    (literal "content").matchAt before text = (literal "content").matchAt none text :=
  run_text_before (by decide) _ before none text []

private theorem literal_ne (text : Text) (h : ∀ c ∈ text.head?, c ≠ '"') :
    (literal "content").matchAt none text = none :=
  run_text_ne h _ none []

private theorem literal_quote (before : Option Char) (content rest : Text) :
    (literal "content").matchAt before (quote content ++ rest) =
      some ⟨some '"', rest, [("content", escape content)]⟩ :=
  run_literal _ _ _ _ _ _

private theorem searchFrom_literal {front : Text} (hfront : '"' ∉ front) (content rest : Text)
    (before : Option Char) :
    (literal "content").searchFrom before (front ++ (quote content ++ rest)) =
      some (front, ⟨some '"', rest, [("content", escape content)]⟩) := by
  induction front generalizing before with
  | nil => 
    rw [List.nil_append, quote_eq, List.cons_append, searchFrom, ← List.cons_append, ← quote_eq,
      literal_quote]
  | cons c others ih =>
    rw [List.mem_cons, not_or] at hfront
    have hhere : (literal "content").matchAt before (c :: (others ++ (quote content ++ rest))) =
        none := by
      rw [literal_before]
      refine literal_ne _ ?_
      rintro d ⟨⟩
      exact fun hquote => hfront.1 hquote.symm
    rw [List.cons_append, searchFrom, hhere]
    dsimp only
    rw [ih hfront.2]
    rfl

private theorem searchFrom_noLiteral (text : Text) (h : '"' ∉ text) (before : Option Char) :
    (literal "content").searchFrom before text = none := by
  induction text generalizing before with
  | nil => 
    rw [searchFrom, literal_before]
    rfl
  | cons c others ih =>
    rw [List.mem_cons, not_or] at h
    have hhere : (literal "content").matchAt before (c :: others) = none := by
      rw [literal_before]
      refine literal_ne _ ?_
      rintro d ⟨⟩
      exact fun hquote => h.1 hquote.symm
    rw [searchFrom, hhere]
    dsimp only
    rw [ih h.2]
    rfl

private theorem findAllFrom_literal {front : Text} (hfront : '"' ∉ front) (content rest : Text)
    (before : Option Char) :
    (literal "content").findAllFrom before (front ++ (quote content ++ rest)) =
      ⟨some '"', rest, [("content", escape content)]⟩ ::
        (literal "content").findAllFrom (some '"') rest := by
  have hlength : rest.length < (front ++ (quote content ++ rest)).length := by
    simp [quote_eq]
    omega
  rw [findAllFrom, searchFrom_literal hfront]
  dsimp only
  rw [if_pos hlength]

private theorem literals_commaEach (items : List Text) (before : Option Char) :
    ((literal "content").findAllFrom before (commaEach (items.map quote) ++ [' '])).map
      (fun found => unescape (found.captured "content")) = items := by
  induction items generalizing before with
  | nil =>
    have hnone := searchFrom_noLiteral [' '] (by decide) before
    rw [List.map_nil, commaEach, List.flatMap_nil, List.nil_append, findAllFrom, hnone]
    rfl
  | cons item others ih =>
    have hshape : commaEach ((item :: others).map quote) ++ [' '] =
        ", ".toList ++ (quote item ++ (commaEach (others.map quote) ++ [' '])) := by
      simp [commaEach]
    rw [hshape, findAllFrom_literal (by decide), List.map_cons, ih]
    congr 1
    exact unescape_escape item

/-- The strings of a written list are read back. -/
theorem literalTexts_stringsInside (items : List Text) :
    literalTexts (CallShape.stringsInside items) = items := by
  rw [literalTexts, findAll, CallShape.stringsInside]
  cases items with
  | nil =>
    have hnone := searchFrom_noLiteral [' ', ' '] (by decide) none
    rw [List.map_nil, Text.join_nil, List.nil_append, findAllFrom, hnone]
    rfl
  | cons item others =>
    have hshape : ' ' :: (Text.join ", ".toList ((item :: others).map quote) ++ [' ']) =
        [' '] ++ (quote item ++ (commaEach (others.map quote) ++ [' '])) := by
      rw [List.map_cons, join_comma_cons]
      simp
    rw [hshape, findAllFrom_literal (by decide), List.map_cons, literals_commaEach]
    congr 1
    exact unescape_escape item

theorem newline_notMem_stringsInside (items : List Text) :
    '\n' ∉ CallShape.stringsInside items := by
  have hneutral : Neutral (Text.join ", " (items.map quote) ++ [' ']) :=
    neutral_join_append (fun text htext => by
      obtain ⟨item, -, rfl⟩ := List.mem_map.mp htext
      exact separable_quote item) (loose_of_tame (by decide) (List.cons_ne_nil _ _))
  have hline := (hneutral [] calm_nil).oneLine
  rw [CallShape.stringsInside, List.mem_cons, not_or]
  exact ⟨by decide, hline⟩

namespace CallShape

variable {β : Type} {next : Position → Option β} {good : β → Prop} {rest : Text}
  {captures : List (String × Text)}

/-- A choice among strings. -/
theorem recognise?_popup {name : Text} (hname : isName name) (label : Text) (options : List Text) :
    popup.recognise? (valueStatement "Popup" name label (',' :: ' ' ::
      ("new string[] \x7b".toList ++ (stringsInside options ++ "\x7d);".toList)))) =
      some { widget := .popup, variableName := name, label, popupOptions := some options } := by
  refine recognise?_of_match (run_valueCall hname fun before => ?_)
  simp only [run_append]
  refine run_comma (by rintro c ⟨⟩; decide) (fun before => ?_) before
  refine run_stringList (newline_notMem_stringsInside options) (fun before => ⟨_, rfl, ?_⟩) before
  have hbound : bound .popup ⟨before, [], [("options", stringsInside options),
      ("label", escape label), ("variable", name)]⟩ =
        { widget := .popup, variableName := name, label } :=
    bound_eq [("options", stringsInside options)] rfl ⟨rfl, rfl⟩ .popup
  have hoptions : Position.captured ⟨before, [], [("options", stringsInside options),
      ("label", escape label), ("variable", name)]⟩ "options" = stringsInside options := rfl
  simp only [popup, hbound, hoptions, literalTexts_stringsInside]

/-! ## Types -/

/-- Names with points between and around them, at least one character. -/
def isDotted (type : Text) : Bool :=
  !type.isEmpty && type.all fun c => isNameChar c || c == '.'

theorem run_typeName {key : String} {type : Text} (htype : isDotted type)
    (hrest : ∀ c ∈ rest.head?, (isWord c || c == '.') = false)
    (h : ∀ before, Gives (next ⟨before, rest, (key, type) :: captures⟩) good)
    (before : Option Char) :
    Gives ((typeName key).run next ⟨before, type ++ rest, captures⟩) good := by
  simp only [isDotted, Bool.and_eq_true, Bool.not_eq_true', List.isEmpty_eq_false_iff,
    List.all_eq_true, Bool.or_eq_true] at htype
  refine run_capture_many1 htype.1 (fun c hc => ?_) hrest h before
  rw [Bool.or_eq_true]
  exact (htype.2 c hc).imp_left isWord_of_isNameChar

theorem head?_dotted_append {type : Text} (htype : isDotted type) (rest : Text) :
    ∀ c ∈ (type ++ rest).head?, isBlank c = false := by
  simp only [isDotted, Bool.and_eq_true, Bool.not_eq_true', List.isEmpty_eq_false_iff,
    List.all_eq_true, Bool.or_eq_true, beq_iff_eq] at htype
  obtain ⟨first, others, rfl⟩ := List.exists_cons_of_ne_nil htype.1
  rintro _ ⟨⟩
  rcases htype.2 _ List.mem_cons_self with hname | rfl
  · exact isBlank_of_isNameChar hname
  · decide

/-- A cast in front of a call. -/
theorem run_cast {key : String} {type : Text} (htype : isDotted type)
    (hrest : ∀ c ∈ rest.head?, isBlank c = false)
    (h : ∀ before, Gives (next ⟨before, rest, (key, type) :: captures⟩) good)
    (before : Option Char) :
    Gives ((text "(".toList).run (blanks.run ((typeName key).run (blanks.run
      ((text ")".toList).run (blanks.run next)))))
      ⟨before, '(' :: (type ++ ')' :: rest), captures⟩) good := by
  have hopen : '(' :: (type ++ ')' :: rest) = "(".toList ++ (type ++ (")".toList ++ rest)) := rfl
  rw [hopen]
  refine run_text (fun before => ?_) before
  refine run_blanks_none (head?_dotted_append htype _) (fun before => ?_) before
  refine run_typeName htype (by rintro c ⟨⟩; decide) (fun before => ?_) before
  refine run_blanks_none (by rintro c ⟨⟩; decide) (fun before => ?_) before
  exact run_text (fun before => run_blanks_none hrest h before) before

/-- A statement that gives a variable its new value from a call with a cast. -/
def castStatement (call : String) (name type label rest : Text) : Text :=
  name ++ (" = ".toList ++ '(' :: (type ++ ')' :: ("EditorGUILayout".toList ++ (".".toList ++
    (call.toList ++ '(' :: (quote label ++ ',' :: ' ' :: (name ++ rest)))))))

theorem head?_quote_append (label rest : Text) :
    ∀ c ∈ (quote label ++ rest).head?, isBlank c = false := by
  rintro c ⟨⟩
  decide

/-- A choice among the values of an enumeration. -/
theorem recognise?_enumPopup {name type : Text} (hname : isName name) (htype : isDotted type)
    (label : Text) :
    enumPopup.recognise? (castStatement "EnumPopup" name type label ");".toList) =
      some { widget := .enumPopup, variableName := name, label, objectType := some type } := by
  refine recognise?_of_match ?_
  simp only [match?, matchAt, enumPopup, run_append, castStatement]
  refine run_assigned hname (by rintro c ⟨⟩; decide) (fun before => ?_)
  refine run_cast htype (by rintro c ⟨⟩; decide) (fun before => ?_) before
  refine run_editorGui (fun before => run_text (fun before => ?_) before) before
  refine run_opening (head?_quote_append _ _) (fun before => ?_) before
  refine run_labelArgument (head?_name_append hname _) (fun before => ?_) before
  refine run_same rfl (fun before => ?_) before
  refine run_closing (fun before => ⟨_, rfl, ?_⟩) before
  have hbound : bound .enumPopup ⟨before, [], [("label", escape label), ("type", type),
      ("variable", name)]⟩ = { widget := .enumPopup, variableName := name, label } := by
    simp [bound, Position.captured, Position.captured?, List.lookup_cons]
  rw [hbound]
  rfl

/-- The type behind `typeof`. -/
theorem run_typeof {key : String} {type : Text} (htype : isDotted type)
    (hrest : ∀ c ∈ rest.head?, isBlank c = false)
    (h : ∀ before, Gives (next ⟨before, rest, (key, type) :: captures⟩) good)
    (before : Option Char) :
    Gives ((opening "typeof").run ((typeName key).run (blanks.run ((text ")".toList).run
      (blanks.run next)))) ⟨before, "typeof".toList ++ '(' :: (type ++ ')' :: rest), captures⟩)
      good := by
  have hclose : ')' :: rest = ")".toList ++ rest := rfl
  refine run_opening (head?_dotted_append htype _) (fun before => ?_) before
  refine run_typeName htype (by rintro c ⟨⟩; decide) (fun before => ?_) before
  rw [hclose]
  refine run_blanks_none (by rintro c ⟨⟩; decide) (fun before => ?_) before
  exact run_text (fun before => run_blanks_none hrest h before) before

/-- Whether objects of the scene are allowed. -/
theorem run_scene (allowed : Bool)
    (h : ∀ before, Gives (next ⟨before, ");", ("scene", boolText allowed) :: captures⟩) good)
    (before : Option Char) :
    Gives ((opt (("," : Pattern) ++ blanks ++ capture "scene" (either "true" "false") ++
      blanks)).run next ⟨before, ',' :: ' ' :: (boolText allowed ++ ");".toList), captures⟩)
      good := by
  have hcomma : ',' :: ' ' :: (boolText allowed ++ ");".toList) =
      ",".toList ++ ' ' :: (boolText allowed ++ ");".toList) := rfl
  have hhead : ∀ c ∈ (boolText allowed ++ ");".toList).head?, isBlank c = false := by
    cases allowed <;> (rintro c ⟨⟩; decide)
  rw [hcomma]
  refine run_opt ?_
  simp only [run_append]
  refine run_text (fun before => run_blanks_space hhead (fun before => ?_) before) before
  rw [run_capture]
  have hend : ∀ later, Gives (blanks.run next ⟨later, ");".toList, ("scene", Position.upTo
      ⟨before, boolText allowed ++ ");".toList, captures⟩ ⟨later, ");".toList, captures⟩) ::
        captures⟩) good := by
    intro later
    rw [upTo_append]
    exact run_blanks_none (by rintro c ⟨⟩; decide) h later
  cases allowed with
  | true => exact (run_text hend before).or _
  | false =>
    have hnone : ∀ following : Position → Option β, (text "true".toList).run following
        ⟨before, boolText false ++ ");".toList, captures⟩ = none := fun _ => rfl
    rw [run, hnone, Option.none_or]
    exact run_text hend before

/-- A field for an object. -/
theorem recognise?_objectField {name type : Text} (hname : isName name) (htype : isDotted type)
    (label : Text) (allowed : Bool) :
    objectField.recognise? (castStatement "ObjectField" name type label (',' :: ' ' ::
      ("typeof".toList ++ '(' :: (type ++ ')' :: (',' :: ' ' ::
        (boolText allowed ++ ");".toList)))))) =
      some { widget := .objectField, variableName := name, label, objectType := some type
             allowSceneObjects := some allowed } := by
  have hclosing : (");" : Text) = ")".toList ++ (";".toList ++ []) := by decide
  refine recognise?_of_match ?_
  simp only [match?, matchAt, objectField, run_append, castStatement]
  refine run_assigned hname (by rintro c ⟨⟩; decide) (fun before => run_opt ?_)
  simp only [run_append]
  refine run_cast htype (by rintro c ⟨⟩; decide) (fun before => ?_) before
  refine run_editorGui (fun before => run_text (fun before => ?_) before) before
  refine run_opening (head?_quote_append _ _) (fun before => ?_) before
  refine run_labelArgument (head?_name_append hname _) (fun before => ?_) before
  refine run_same rfl (fun before => ?_) before
  refine run_comma (by rintro c ⟨⟩; decide) (fun before => ?_) before
  refine run_typeof htype (by rintro c ⟨⟩; decide) (fun before => ?_) before
  refine run_scene allowed (fun before => ?_) before
  rw [hclosing]
  refine run_text (fun before => ?_) before
  refine run_blanks_none (by rintro c ⟨⟩; decide) (fun before => ?_) before
  refine run_text (fun before => ?_) before
  refine ⟨_, rfl, ?_⟩
  have hbound : bound .objectField ⟨before, [], [("scene", boolText allowed), ("type", type),
      ("label", escape label), ("cast", type), ("variable", name)]⟩ =
        { widget := .objectField, variableName := name, label } := by
    simp [bound, Position.captured, Position.captured?, List.lookup_cons]
  have hscene : (boolText allowed != "false".toList) = allowed := by
    cases allowed <;> decide
  have htypeCaptured : Position.captured ⟨before, [], [("scene", boolText allowed),
      ("type", type), ("label", escape label), ("cast", type), ("variable", name)]⟩ "type" =
        type := rfl
  have hsceneCaptured : Position.captured ⟨before, [], [("scene", boolText allowed),
      ("type", type), ("label", escape label), ("cast", type), ("variable", name)]⟩ "scene" =
        boolText allowed := rfl
  simp only [hbound, htypeCaptured, hsceneCaptured, hscene]

/-- A truth value. -/
theorem recognise?_toggle {name : Text} (hname : isName name) (label : Text) :
    toggle.recognise? (valueStatement "Toggle" name label ");".toList) =
      some { widget := .toggle, variableName := name, label } := by
  refine recognise?_of_match ?_
  simp only [match?, matchAt, toggle, run_append, valueStatement]
  refine run_assigned hname (by rintro c ⟨⟩; decide) (fun before => ?_)
  have hcall : ∀ following : Position → Option Position, ∀ place : Position,
      Gives ((text "EditorGUILayout".toList).run following place) (fun found =>
        toggle.fields? found = some { widget := .toggle, variableName := name, label }) →
      Gives ((firstOf ["EditorGUILayout", "EditorGUI", "GUILayout"]).run following place)
        (fun found =>
          toggle.fields? found = some { widget := .toggle, variableName := name, label }) :=
    fun _ _ hgives => hgives.or _
  refine hcall _ _ (run_text (fun before => run_text (fun before => ?_) before) before)
  refine run_opening (head?_quote_append _ _) (fun before => ?_) before
  refine run_labelArgument (head?_name_append hname _) (fun before => ?_) before
  refine run_same rfl (fun before => run_closing (fun before => ⟨_, rfl, ?_⟩) before) before
  exact congrArg some (bound_eq [] rfl ⟨rfl, rfl⟩ .toggle)

end CallShape

end EditorScript
