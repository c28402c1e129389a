import EditorScript.Proofs.CallReading

/-!
# Shapes of calls without a value

Texts, headers, boxes with help, spaces and progress bars, and the text area,
whose label has a statement of its own.
-/

namespace EditorScript

open Pattern

namespace CallShape

variable {β : Type} {next : Position → Option β} {good : β → Prop} {rest : Text}
  {captures : List (String × Text)}

/-- The statement of a text area. -/
def textAreaStatement (name rest : Text) : Text :=
  name ++ (" = ".toList ++ ("EditorGUILayout".toList ++ (".".toList ++ ("TextArea".toList ++
    '(' :: (name ++ (", GUILayout.Height(60)".toList ++ rest))))))

/-- The height of a text area. -/
theorem run_height (h : ∀ before, Gives (next ⟨before, rest, captures⟩) good)
    (before : Option Char) :
    Gives ((opt (("," : Pattern) ++ blanks ++ "GUILayout." ++ word ++ blanks ++ "(" ++
      many (noneOf ")") ++ ")")).run next
        ⟨before, ", GUILayout.Height(60)".toList ++ rest, captures⟩) good := by
  have hsplit : ", GUILayout.Height(60)".toList = ",".toList ++ ' ' :: ("GUILayout.".toList ++
      ("Height".toList ++ ("(".toList ++ ("60".toList ++ ")".toList)))) := by decide
  have hassoc : ∀ a b c d e f : Text, (a ++ ' ' :: (b ++ (c ++ (d ++ (e ++ f))))) ++ rest =
      a ++ ' ' :: (b ++ (c ++ (d ++ (e ++ (f ++ rest))))) := by
    intro a b c d e f
    simp
  rw [hsplit, hassoc]
  refine run_opt ?_
  simp only [run_append]
  refine run_text (fun before => ?_) before
  refine run_blanks_space (by rintro c ⟨⟩; decide) (fun before => ?_) before
  refine run_text (fun before => ?_) before
  refine run_many1 (by decide) (Text.forall_mem_of_all (by decide)) (by rintro c ⟨⟩; decide)
    (fun before => ?_) before
  refine run_blanks_none (by rintro c ⟨⟩; decide) (fun before => ?_) before
  refine run_text (fun before => ?_) before
  refine run_many (Text.forall_mem_of_all (by decide)) (by rintro c ⟨⟩; decide) (fun before => ?_) before
  exact run_text h before

/-- A text area with its style; its label is the name of the variable. -/
theorem recognise?_textArea {name : Text} (hname : isName name) {style : Option Text}
    (hstyle : ∀ text ∈ style, CallArgument text) {fields : ElementFields}
    (hfields : ElementFields.applyStyle? { widget := .textArea, variableName := name, label := name }
      style "EditorStyles.textArea" = some fields) :
    textArea.recognise? (textAreaStatement name (styleSuffix style ++ ");".toList)) =
      some fields := by
  refine recognise?_of_match ?_
  simp only [match?, matchAt, textArea, run_append, textAreaStatement]
  refine run_assigned hname (by rintro c ⟨⟩; decide) (fun before => ?_)
  refine run_editorGui (fun before => run_text (fun before => ?_) before) before
  refine run_opening (head?_name_append hname _) (fun before => ?_) before
  refine run_same rfl (fun before => ?_) before
  refine run_blanks_none (by rintro c ⟨⟩; decide) (fun before => ?_) before
  refine run_height (fun before => ?_) before
  refine run_styleTail hstyle (fun before => ⟨_, rfl, ?_⟩) before
  have hcaptured : Position.captured? ⟨before, [], styleCaptures style ++ [("variable", name)]⟩
      "style" = style := by
    cases style <;> rfl
  have hbound : bound .textArea ⟨before, [], styleCaptures style ++ [("variable", name)]⟩ =
      { widget := .textArea, variableName := name, label := name } := by
    cases style <;> rfl
  simp only [hbound, hcaptured]
  exact hfields

/-- A box with a message. -/
theorem recognise?_helpBox (message : Text) (severity : Severity) :
    helpBox.recognise? ("EditorGUILayout.HelpBox".toList ++ '(' :: (quote message ++
      ',' :: ' ' :: ("MessageType.".toList ++ (Named.name severity ++ ");".toList)))) =
      some { widget := .helpBox, label := message, defaultValue := some message
             severity := some severity } := by
  have hname : isName (Named.name severity) := by
    cases severity <;> decide
  have hread : Named.ofName? (Named.name severity) = some severity := by
    cases severity <;> decide
  refine recognise?_of_match ?_
  simp only [match?, matchAt, helpBox, run_append, run_start]
  refine run_opening (head?_quote_append _ _) (fun before => ?_) none
  rw [run_literal]
  refine run_comma (by rintro c ⟨⟩; decide) (fun before => ?_) _
  refine run_text (fun before => ?_) before
  refine run_capture_word hname (by rintro c ⟨⟩; decide) (fun before => ?_) before
  refine run_closing (fun before => ⟨_, rfl, ?_⟩) before
  have hseverity : Position.captured ⟨before, [], [("severity", Named.name severity),
      ("message", escape message)]⟩ "severity" = Named.name severity := rfl
  have hmessage : textOf ⟨before, [], [("severity", Named.name severity),
      ("message", escape message)]⟩ "message" = message := unescape_escape message
  simp only [hseverity, hmessage, hread, Option.map_some, labelled]

/-- White space between elements. -/
theorem recognise?_space (height : Nat) :
    space.recognise? ("EditorGUILayout".toList ++ (".Space".toList ++
      '(' :: (natText height ++ ");".toList))) =
      some { widget := .space, label := "Space", spaceHeight := some height } := by
  have hhead : ∀ c ∈ (natText height ++ ");".toList).head?, isBlank c = false := by
    obtain ⟨digit, digits, hdigits⟩ := List.exists_cons_of_ne_nil (natText_ne_nil height)
    have hdigit : digit.isDigit := isDigit_of_mem_natText (hdigits ▸ List.mem_cons_self)
    rw [hdigits]
    rintro c ⟨⟩
    exact isBlank_of_isNameChar (isNameChar_of_isDigit hdigit)
  refine recognise?_of_match ?_
  simp only [match?, matchAt, space, opening, run_append, run_start]
  rw [run]
  refine Gives.or (run_text (fun before => run_text (fun before => ?_) before) none) _
  refine run_parenthesis hhead (fun before => run_opt ?_) before
  refine run_capture_many1 (natText_ne_nil height)
    (fun c hc => isDecimal_of_isDigit (isDigit_of_mem_natText hc)) (by rintro c ⟨⟩; decide)
    (fun before => ?_) before
  refine run_closing (fun before => ⟨_, rfl, ?_⟩) before
  have hvalue := decimalValue_natText height
  simp [labelled, Position.captured?, hvalue]

end CallShape

/-! ## Progress bars -/

/-- A quote behind the content of a literal that no backslash stands before is the
end of the literal. -/
theorem eq_of_escape_append {content tail : Text} (htail : '"' ∉ tail) {front back : Text}
    {c : Char} (hc : c ≠ '\\') (h : escape content ++ '"' :: tail = front ++ c :: '"' :: back) :
    back = tail := by
  have hclosing : ∀ {content : Text}, escape content ++ '"' :: tail = '"' :: back →
      back = tail := by
    intro content heq
    cases content with
    | nil => exact (List.cons.inj heq).2.symm
    | cons d others =>
      rcases escapeChar_cases d with ⟨hplain, hquote, -⟩ | ⟨second, hescaped, -⟩
      · rw [escape_cons, hplain] at heq
        exact absurd (List.cons.inj heq).1 hquote
      · rw [escape_cons, hescaped] at heq
        exact absurd (List.cons.inj heq).1 (by decide)
  induction content generalizing front with
  | nil =>
    have hmem : '"' ∈ tail := by
      cases front with
      | nil => exact (List.cons.inj h).2 ▸ List.mem_cons_self
      | cons d others =>
        rw [(List.cons.inj h).2]
        simp
    exact absurd hmem htail
  | cons d others ih =>
    rcases escapeChar_cases d with ⟨hplain, -⟩ | ⟨second, hescaped, -⟩
    · rw [escape_cons, hplain] at h
      cases front with
      | nil => exact hclosing (List.cons.inj h).2
      | cons e left => exact ih (List.cons.inj h).2
    · rw [escape_cons, hescaped] at h
      match front, h with
      | [], h => exact absurd (List.cons.inj h).1.symm hc
      | [_], h => exact hclosing (List.cons.inj (List.cons.inj h).2).2
      | _ :: _ :: left, h => exact ih (List.cons.inj (List.cons.inj h).2).2

namespace CallShape

/-- The arguments of a progress bar behind its place. -/
def barArguments : Pattern :=
  "," ++ blanks ++ capture "variable" word ++ comma ++ literal "label" ++ closing

/-- The arguments of a progress bar hold a literal behind two commas. -/
theorem barArguments_eq {place later : Position} (h : Reaches barArguments place later) :
    ∃ front back, place.after = ',' :: (front ++ '"' :: back) ∧ ',' ∈ front ∧
      (∀ c ∈ front, c ≠ '"' ∧ c ≠ '\\') ∧ '"' ∈ back := by
  have hblank : ∀ {c : Char}, isBlank c → c ≠ '"' ∧ c ≠ '\\' := by
    rintro c hc
    constructor <;> (rintro rfl; exact absurd hc (by decide))
  have hword : ∀ {c : Char}, isWord c → c ≠ '"' ∧ c ≠ '\\' := by
    rintro c hc
    constructor <;> (rintro rfl; exact absurd hc (by decide))
  obtain ⟨closed, h, -⟩ := h.append
  obtain ⟨_, h, hliteral⟩ := h.append
  obtain ⟨_, h, hcomma⟩ := h.append
  obtain ⟨_, h, hcapture⟩ := h.append
  obtain ⟨_, hopen, hblanks⟩ := h.append
  obtain ⟨content, hliteral⟩ := hliteral.literal_eq
  obtain ⟨before, behind, hcomma, hbefore, hbehind⟩ := hcomma.comma_eq
  obtain ⟨middle, hbody, hmiddle⟩ := hcapture.capture_body
  obtain ⟨name, -, hname, hwords⟩ := hbody.many1_eq
  obtain ⟨blanks, hblanks, hblanksBlank⟩ := hblanks.blanks_eq
  rw [hname, hmiddle, hcomma, hliteral] at hblanks
  refine ⟨blanks ++ (name ++ (before ++ ',' :: behind)), content ++ '"' :: closed.after, ?_, by simp,
    ?_,
    by simp⟩
  · rw [hopen.text_eq, hblanks]
    simp
  · simp only [List.mem_append, List.mem_cons]
    rintro c (hc | hc | hc | rfl | hc)
    · exact hblank (hblanksBlank c hc)
    · exact hword (hwords c hc)
    · exact hblank (hbefore c hc)
    · decide
    · exact hblank (hbehind c hc)

/-- No later comma begins the arguments of a progress bar. -/
theorem run_barArguments_none {name label : Text} (hname : isName name) {front back : Text}
    (hne : front ≠ [])
    (heq : ',' :: ' ' :: (name ++ ',' :: ' ' :: (quote label ++ ");".toList)) = front ++ back)
    (before : Option Char) (captures : List (String × Text)) :
    barArguments.run some ⟨before, back, captures⟩ = none := by
  refine run_eq_none (fun later hlater => ?_) some
  obtain ⟨inside, behind, hback, hcomma, hinside, hquote⟩ := barArguments_eq hlater
  dsimp only at hback
  obtain ⟨c, others, rfl⟩ := List.exists_cons_of_ne_nil hne
  have hrest : (' ' :: (name ++ [',', ' '])) ++ '"' :: (escape label ++ '"' :: ");".toList) =
      (others ++ ',' :: inside) ++ '"' :: behind := by
    have htail := (List.cons.inj heq).2
    rw [hback] at htail
    simpa [quote_eq] using htail
  have hone : (' ' :: (name ++ [',', ' '])).count ',' = 1 := by
    have hnone : name.count ',' = 0 := List.count_eq_zero.mpr fun hmem =>
      absurd (isNameChar_of_mem hname hmem) (by decide)
    simp [hnone]
  have htwo : 2 ≤ (others ++ ',' :: inside).count ',' := by
    have hpositive := List.count_pos_iff.mpr hcomma
    rw [List.count_append, List.count_cons_self]
    omega
  rcases List.append_eq_append_iff.mp hrest with ⟨more, hmore, hquotes⟩ | ⟨more, hmore, -⟩
  · cases more with
    | nil =>
      rw [List.append_nil] at hmore
      rw [hmore, hone] at htwo
      omega
    | cons d left =>
      obtain ⟨rfl, hquotes⟩ := List.cons.inj hquotes
      have hlast : ∃ content c, inside = content ++ [c] :=
        ⟨_, _, (List.dropLast_concat_getLast (List.ne_nil_of_mem hcomma)).symm⟩
      obtain ⟨content, c, rfl⟩ := hlast
      obtain ⟨hnotQuote, hnotSlash⟩ := hinside c (by simp)
      have hends : some c = ((' ' :: (name ++ [',', ' '])) ++ '"' :: left).getLast? := by
        rw [← hmore, ← List.cons_append, ← List.append_assoc, List.getLast?_concat]
      have hbehind : behind = ");".toList := by
        rcases List.eq_nil_or_concat left with rfl | ⟨front, d, rfl⟩
        · rw [List.getLast?_concat] at hends
          exact absurd (Option.some.inj hends) hnotQuote
        · have hlast : ('"' :: (front ++ [d])).getLast? = some d :=
            List.getLast?_concat (l := '"' :: front)
          rw [List.concat_eq_append, getLast?_of_append (List.cons_ne_nil _ _), hlast] at hends
          obtain rfl := Option.some.inj hends
          have hescape : escape label ++ '"' :: ");".toList = front ++ c :: '"' :: behind := by
            simpa using (List.cons.inj hquotes).2
          exact eq_of_escape_append (by decide) hnotSlash hescape
      exact absurd (hbehind ▸ hquote) (by decide)
  · have hcount := congrArg (List.count ',') hmore
    rw [List.count_append, hone] at hcount
    omega

/-- A progress bar. -/
theorem recognise?_progressBar {name : Text} (hname : isName name) (label : Text) :
    progressBar.recognise? ("EditorGUI.ProgressBar".toList ++ ("(".toList ++
      ("EditorGUILayout.GetControlRect(false, 20)".toList ++ (',' :: ' ' :: (name ++
        ',' :: ' ' :: (quote label ++ ");".toList)))))) =
      some { widget := .progressBar, variableName := name, label } := by
  have hplace : "EditorGUILayout.GetControlRect(false, 20)".toList =
      'E' :: "ditorGUILayout.GetControlRect(false, 20)".toList := by decide
  have hbar : ∀ before, Gives (barArguments.run some ⟨before, ',' :: ' ' :: (name ++
      ',' :: ' ' :: (quote label ++ ");".toList)), []⟩) (fun found =>
        progressBar.fields? found =
          some { widget := .progressBar, variableName := name, label }) := by
    intro before
    have hcomma : ∀ text : Text, ',' :: ' ' :: text = ",".toList ++ ' ' :: text := fun _ => rfl
    simp only [barArguments, run_append]
    rw [hcomma (name ++ _)]
    refine run_text (fun before => ?_) before
    refine run_blanks_space (head?_name_append hname _) (fun before => ?_) before
    refine run_capture_word hname (by rintro c ⟨⟩; decide) (fun before => ?_) before
    refine run_comma (head?_quote_append _ _) (fun before => ?_) before
    rw [run_literal]
    refine run_closing (fun before => ⟨_, rfl, ?_⟩) _
    exact congrArg some (bound_eq [] rfl ⟨rfl, rfl⟩ .progressBar)
  refine recognise?_of_match ?_
  simp only [match?, matchAt, progressBar, run_append, run_start]
  refine run_text (fun before => ?_) none
  refine run_blanks_none (by rintro c ⟨⟩; decide) (fun before => ?_) before
  refine run_text (fun before => ?_) before
  rw [hplace, many1, run, List.cons_append, inLine, run_one (by decide)]
  refine run_many_until (Text.forall_mem_of_all (by decide)) (fun front back heq hne before => ?_) hbar _
  exact run_barArguments_none hname hne heq before _

end CallShape

/-! ## Labels and headers -/

namespace CallShape

variable {β : Type} {next : Position → Option β} {good : β → Prop} {rest : Text}
  {captures : List (String × Text)}

/-- A call that shows a text. -/
def textStatement (content rest : Text) : Text :=
  "EditorGUILayout.LabelField".toList ++ '(' :: (quote content ++ rest)

theorem textOf_text (before : Option Char) (content after : Text) (more : List (String × Text))
    (hmore : more.lookup "text" = none) :
    textOf ⟨before, after, more ++ [("text", escape content)]⟩ "text" = content := by
  have hlookup : (more ++ [("text", escape content)]).lookup "text" = some (escape content) := by
    rw [List.lookup_append, hmore]
    rfl
  rw [textOf, Position.captured, Position.captured?, hlookup]
  exact unescape_escape content

/-- A label with its style. -/
theorem recognise?_label (content : Text) {style : Option Text}
    (hstyle : ∀ text ∈ style, CallArgument text) {fields : ElementFields}
    (hfields : ElementFields.applyStyle? { widget := .label, label := content } style
      "EditorStyles.label" = some fields) :
    label.recognise? (textStatement content (styleSuffix style ++ ");".toList)) = some fields := by
  refine recognise?_of_match ?_
  simp only [match?, matchAt, label, opening, run_append, run_start]
  unfold textStatement
  have hname : "GUILayout.Label".toList = 'G' :: "UILayout.Label".toList := by decide
  have hcall : "EditorGUILayout.LabelField".toList = 'E' :: "ditorGUILayout.LabelField".toList := by
    decide
  have hnone : ∀ (following : Position → Option Position) (rest : Text),
      (text "GUILayout.Label".toList).run following
        ⟨none, "EditorGUILayout.LabelField".toList ++ rest, []⟩ = none := by
    intro following rest
    rw [hname, hcall]
    exact run_text_ne (by rintro c ⟨⟩; decide) following none []
  rw [run, hnone, Option.none_or]
  refine run_text (fun before => ?_) none
  refine run_parenthesis (head?_quote_append _ _) (fun before => ?_) before
  rw [run_literal]
  refine run_styleTail hstyle (fun before => ⟨_, rfl, ?_⟩) _
  obtain ⟨hlookup, -⟩ := lookup_styleCaptures style
  have htext := textOf_text before content [] (styleCaptures style) (by cases style <;> rfl)
  have hcaptured : Position.captured? ⟨before, [], styleCaptures style ++
      [("text", escape content)]⟩ "style" = style := by
    rw [Position.captured?, List.lookup_append, hlookup]
    cases style <;> rfl
  simp only [labelled, htext, hcaptured]
  exact hfields

/-- A style around the usual one of headers. -/
structure HeaderStyle (front back : Text) : Prop where
  frontLine : '\n' ∉ front
  backLine : '\n' ∉ back
  backCapital : 'E' ∉ back
  first : ∀ c ∈ front.head?, isBlank c = false
  last : ∀ c ∈ back.getLast?, isBlank c = false

theorem run_headerStyle {front back : Text} (h : HeaderStyle front back)
    (hgood : ∀ before, Gives (next ⟨before, [],
      ("style", front ++ ("EditorStyles.boldLabel".toList ++ back)) :: captures⟩) good)
    (before : Option Char) :
    Gives ((capture "style" (many inLine ++ "EditorStyles.boldLabel" ++ few inLine)).run
      (closing.run next) ⟨before, (front ++ ("EditorStyles.boldLabel".toList ++ back)) ++
        ");".toList, captures⟩) good := by
  have hname : "EditorStyles.boldLabel".toList = 'E' :: "ditorStyles.boldLabel".toList := by
    decide
  have hcapital : 'E' ∉ "ditorStyles.boldLabel".toList ++ (back ++ ");".toList) := by
    simp only [List.mem_append, not_or]
    exact ⟨by decide, h.backCapital, by decide⟩
  have hinLine : ∀ {text : Text}, '\n' ∉ text → ∀ c ∈ text, (c != '\n') = true :=
    fun hline c hc => bne_iff_ne.mpr fun (hnewline : c = '\n') => hline (hnewline ▸ hc)
  simp only [run_capture, run_append]
  generalize hlast : (fun later : Position => closing.run next { later with
    captures := (_, Position.upTo _ later) :: later.captures }) = last
  have hend : ∀ later, Gives (last ⟨later, ");".toList, captures⟩) good := by
    intro later
    subst hlast
    dsimp only
    rw [upTo_append]
    exact run_closing hgood later
  have hstop : ∀ skipped others, back = skipped ++ others → others ≠ [] →
      ∀ before, last ⟨before, others ++ ");".toList, captures⟩ = none := by
    intro skipped others heq hne later
    subst hlast
    refine run_closing_none hne (fun c hc => ?_) _ _ _
    have hmem : c ∈ back.getLast? := by rwa [heq, getLast?_of_append hne]
    rw [h.last c hmem]
    decide
  rw [List.append_assoc, List.append_assoc]
  refine run_many_until (hinLine h.frontLine) (fun skipped others heq hne before => ?_)
    (fun before => ?_) before
  · obtain ⟨c, left, rfl⟩ := List.exists_cons_of_ne_nil hne
    rw [hname] at heq
    have htail : "ditorStyles.boldLabel".toList ++ (back ++ ");".toList) = left ++ others :=
      (List.cons.inj heq).2
    rw [hname]
    refine run_text_ne (fun d hd hcapitalE => ?_) _ before captures
    refine hcapital ?_
    rw [htail, ← hcapitalE]
    exact List.mem_append_right left (List.mem_of_mem_head? hd)
  · exact run_text (fun before => run_few (hinLine h.backLine) hstop hend before) before

/-- A header with its style. -/
theorem recognise?_header (content : Text) {front back : Text} (h : HeaderStyle front back)
    {fields : ElementFields}
    (hfields : header.fields? ⟨some ';', [],
      [("style", front ++ ("EditorStyles.boldLabel".toList ++ back)),
        ("text", escape content)]⟩ = some fields) :
    header.recognise? (textStatement content (',' :: ' ' ::
      ((front ++ ("EditorStyles.boldLabel".toList ++ back)) ++ ");".toList))) = some fields := by
  have hhead : ∀ c ∈ ((front ++ ("EditorStyles.boldLabel".toList ++ back)) ++
      ");".toList).head?, isBlank c = false := by
    cases front with
    | nil =>
      have hname : "EditorStyles.boldLabel".toList = 'E' :: "ditorStyles.boldLabel".toList := by
        decide
      rw [hname]
      rintro c ⟨⟩
      decide
    | cons d others =>
      rintro c ⟨⟩
      exact h.first _ rfl
  refine recognise?_of_match ?_
  simp only [match?, matchAt, header, run_append, run_start]
  unfold textStatement
  refine run_opening (head?_quote_append _ _) (fun before => ?_) none
  rw [run_literal]
  refine run_comma hhead (fun before => ?_) _
  exact run_headerStyle h (fun before => ⟨_, rfl, hfields⟩) before

end CallShape

end EditorScript
