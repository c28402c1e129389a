import EditorScript.Proofs.OtherScripts
import EditorScript.Recovery.Body

/-!
# Statements that stand for code

A statement that none of the shapes fits is kept as it is, up to its end.  That is so for
every switch, and a statement that ends with its line is kept with that line alone.
-/

namespace EditorScript

open Pattern

theorem matchCall?_eq_none {code : Text}
    (h : ∀ pattern ∈ CallShape.all.map (·.pattern), pattern.match? code = none) :
    matchCall? code = none := by
  rw [matchCall?, List.findSome?_eq_none_iff]
  intro shape hshape
  rw [CallShape.recognise?, h shape.pattern (List.mem_map.mpr ⟨shape, hshape, rfl⟩)]
  rfl

namespace Step

/-- All shapes that statements are recognised by. -/
def shapes : List Pattern :=
  earlierShapes ++ (CallShape.all.map (·.pattern) ++ [plainLabel])

/-- Code that no shape fits is kept. -/
theorem next_of_unrecognised {line : Text} {rest : List Text} (hne : codeOf line ≠ [])
    (h : ∀ pattern ∈ shapes, pattern.match? (codeOf line) = none) :
    next line rest = Step.code line rest := by
  rw [shapes, List.forall_mem_append, List.forall_mem_append, List.forall_mem_singleton] at h
  obtain ⟨hearlier, hcalls, hlabel⟩ := h
  have hcode : Ordinary (codeOf line) := ordinary_of_match?_none hearlier
  have hempty : (codeOf line).isEmpty = false := by simpa using hne
  simp only [next, hempty, hcode.comment, hcode.boilerplate, container?, foldout?, tabGroup?,
    button?, call?, hcode.container, hcode.foldout, hcode.toolbar, hcode.button,
    matchCall?_eq_none hcalls, labelledTextArea?, hlabel, Option.map_none, Option.bind_none,
    Option.or_none, Option.getD_none, Bool.false_eq_true, if_false]

end Step

/-- A statement that no shape fits is kept up to its end. -/
theorem recoverLines_of_unrecognised {line : Text} {rest : List Text}
    (h : ∀ pattern ∈ Step.shapes, pattern.match? (codeOf line) = none)
    (hstarts : startsStatement (codeOf line)) :
    recoverLines (line :: rest) =
      ⟨.ofCode (statementText (line :: rest)) ::
          (recoverLines (rest.drop (extent (line :: rest)))).elements,
        (recoverLines (rest.drop (extent (line :: rest)))).warnings⟩ := by
  have hne : codeOf line ≠ [] := by
    intro hnil
    rw [hnil] at hstarts
    exact absurd hstarts (by decide)
  have hnext : Step.next line rest = Step.code line rest := Step.next_of_unrecognised hne h
  rw [Step.code, if_pos hstarts] at hnext
  exact recoverLines_of_take hnext

/-! ## Calls seen in ASCII -/

/-- A class with one more mark. -/
theorem respects_or_mark {accepts : Char → Bool} {mark : Char}
    (h : ∀ c, accepts c → accepts (familiar c)) (hmark : mark.toNat < 128) :
    (one fun c => accepts c || c == mark).Respects familiar := by
  intro c hc
  rw [Bool.or_eq_true, beq_iff_eq] at hc ⊢
  rcases hc with hc | rfl
  · exact .inl (h c hc)
  · exact .inr (familiar_of_lt hmark)

theorem respects_dotted : dotted.Respects familiar :=
  have hclass := @respects_or_mark isWord '.' (fun _ => isWord_familiar) (by decide)
  ⟨hclass, hclass⟩

theorem respects_numberArgument (name : String) :
    (CallShape.numberArgument name).Respects familiar := by
  have hclass := @respects_or_mark isDecimal '.' (fun _ => isDecimal_familiar) (by decide)
  simp (disch := decide) [CallShape.numberArgument, many1, respects_text, respects_oneOf, hclass]

theorem respects_labelArgument : CallShape.labelArgument.Respects familiar := by
  simp [CallShape.labelArgument, respects_literal, respects_comma]

theorem respects_styleTail : CallShape.styleTail.Respects familiar := by
  simp (disch := decide) [CallShape.styleTail, respects_text, respects_closing]

theorem respects_limitsTail : CallShape.limitsTail.Respects familiar := by
  simp [CallShape.limitsTail, respects_comma, respects_numberArgument, respects_closing]

theorem respects_valueCall {call : String} (hcall : call.toList.all (·.toNat < 128))
    {tail : Pattern} (htail : tail.Respects familiar) :
    (CallShape.valueCall call tail).Respects familiar := by
  simp (disch := decide) [CallShape.valueCall, respects_assigned, respects_editorGui,
    respects_opening, respects_labelArgument, respects_text, respects_text hcall, htail]

theorem respects_simple {name call : String} {widget : Widget}
    (hcall : call.toList.all (·.toNat < 128)) :
    (CallShape.simple name call widget).pattern.Respects familiar :=
  respects_valueCall hcall respects_closing

theorem respects_limited {name call : String} {widget : Widget}
    (hcall : call.toList.all (·.toNat < 128)) :
    (CallShape.limited name call widget).pattern.Respects familiar :=
  respects_valueCall hcall respects_limitsTail

theorem respects_popup : CallShape.popup.pattern.Respects familiar :=
  respects_valueCall (by decide) (by simp [respects_comma, respects_stringList, respects_closing])

theorem respects_textField : CallShape.textField.pattern.Respects familiar :=
  respects_valueCall (by decide) respects_styleTail

theorem respects_assigning : ∀ shape ∈ [CallShape.enumPopup, CallShape.textArea,
    CallShape.toggle, CallShape.objectField], shape.pattern.Respects familiar := by
  simp (disch := decide) [CallShape.enumPopup, CallShape.textArea, CallShape.toggle,
    CallShape.objectField, CallShape.typeName, firstOf, finish, respects_text, respects_noneOf,
    respects_assigned, respects_editorGui, respects_opening, respects_labelArgument,
    respects_styleTail, respects_closing, respects_comma, respects_dotted]

theorem respects_header : CallShape.header.pattern.Respects familiar := by
  unfold CallShape.header
  dsimp only
  simp (disch := decide) [start, respects_text, respects_opening, respects_literal,
    respects_comma, respects_closing]

theorem respects_display : ∀ shape ∈ [CallShape.helpBox, CallShape.space, CallShape.separator,
    CallShape.progressBar, CallShape.label], shape.pattern.Respects familiar := by
  simp (disch := decide) [CallShape.helpBox, CallShape.space, CallShape.separator,
    CallShape.progressBar, CallShape.label, start, many1, respects_text,
    respects_opening, respects_literal, respects_comma, respects_closing, respects_styleTail]

/-- The shapes of calls can be seen in ASCII. -/
theorem respects_calls : ∀ pattern ∈ CallShape.all.map (·.pattern), pattern.Respects familiar := by
  have hassigning := respects_assigning
  have hdisplay := respects_display
  simp only [List.forall_mem_cons, List.not_mem_nil, false_implies, implies_true, and_true]
    at hassigning hdisplay
  simp (disch := decide) only [CallShape.all, List.map_cons, List.map_nil, List.forall_mem_cons,
    respects_simple, respects_limited, respects_popup, respects_textField, respects_header,
    hassigning, hdisplay, List.not_mem_nil, false_implies, implies_true, and_self]

theorem respects_plainLabel : Step.plainLabel.Respects familiar := by
  simp (disch := decide) [Step.plainLabel, start, respects_opening, respects_closing, respects_text,
    respects_literal]

theorem respects_shapes : ∀ pattern ∈ Step.shapes, pattern.Respects familiar := by
  rw [Step.shapes, List.forall_mem_append, List.forall_mem_append, List.forall_mem_singleton]
  exact ⟨respects_earlierShapes, respects_calls, respects_plainLabel⟩

/-! ## Switches -/

/-- A statement that begins with `switch` and a parenthesis. -/
def Sketch.switching : Sketch :=
  known "switch" ++ .run asciiBlanks :: [.char '(', .rest]

theorem rulesOut_switching : ∀ pattern ∈ Step.shapes, pattern.rulesOut Sketch.switching := by
  decide +kernel

/-- A word and a parenthesis start a statement. -/
theorem startsStatement_of_word {word blanks rest : Text} (hne : word ≠ [])
    (hword : ∀ c ∈ word, isWord c) (hblank : ∀ c ∈ blanks, isBlank c) :
    startsStatement (word ++ (blanks ++ '(' :: rest)) := by
  have hclass : ∀ c ∈ word, (isWord c || c == '.') = true := fun c hc => by rw [hword c hc]; rfl
  have hbehind : ∀ c ∈ (blanks ++ '(' :: rest).head?, (isWord c || c == '.') = false := by
    cases blanks with
    | nil =>
      rintro c ⟨⟩
      decide
    | cons first others =>
      rintro c ⟨⟩
      have hfirst := hblank first List.mem_cons_self
      rw [Bool.or_eq_false_iff, beq_eq_false_iff_ne]
      exact ⟨isWord_of_isBlank hfirst, fun hpoint => absurd (hpoint ▸ hfirst) (by decide)⟩
  have hopen : '(' :: rest = "(".toList ++ rest := rfl
  have hnone : ∀ (following : Position → Option Position) (before : Option Char)
      (captures : List (String × Text)),
      (("<" : Pattern) ++ many (noneOf ">") ++ ">").run following
        ⟨before, '(' :: rest, captures⟩ = none := fun _ _ _ => rfl
  have hstart : Gives (callStart.match? (word ++ (blanks ++ '(' :: rest))) (fun _ => True) := by
    simp only [match?, matchAt, callStart, run_append, run_start]
    refine run_many1 hne hclass hbehind (fun before => ?_) none
    refine run_many hblank (by rintro c ⟨⟩; decide) (fun before => ?_) before
    rw [run_opt_none (hnone _ _ _)]
    refine run_blanks_none (by rintro c ⟨⟩; decide) (fun before => ?_) before
    rw [hopen]
    exact run_text (fun before => ⟨_, rfl, trivial⟩) before
  obtain ⟨found, hfound, -⟩ := hstart
  rw [startsStatement, accepts, hfound]
  rfl

/-- A switch is kept with its whole statement. -/
theorem recoverLines_switch {line blanks behind : Text} {rest : List Text}
    (hcode : codeOf line = "switch".toList ++ (blanks ++ '(' :: behind))
    (hblank : ∀ c ∈ blanks, isBlank c) :
    recoverLines (line :: rest) =
      ⟨.ofCode (statementText (line :: rest)) ::
          (recoverLines (rest.drop (extent (line :: rest)))).elements,
        (recoverLines (rest.drop (extent (line :: rest)))).warnings⟩ := by
  have hfits : Fits Sketch.switching ((codeOf line).map familiar) := by
    rw [hcode]
    have hopen : Fits [.char '(', .rest] (('(' :: behind).map familiar) := .char .rest
    have hswitch : "switch".toList.map familiar = "switch".toList := by decide
    rw [List.map_append, hswitch]
    exact (hopen.view_blanks hblank).known_append _
  have hnone : ∀ pattern ∈ Step.shapes, pattern.match? (codeOf line) = none :=
    fun pattern hpattern => match?_eq_none_of_map (rulesOut_switching pattern hpattern)
      (respects_shapes pattern hpattern) hfits
  refine recoverLines_of_unrecognised hnone ?_
  rw [hcode]
  exact startsStatement_of_word (by decide) (by decide) hblank

/-! ## Statements on one line -/

/-- A statement that ends with its line and is not continued takes no further line. -/
theorem extent_of_semicolon {line : Text} {rest : List Text}
    (hbrace : opensBrace (codeOf line) = false) (hend : (codeOf line).endsWith ";")
    (hnext : ∀ first ∈ firstCode? rest, first.2.startsWith "\x7b" = false ∧
      continues (codeOf line) first.2 = false) : extent (line :: rest) = 0 := by
  have hlines : linesToSemicolon (line :: rest) = 0 := by
    cases rest with
    | nil => rw [linesToSemicolon]
    | cons next others => rw [linesToSemicolon, if_pos hend]
  have hown : ownExtent? line rest = some 0 := by
    rw [ownExtent?, hbrace, Bool.false_or, if_neg, hlines]
    cases hfirst : firstCode? rest with
    | none => exact Bool.false_ne_true
    | some first =>
      rw [Option.any_some]
      exact Bool.eq_false_iff.mp (hnext first hfirst).1
  rw [extent, hown]
  dsimp only
  rw [List.drop_zero]
  cases hfirst : firstCode? rest with
  | none => rfl
  | some first =>
    dsimp only
    rw [(hnext first hfirst).2]
    rfl

/-- A statement that no shape fits and that ends with its line is kept alone. -/
theorem recoverLines_of_line {line : Text} {rest : List Text}
    (h : ∀ pattern ∈ Step.shapes, pattern.match? (codeOf line) = none)
    (hstarts : startsStatement (codeOf line)) (hextent : extent (line :: rest) = 0) :
    recoverLines (line :: rest) =
      ⟨.ofCode line.dedent :: (recoverLines rest).elements, (recoverLines rest).warnings⟩ := by
  rw [recoverLines_of_unrecognised h hstarts, statementText, hextent]
  simp

/-- A brace on a line of its own stands for nothing. -/
theorem recoverLines_of_brace {line : Text} {rest : List Text}
    (h : codeOf line = ['\x7b'] ∨ codeOf line = ['\x7d']) :
    recoverLines (line :: rest) = recoverLines rest := by
  refine recoverLines_of_skip ?_
  have hextent : boilerplateExtent (line :: rest) = 0 := by
    rw [boilerplateExtent, List.headD_cons]
    rcases h with h | h <;> rw [h] <;> rfl
  have hbrace : isBoilerplate ['\x7b'] ∧ isBoilerplate ['\x7d'] := by decide
  have hnext : ∀ brace, codeOf line = [brace] → isBoilerplate [brace] →
      Text.startsWith [brace] "/*" = false → Step.next line rest = .skip rest := by
    intro brace hcode hboilerplate hcomment
    simp only [Step.next, hcode, List.isEmpty_cons, hcomment, hboilerplate, hextent, List.drop_zero,
      Bool.false_eq_true, if_false, if_true]
  rcases h with h | h
  · exact hnext _ h hbrace.1 rfl
  · exact hnext _ h hbrace.2 rfl

end EditorScript
