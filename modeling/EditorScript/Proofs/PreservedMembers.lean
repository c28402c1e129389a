import EditorScript.Proofs.Dedenting
import EditorScript.Proofs.MembersInOrder

/-!
# Fragments of a class

What a project carries along inside a class are declarations of fields, types and methods,
each without a margin of its own.  Written at the margin of the class and read again, each of
them is one member of its own role, with the text that it had.
-/

namespace EditorScript

/-- Code without a margin of its own and without other white space than spaces and newlines. -/
structure IsFragment (code : Text) : Prop where
  plainBlanks : PlainBlanks code
  dedent_eq : code.dedent = code

/-- The first line of a text. -/
def Text.firstLine (text : Text) : Text := text.lines.headD []

/-! ## What fragments look like -/

/-- A declaration on one line: some words, none of which begins a type, and a name, with a
semicolon behind it or with a value of plain characters that closes its braces. -/
inductive IsFieldDeclaration : Text → Prop
  | bare {words : List Text} {name : Text}
      (hwords : ∀ word ∈ words, IsVariableName word ∧ word ∉ typeKeywords)
      (hname : IsVariableName name) : IsFieldDeclaration (spaced words ++ (name ++ [';']))
  | assigned {words : List Text} {name value : Text}
      (hwords : ∀ word ∈ words, IsVariableName word ∧ word ∉ typeKeywords)
      (hname : IsVariableName name) (hplain : value.all isPlain) (hline : '\n' ∉ value)
      (hbraces : nesting? 0 value = some 0) :
      IsFieldDeclaration (spaced words ++ (name ++ (" = " ++ (value ++ [';']))))

/-- A type: its header on the first line, and its block up to the end. -/
structure IsInnerType (code : Text) : Prop where
  header : typeHeader.accepts (codeOf code.firstLine)
  block : EndsWithBlock code.lines

/-- A method with a name: on the first line some words, none of which begins a type, the name
and a parenthesis, and a block or an expression up to the end. -/
structure IsMethod (name code : Text) : Prop where
  signature : ∃ words rest, (∀ word ∈ words, IsVariableName word ∧ word ∉ typeKeywords) ∧
    codeOf code.firstLine = spaced words ++ (name ++ '(' :: rest)
  isName : IsVariableName name
  noKeyword : name ∉ notMethodNames
  body : EndsWithBlock code.lines ∨ EndsWithSemicolon code.lines

/-- The first line of code tells the role of a member. -/
inductive TellsRole : Text → MemberRole → Prop
  | field {code : Text} (htype : typeHeader.accepts code = false) (hmethod : methodName? code = none) :
      TellsRole code .field
  | innerType {code : Text} (htype : typeHeader.accepts code) : TellsRole code .innerType
  | method {code name : Text} (htype : typeHeader.accepts code = false)
      (hmethod : methodName? code = some name) (hopener : name ≠ "ShowWindow".toList) :
      TellsRole code (if lifecycleNames.contains name then .lifecycle else .custom)

/-- A fragment that is read as one member of a role. -/
structure IsMemberText (role : MemberRole) (code : Text) : Prop extends IsFragment code where
  begins : BeginsWithWord code.firstLine
  tells : TellsRole (codeOf code.firstLine) role
  body : EndsWithBlock code.lines ∨ EndsWithSemicolon code.lines

variable {role : MemberRole} {code name : Text}

/-! ## Declarations of fields -/

namespace IsFieldDeclaration

variable (h : IsFieldDeclaration code)
include h

/-- A declaration is a line of plain characters, with closed braces in front of its semicolon. -/
theorem shape : code.all isPlain ∧ '\n' ∉ code ∧
    ∃ front, code = front ++ [';'] ∧ nesting? 0 front = some 0 := by
  have hfront : ∀ {words : List Text} {name : Text},
      (∀ word ∈ words, IsVariableName word ∧ word ∉ typeKeywords) → IsVariableName name →
        (spaced words ++ name).all isPlain ∧ '\n' ∉ spaced words ++ name ∧
          nesting? 0 (spaced words ++ name) = some 0 := by
    intro words name hwords hname
    have hall := fun word hword => (hwords word hword).1
    refine ⟨List.all_eq_true.mpr
      (forall_mem_spaced_append (fun _ => isPlain_of_isWord) (by decide) hall hname),
      notMem_spaced_append (by decide) (by decide) hall hname,
      nesting?_of_noBrace (forall_mem_spaced_append (fun c hc => ?_) (by decide) hall hname) 0⟩
    constructor <;> rintro rfl <;> exact absurd hc (by decide)
  cases h with
  | bare hwords hname =>
    obtain ⟨hplain, hline, hnesting⟩ := hfront hwords hname
    rw [← List.append_assoc]
    refine ⟨?_, List.not_mem_append hline (by decide), _, rfl, hnesting⟩
    rw [List.all_append, hplain]
    rfl
  | @assigned words name value hwords hname hvalue hvalueLine hbraces =>
    obtain ⟨hplain, hline, hnesting⟩ := hfront hwords hname
    have hcode : spaced words ++ (name ++ (" = ".toList ++ (value ++ [';']))) =
        ((spaced words ++ name) ++ (" = ".toList ++ value)) ++ [';'] := by
      simp only [List.append_assoc]
    rw [hcode]
    refine ⟨?_, List.not_mem_append (List.not_mem_append hline
      (List.not_mem_append (by decide) hvalueLine)) (by decide), _, rfl, ?_⟩
    · rw [List.all_append, @List.all_append _ _ (spaced words ++ name), hplain, List.all_append,
        hvalue]
      rfl
    · rw [nesting?_append, hnesting, Option.bind_some, nesting?_append]
      exact hbraces

theorem exists_cons : ∃ c rest, code = c :: rest ∧ isWord c := by
  cases h with
  | bare hwords hname => exact exists_spaced_eq (fun word hword => (hwords word hword).1) hname _
  | assigned hwords hname => exact exists_spaced_eq (fun word hword => (hwords word hword).1) hname _

theorem lines_eq : code.lines = [code] := Text.lines_eq_singleton h.shape.2.1

theorem codeOf_eq : codeOf code = code := by
  obtain ⟨hplain, -, front, hfront, -⟩ := h.shape
  obtain ⟨c, rest, hhead, hword⟩ := h.exists_cons
  rw [codeOf_of_reads hfront (.of_plain hplain []) (by decide)]
  refine Text.trim_eq_self ?_ ?_
  · rw [hhead]
    rintro _ ⟨⟩
    exact isBlank_of_isWord hword
  · rw [hfront, List.getLast?_concat]
    rintro _ ⟨⟩
    decide

theorem tellsRole : TellsRole code .field := by
  cases h with
  | bare hwords hname =>
    refine .field (typeHeader_accepts_declaration hwords hname (by decide) ?_)
      (methodName?_eq_none ?_)
    · rintro _ ⟨⟩
      decide
    · rw [← List.append_assoc]
      exact List.not_mem_append (notMem_spaced_append (by decide) (by decide)
        (fun word hword => (hwords word hword).1) hname) (by decide)
  | @assigned words name value hwords hname =>
    refine .field (@typeHeader_accepts_declaration words name ("= " ++ (value ++ [';'])) ' ' hwords
      hname (by decide) ?_) ?_
    · rintro _ ⟨⟩
      decide
    · have hcode : spaced words ++ (name ++ (" = ".toList ++ (value ++ [';']))) =
          ((spaced words ++ name) ++ [' ']) ++ '=' :: ' ' :: (value ++ [';']) := by
        simp only [List.append_assoc]
        rfl
      rw [hcode]
      exact methodName?_assignment (List.not_mem_append (notMem_spaced_append (by decide)
        (by decide) (fun word hword => (hwords word hword).1) hname) (by decide)) _

theorem endsWithSemicolon : EndsWithSemicolon code.lines := by
  obtain ⟨hplain, -, front, hfront, hnesting⟩ := h.shape
  have hreads := Reads.of_plain hplain []
  have hsolid : solid (lineChars .code code) = solid front ++ [';'] := by
    rw [hreads.lineChars_eq, hfront, solid_append]
    rfl
  rw [h.lines_eq]
  refine ⟨hreads.lineEnd_eq, ⟨solid front, ?_, ?_, .inl rfl⟩, [], code, rfl, ?_⟩
  · rw [codeText_cons, codeText_nil, List.append_nil, hsolid]
  · rw [nesting?_solid, hnesting]
  · rw [modeBehind_nil, hsolid]
    simp

theorem isMemberText (hfragment : IsFragment code) : IsMemberText .field code where
  toIsFragment := hfragment
  begins := by
    obtain ⟨c, rest, hhead, hword⟩ := h.exists_cons
    rw [Text.firstLine, h.lines_eq]
    exact ⟨c, rest, h.codeOf_eq.trans hhead, hword⟩
  tells := by
    rw [Text.firstLine, h.lines_eq, List.headD_cons, h.codeOf_eq]
    exact h.tellsRole
  body := .inr h.endsWithSemicolon

end IsFieldDeclaration

/-! ## Types and methods -/

theorem IsInnerType.isMemberText (h : IsInnerType code) (hfragment : IsFragment code) :
    IsMemberText .innerType code where
  toIsFragment := hfragment
  begins := exists_cons_of_typeHeader h.header
  tells := .innerType h.header
  body := .inl h.block

theorem IsMethod.isMemberText (h : IsMethod name code) (hfragment : IsFragment code)
    (hopener : name ≠ "ShowWindow".toList) :
    IsMemberText (if lifecycleNames.contains name then .lifecycle else .custom) code where
  toIsFragment := hfragment
  begins := by
    obtain ⟨words, rest, hwords, hcode⟩ := h.signature
    rw [BeginsWithWord, hcode]
    exact exists_spaced_eq (fun word hword => (hwords word hword).1) h.isName _
  tells := by
    obtain ⟨words, rest, hwords, hcode⟩ := h.signature
    rw [hcode]
    refine .method (typeHeader_accepts_declaration hwords h.isName (by decide) ?_)
      (methodName?_declaration (fun word hword => (hwords word hword).1) h.isName h.noKeyword rest)
      hopener
    rintro _ ⟨⟩
    decide
  body := h.body

/-! ## At a margin -/

/-- The member that is read for a fragment at a margin. -/
def Member.ofCode (count : Nat) (role : MemberRole) (code : Text) : Member :=
  ⟨role, (Text.reindent count code).lines⟩

namespace IsFragment

variable (h : IsFragment code)
include h

theorem lines_reindent (count : Nat) :
    (Text.reindent count code).lines = code.lines.map (Text.indentLine count) := by
  rw [Text.lines_reindent, h.dedent_eq]

/-- The text of the member is the fragment without the margin. -/
theorem text_ofCode (count : Nat) (role : MemberRole) :
    (Member.ofCode count role code).text = code := by
  rw [Member.text, Member.ofCode, Text.unlines_lines, Text.dedent_reindent h.plainBlanks,
    h.dedent_eq]

end IsFragment

/-- The members of the roles of methods are kept where the drawing method was met before. -/
theorem TellsRole.classify_eq {own pending : List Text} {drawn : Bool} {className : Text}
    (h : TellsRole (codeOf (own.headD [])) role)
    (hdrawn : role = .lifecycle ∨ role = .custom → drawn) :
    classify .editorWindow className drawn pending own = .kept role := by
  rw [classify]
  dsimp only
  generalize codeOf (own.headD []) = first at h
  cases h with
  | field htype hmethod => rw [htype, if_neg (by decide), hmethod]
  | innerType htype => rw [if_pos htype]
  | @method name htype hmethod hopener =>
    have hgenerated : ∀ text body, isGenerated .editorWindow className name text body = false := by
      intro text body
      rw [isGenerated, beq_eq_false_iff_ne.mpr hopener, Bool.false_and]
    have hmet : drawn = true := hdrawn (by split <;> simp)
    rw [htype, if_neg (by decide), hmethod]
    dsimp only
    cases hblock : findBlock? own 0 with
    | none =>
      rw [Option.map_none]
      dsimp only
      rw [hgenerated, if_neg (by decide)]
    | some block =>
      rw [Option.map_some]
      dsimp only
      rw [hmet, hgenerated, if_neg (by simp), if_neg (by decide)]

/-- A fragment at the margin of the class leaves its member. -/
theorem IsMemberText.adds {drawn : Option (List Text)} {className : Text}
    (h : IsMemberText role code) (count : Nat)
    (hdrawn : role = .lifecycle ∨ role = .custom → drawn.isSome) :
    Adds .editorWindow className drawn drawn (Text.reindent count code).lines
      [Member.ofCode count role code] := by
  have hmoved : ∀ line ∈ code.lines, SameButMargin line (Text.indentLine count line) :=
    fun line _ => Text.sameButMargin_indentLine count line
  have hhead : (Text.reindent count code).lines.headD [] =
      Text.indentLine count code.firstLine := by
    obtain ⟨first, others, hlines⟩ := List.exists_cons_of_ne_nil (Text.lines_ne_nil code)
    rw [h.lines_reindent, Text.firstLine, hlines]
    rfl
  have hfirst := Text.sameButMargin_indentLine count code.firstLine
  have hbody : Nests 0 (Text.reindent count code).lines 0 ∧
      IsMember (Text.reindent count code).lines := by
    rw [h.lines_reindent]
    rcases h.body with hbody | hbody
    · exact ⟨(hbody.map hmoved).nests, (hbody.map hmoved).isMember⟩
    · exact ⟨(hbody.map hmoved).nests, (hbody.map hmoved).isMember⟩
  refine .member ?_ hbody.1 hbody.2
    (fun line hline => (Text.plain_of_mem_reindent h.plainBlanks hline).return_notMem) ?_
  · rw [hhead]
    exact h.begins.congr hfirst
  · refine TellsRole.classify_eq ?_ hdrawn
    rw [hhead, ← hfirst.codeOf_eq]
    exact h.tells

end EditorScript
