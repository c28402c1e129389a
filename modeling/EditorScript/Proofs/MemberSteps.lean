import EditorScript.Proofs.CodeLine
import EditorScript.Proofs.MemberExtent

/-!
# Reading members one by one

Each blank line, each attribute and each member among the lines of a class is one
step of `membersOf`.
-/

namespace EditorScript

/-- A line that closes its braces is a member when it ends with a semicolon. -/
theorem isMember_of_reads {front chars : Text} (h : Reads [] (front ++ [';']) chars)
    (hnesting : nesting? 0 chars = some 0) : IsMember [front ++ [';']] := by
  obtain ⟨hplain, others, hfront⟩ := h.of_concat (by decide)
  obtain ⟨columns, hcolumns⟩ := hfront.columns_append 0 [';']
  have hline : codeColumns .code (front ++ [';']) = columns ++ [(front.length, ';')] := by
    rw [codeColumns, hcolumns]
    simp [codeColumnsFrom, Mode.next_code_of_isPlain hplain]
  have hchars : columns.map (·.2) ++ [';'] = chars := by
    rw [← h.lineChars_eq, lineChars, hline, List.map_append]
    rfl
  have hdepth : nesting? 0 (columns.map (·.2)) = some 0 := by
    rw [← hchars, nesting?_append] at hnesting
    cases hfront : nesting? 0 (columns.map (·.2)) with
    | none => simp [hfront] at hnesting
    | some depth => simpa [hfront, nesting?] using hnesting
  refine ⟨h.lineEnd_eq, fun rest _ => ?_⟩
  rw [codeCharsFrom, codeCharsFrom, hline, List.map_append, List.append_nil, List.append_assoc]
  refine @memberStop?_line _ _ (fun c hc => ?_) _ rfl rfl 0 ?_ _ (by rintro line ⟨⟩) rest
  · obtain ⟨column, -, rfl⟩ := List.mem_map.mp hc
    rfl
  · rw [List.map_map]
    exact hdepth

variable {kind : ScriptKind} {className : Text} {pending : List Text} {members : List Member}
  {guiBody? : Option (List Text)} {line : Text} {rest : List Text}

/-- Behind a margin, a statement is all that is left when the line is trimmed. -/
theorem Statement.trim_margin {statement : Text} (h : Statement statement) (count : Nat) :
    (Text.spaces count ++ statement).trim = statement := by
  refine Text.trim_spaces_append count h.first ?_
  obtain ⟨front, last, rfl, -, hblank⟩ := h.last
  rw [List.getLast?_concat]
  rintro c ⟨⟩
  exact hblank

/-- A line that a member can start with. -/
structure StartsMember (line : Text) : Prop where
  hasCode : codeOf line ≠ []
  noDirective : (codeOf line).startsWith "#" = false
  noAttribute : attributeLine.accepts (codeOf line) = false
  noComment : line.trim.startsWith "/*" = false

theorem StartsMember.trim_ne_nil (h : StartsMember line) : line.trim ≠ [] := fun hnil =>
  h.hasCode (codeOf_of_blank (Text.blank_of_trim_eq_nil hnil))

/-- What is no member keeps nothing. -/
@[simp]
theorem attachLines_nil (members : List Member) : attachLines [] members = members := rfl

/-- A blank line ends what is read in front of a member. -/
theorem membersOf_blank (h : line.trim = []) :
    membersOf kind className pending members guiBody? (line :: rest) =
      membersOf kind className [] (attachLines pending members) guiBody? rest := by
  rw [membersOf, h]
  rfl

/-- An attribute belongs to the member below it. -/
theorem membersOf_attribute (hattribute : attributeLine.accepts (codeOf line))
    (hcode : codeOf line ≠ []) (hcomment : line.trim.startsWith "/*" = false)
    (hmarker : line.trim ∉ generatedMarkers) :
    membersOf kind className pending members guiBody? (line :: rest) =
      membersOf kind className (pending ++ [line]) members guiBody? rest := by
  have hne : line.trim.isEmpty = false := List.isEmpty_eq_false_iff.mpr fun hnil =>
    hcode (codeOf_of_blank (Text.blank_of_trim_eq_nil hnil))
  have hunmarked : generatedMarkers.contains line.trim = false := by simpa using hmarker
  rw [membersOf]
  dsimp only
  rw [hne, if_neg (by decide), hcomment, if_neg (by decide), hattribute, Bool.or_true, if_pos rfl,
    hunmarked, if_neg (by decide)]

/-- A marker is passed over. -/
theorem membersOf_marker (hcode : codeOf line = []) (hmarker : line.trim ∈ generatedMarkers) :
    membersOf kind className pending members guiBody? (line :: rest) =
      membersOf kind className pending members guiBody? rest := by
  have hall : ∀ marker ∈ generatedMarkers,
      marker.isEmpty = false ∧ marker.startsWith "/*" = false := by decide
  obtain ⟨hne, hcomment⟩ := hall _ hmarker
  have hmarked : generatedMarkers.contains line.trim = true := by simpa using hmarker
  rw [membersOf]
  dsimp only
  rw [hne, if_neg (by decide), hcomment, if_neg (by decide), hcode, List.isEmpty_nil, Bool.true_or,
    Bool.true_or, if_pos rfl, hmarked, if_pos rfl]

/-- A member, given where it ends. -/
theorem membersOf_member {own behind : List Text} (h : StartsMember line)
    (hend : memberEnd (line :: (own ++ behind)) 0 (line :: (own ++ behind)).length = own.length) :
    membersOf kind className pending members guiBody? (line :: (own ++ behind)) =
      match classify kind className guiBody?.isSome pending (line :: own) with
      | .kept role =>
        membersOf kind className [] (⟨role, pending ++ line :: own⟩ :: members) guiBody? behind
      | .gui body =>
        membersOf kind className [] (attachLines (directives pending) members) (some body) behind
      | .generated =>
        membersOf kind className [] (attachLines (directives pending) members) guiBody? behind := by
  have hne : line.trim.isEmpty = false := List.isEmpty_eq_false_iff.mpr h.trim_ne_nil
  have hcode : (codeOf line).isEmpty = false := List.isEmpty_eq_false_iff.mpr h.hasCode
  have htake : (line :: (own ++ behind)).take (own.length + 1) = line :: own := by
    rw [List.take_succ_cons, List.take_left]
  rw [List.length_cons] at hend
  rw [membersOf]
  dsimp only
  rewrite [hne, if_neg (by decide), h.noComment, if_neg (by decide), hcode, h.noDirective, h.noAttribute,
    if_neg (by decide), hend, htake, List.drop_left]
  cases classify kind className guiBody?.isSome pending (line :: own) <;> rfl

/-- Statements, unless they are written like attributes or directives, start members. -/
theorem Statement.startsMember {statement : Text} (h : Statement statement)
    (hdirective : statement.startsWith "#" = false)
    (hattribute : attributeLine.accepts statement = false)
    (hcomment : statement.startsWith "/*" = false) (count : Nat) :
    StartsMember (Text.spaces count ++ statement) := by
  constructor
  · rw [h.codeOf_eq]
    exact h.ne_nil
  · rw [h.codeOf_eq, hdirective]
  · rw [h.codeOf_eq, hattribute]
  · rw [h.trim_margin, hcomment]

end EditorScript
