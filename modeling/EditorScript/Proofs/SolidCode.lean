import EditorScript.Proofs.Margin

/-!
# Code without its white space

Where members end depends on the code characters that are no blanks.  Those are the
same at every margin.
-/

namespace EditorScript

/-- The characters of a text that are no white space. -/
def solid (text : Text) : Text :=
  text.filter fun c => !isBlank c

@[simp]
theorem solid_nil : solid [] = [] := rfl

@[simp]
theorem solid_append (first second : Text) :
    solid (first ++ second) = solid first ++ solid second :=
  List.filter_append ..

theorem solid_cons {c : Char} (h : isBlank c = false) (rest : Text) :
    solid (c :: rest) = c :: solid rest :=
  List.filter_cons_of_pos (by rw [h]; rfl)

theorem solid_of_blank {text : Text} (h : text.all isBlank) : solid text = [] :=
  List.filter_eq_nil_iff.mpr fun c hc => by simp [List.all_eq_true.mp h c hc]

/-- White space nests nothing. -/
theorem nesting?_solid (depth : Nat) (text : Text) :
    nesting? depth (solid text) = nesting? depth text := by
  induction text generalizing depth with
  | nil => rfl
  | cons c rest ih =>
    by_cases hblank : isBlank c
    · have hskip : nesting? depth (c :: rest) = nesting? depth rest :=
        (nesting?_append depth [c] rest).trans (by
          rw [nesting?_blanks (by rw [List.all_cons, hblank]; rfl)]
          rfl)
      rw [hskip, ← ih, solid, List.filter_cons_of_neg (by simp [hblank]), solid]
    · rw [solid_cons (by simpa using hblank), ← List.singleton_append, nesting?_append,
        ← List.singleton_append (l := rest), nesting?_append]
      exact congrArg _ (funext ih)

/-- What is solid of a line's code is so at every margin. -/
theorem SameButMargin.solid_lineChars_eq {line other : Text} (h : SameButMargin line other)
    {mode : Mode} (hmode : mode.atLineBreak = mode) :
    solid (lineChars mode line) = solid (lineChars mode other) := by
  have hblanks : ∀ {blanks : Text}, blanks.all isBlank → ∀ line,
      solid (lineChars mode (blanks ++ line)) = solid (lineChars mode line) := by
    intro blanks hblank line
    rw [lineChars_blanks hmode hblank]
    split
    · rw [solid_append, solid_of_blank hblank, List.nil_append]
    · rfl
  obtain ⟨m, n, core, rfl, rfl⟩ | ⟨hline, hother⟩ := h
  · rw [hblanks (spaces_all_isBlank m), hblanks (spaces_all_isBlank n)]
  · have h1 := hblanks hline []
    have h2 := hblanks hother []
    rw [List.append_nil] at h1 h2
    rw [h1, h2]

/-- Lines that are moved to other margins have the same solid code. -/
theorem solid_codeText_map {lines : List Text} {moved : Text → Text}
    (h : ∀ line ∈ lines, SameButMargin line (moved line)) {mode : Mode}
    (hmode : mode.atLineBreak = mode) :
    solid (codeText mode (lines.map moved)) = solid (codeText mode lines) := by
  induction lines generalizing mode with
  | nil => rfl
  | cons line rest ih =>
    rw [List.forall_mem_cons] at h
    rw [List.map_cons, codeText_cons, codeText_cons, solid_append, solid_append,
      ← h.1.solid_lineChars_eq hmode, ← h.1.lineEnd_eq hmode,
      ih h.2 (lineEnd_atLineBreak mode line)]

/-! ## Solid code along a line -/

/-- The solid code characters of a piece of a line. -/
def solidChars (mode : Mode) (passed text : Text) : Text :=
  solid ((codeColumnsFrom mode passed 0 text).map (·.2))

/-- Columns make no difference. -/
theorem map_snd_codeColumnsFrom (mode : Mode) (passed text : Text) (column other : Nat) :
    (codeColumnsFrom mode passed column text).map (·.2) =
      (codeColumnsFrom mode passed other text).map (·.2) := by
  induction text generalizing mode passed column other with
  | nil => rfl
  | cons c rest ih =>
    simp only [codeColumnsFrom]
    split
    · exact congrArg (c :: ·) (ih _ _ _ _)
    · exact ih _ _ _ _

theorem solidChars_cons (mode : Mode) (passed : Text) (c : Char) (rest : Text) :
    solidChars mode passed (c :: rest) =
      (if mode = .code ∧ mode.next passed c rest.head? = .code then solid [c] else []) ++
        solidChars (mode.next passed c rest.head?) (c :: passed) rest := by
  rw [solidChars, solidChars, codeColumnsFrom, map_snd_codeColumnsFrom _ _ rest 0 (0 + 1)]
  split
  · exact solid_append [c] _
  · rfl

/-- White space is no solid code. -/
theorem solidChars_cons_blank {c : Char} (h : isBlank c) (mode : Mode) (passed rest : Text) :
    solidChars mode passed (c :: rest) =
      solidChars (mode.next passed c rest.head?) (c :: passed) rest := by
  have hnone : solid [c] = [] := solid_of_blank (by simpa using h)
  rw [solidChars_cons, hnone, ite_self, List.nil_append]

/-- Of the characters in front of another one only an `@` counts, and only for a quote. -/
theorem Mode.next_passed {passed shown : Text} {c : Char}
    (h : c = '"' → (passed.take 2).contains '@' = (shown.take 2).contains '@') (mode : Mode)
    (following : Option Char) : mode.next shown c following = mode.next passed c following := by
  by_cases hc : c = '"'
  · cases mode <;> simp only [next, h hc]
  · cases mode <;> simp [next, hc]

theorem contains_take_two {c : Char} {passed : Text} :
    ((c :: passed).take 2).contains '@' = (c == '@' || passed.head? == some '@') := by
  rw [Bool.eq_iff_iff]
  cases passed <;> simp [@eq_comm _ '@']

end EditorScript
