import EditorScript.Proofs.CodeMode

/-!
# Nesting of braces

The depth of nested braces along the code characters of some lines.  Text is
lexically closed when it is read from code mode to code mode, no brace closes
that it has not opened, and every brace it opens is closed.  Lines are put
together like the two-sided contracts of statements: `Nests d lines e` takes
depth `d` to depth `e`.
-/

namespace EditorScript

/-- The depth of nested braces behind some code characters that start at a
depth; nothing once a brace closes that is not open. -/
def nesting? : Nat → Text → Option Nat
  | depth, [] => some depth
  | depth, c :: rest =>
    if c = '{' then nesting? (depth + 1) rest
    else if c = '}' then
      match depth with
      | 0 => none
      | outer + 1 => nesting? outer rest
    else nesting? depth rest

/-- The code characters of some lines, the first of which starts in a mode. -/
def codeText (mode : Mode) (lines : List Text) : Text :=
  (codeCharsFrom mode 0 lines).map (·.char)

/-- The mode behind some lines, the first of which starts in a mode. -/
def modeBehind (mode : Mode) (lines : List Text) : Mode :=
  lines.foldl lineEnd mode

/-- Lines that are read from code mode to code mode and lead from one depth of
nested braces to another without ever falling below zero. -/
structure Nests (depth : Nat) (lines : List Text) (later : Nat) : Prop where
  mode : modeBehind .code lines = .code
  depth : nesting? depth (codeText .code lines) = some later

/-- Text that ends in code mode and closes exactly the braces that it opens. -/
def LexicallyClosed (text : Text) : Prop :=
  Nests 0 text.lines 0

instance (depth : Nat) (lines : List Text) (later : Nat) : Decidable (Nests depth lines later) :=
  decidable_of_iff (modeBehind .code lines = .code ∧
    nesting? depth (codeText .code lines) = some later)
    ⟨fun h => ⟨h.1, h.2⟩, fun h => ⟨h.mode, h.depth⟩⟩

instance (text : Text) : Decidable (LexicallyClosed text) :=
  inferInstanceAs (Decidable (Nests 0 text.lines 0))

@[simp]
theorem modeBehind_nil (mode : Mode) : modeBehind mode [] = mode := rfl

@[simp]
theorem modeBehind_cons (mode : Mode) (line : Text) (lines : List Text) :
    modeBehind mode (line :: lines) = modeBehind (lineEnd mode line) lines := rfl

theorem modeBehind_append (mode : Mode) (first second : List Text) :
    modeBehind mode (first ++ second) = modeBehind (modeBehind mode first) second :=
  List.foldl_append

/-- Numbering the lines differently changes no character. -/
theorem map_char_codeCharsFrom (mode : Mode) (number other : Nat) (lines : List Text) :
    (codeCharsFrom mode number lines).map (·.char) =
      (codeCharsFrom mode other lines).map (·.char) := by
  induction lines generalizing mode number other with
  | nil => rfl
  | cons line rest ih =>
    simp only [codeCharsFrom, List.map_append, List.map_map]
    exact congrArg₂ (· ++ ·) rfl (ih _ _ _)

@[simp]
theorem codeText_nil (mode : Mode) : codeText mode [] = [] := rfl

@[simp]
theorem codeText_cons (mode : Mode) (line : Text) (lines : List Text) :
    codeText mode (line :: lines) =
      lineChars mode line ++ codeText (lineEnd mode line) lines := by
  simp only [codeText, codeCharsFrom, List.map_append, List.map_map, lineChars]
  rw [map_char_codeCharsFrom _ (0 + 1) 0]
  rfl

theorem codeText_append (mode : Mode) (first second : List Text) :
    codeText mode (first ++ second) =
      codeText mode first ++ codeText (modeBehind mode first) second := by
  induction first generalizing mode with
  | nil => rfl
  | cons line rest ih => simp [ih]

theorem codeCharsFrom_append (mode : Mode) (number : Nat) (first second : List Text) :
    codeCharsFrom mode number (first ++ second) =
      codeCharsFrom mode number first ++
        codeCharsFrom (modeBehind mode first) (number + first.length) second := by
  induction first generalizing mode number with
  | nil => rfl
  | cons line rest ih =>
    simp [codeCharsFrom, ih, Nat.add_comm 1, Nat.add_assoc]

theorem nesting?_append (depth : Nat) (first second : Text) :
    nesting? depth (first ++ second) =
      (nesting? depth first).bind fun later => nesting? later second := by
  fun_induction nesting? depth first <;> simp_all [nesting?]

/-- More enclosing braces make no difference but in number. -/
theorem nesting?_add {depth later : Nat} {chars : Text} (h : nesting? depth chars = some later)
    (outer : Nat) : nesting? (depth + outer) chars = some (later + outer) := by
  fun_induction nesting? depth chars with
  | case1 => simp_all [nesting?]
  | case2 depth rest ih =>
    have := ih h
    rw [Nat.add_right_comm] at this
    simpa [nesting?] using this
  | case3 => simp at h
  | case4 rest _ inner ih =>
    have := ih h
    simpa [nesting?, Nat.add_right_comm] using this
  | case5 depth c rest h1 h2 ih => simpa [nesting?, h1, h2] using ih h

/-- Characters other than braces do not count. -/
theorem nesting?_of_noBrace {chars : Text} (h : ∀ c ∈ chars, c ≠ '{' ∧ c ≠ '}')
    (depth : Nat) : nesting? depth chars = some depth := by
  induction chars with
  | nil => rfl
  | cons c rest ih =>
    have hc := h c List.mem_cons_self
    simp [nesting?, hc, ih fun d hd => h d (List.mem_cons_of_mem _ hd)]

namespace Nests

variable {depth later : Nat} {lines : List Text}

theorem nil (depth : Nat) : Nests depth [] depth := ⟨rfl, rfl⟩

theorem append {middle : Nat} {others : List Text} (h : Nests depth lines middle)
    (h' : Nests middle others later) : Nests depth (lines ++ others) later where
  mode := by rw [modeBehind_append, h.mode, h'.mode]
  depth := by rw [codeText_append, nesting?_append, h.depth, h.mode]; exact h'.depth

theorem cons {middle : Nat} {line : Text} (h : Nests depth [line] middle)
    (h' : Nests middle lines later) : Nests depth (line :: lines) later :=
  h.append h'

theorem add (h : Nests depth lines later) (outer : Nat) :
    Nests (depth + outer) lines (later + outer) :=
  ⟨h.mode, nesting?_add h.depth outer⟩

/-- What is closed is so at every depth. -/
theorem of_zero (h : Nests 0 lines 0) (depth : Nat) : Nests depth lines depth := by
  simpa using h.add depth

/-- Lines that leave the depth as it is, one after the other. -/
theorem flatMap {α : Type} {items : List α} {shown : α → List Text}
    (h : ∀ item ∈ items, Nests depth (shown item) depth) :
    Nests depth (items.flatMap shown) depth := by
  induction items with
  | nil => exact .nil depth
  | cons item rest ih =>
    rw [List.flatMap_cons]
    exact (h item List.mem_cons_self).append
      (ih fun other hother => h other (List.mem_cons_of_mem _ hother))

/-- A line of plain characters and literals counts by its plain characters. -/
theorem of_reads {line chars : Text} (h : Reads [] line chars)
    (hdepth : nesting? depth chars = some later) : Nests depth [line] later where
  mode := h.lineEnd_eq
  depth := by simpa [h.lineChars_eq] using hdepth

/-- An empty line. -/
theorem blank (depth : Nat) : Nests depth [[]] depth :=
  of_reads (.done []) rfl

end Nests

/-- Leaving the block that encloses some lines is left to what follows them. -/
theorem closingBrace?_append {depth later : Nat} {chars : List CodeChar}
    (h : nesting? depth (chars.map (·.char)) = some later) (rest : List CodeChar) :
    closingBrace? depth (chars ++ rest) = closingBrace? later rest := by
  induction chars generalizing depth with
  | nil =>
    cases h
    rfl
  | cons c others ih =>
    rw [List.map_cons] at h
    rw [List.cons_append]
    by_cases hopen : c.char = '{'
    · simp only [nesting?, closingBrace?, hopen, if_true] at h ⊢
      exact ih h
    by_cases hclose : c.char = '}'
    · cases depth with
      | zero => simp [nesting?, hclose] at h
      | succ outer =>
        simp only [nesting?, closingBrace?, hclose, if_true] at h ⊢
        exact ih h
    · simp only [nesting?, closingBrace?, hopen, hclose, if_false] at h ⊢
      exact ih h

/-- Where a closing brace is found, it is found whatever follows. -/
theorem closingBrace?_append_left {depth : Nat} {chars : List CodeChar} {c : CodeChar}
    (h : closingBrace? depth chars = some c) (others : List CodeChar) :
    closingBrace? depth (chars ++ others) = some c := by
  fun_induction closingBrace? depth chars <;> simp_all [closingBrace?]

end EditorScript
