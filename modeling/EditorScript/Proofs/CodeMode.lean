import EditorScript.Source.Block
import EditorScript.Source.Quoted
import Mathlib.Tactic.Common

/-!
# Reading a line in code mode

Most lines are plain characters with string literals between them.  Such a line
is read from code mode to code mode, and its code characters are exactly the
plain ones: whatever a written literal stands for, no character of it is code.
The only context that counts is an `@` among the two characters in front of a
quote.
-/

namespace EditorScript

/-- A character that keeps code mode whatever stands around it. -/
def isPlain (c : Char) : Bool :=
  c != '/' && c != '"' && c != '\''

/-- Behind these characters, the nearest one first, a quote opens a string
literal and not a verbatim one. -/
def Calm (passed : Text) : Prop :=
  '@' ∉ passed.take 2

instance (passed : Text) : Decidable (Calm passed) :=
  inferInstanceAs (Decidable ('@' ∉ passed.take 2))

/-- A piece of a line behind `passed` that is plain characters, the code
characters `chars`, and string literals. -/
inductive Reads : Text → Text → Text → Prop
  | done (passed : Text) : Reads passed [] []
  | plain {passed rest chars : Text} {c : Char} :
      isPlain c → Reads (c :: passed) rest chars → Reads passed (c :: rest) (c :: chars)
  | quoted {passed rest chars : Text} (content : Text) :
      Calm passed → Reads ((quote content).reverse ++ passed) rest chars →
        Reads passed (quote content ++ rest) chars

/-- The code characters of a line that starts in the given mode. -/
def lineChars (mode : Mode) (line : Text) : Text :=
  (codeColumns mode line).map (·.2)

theorem Mode.next_code_of_isPlain {c : Char} (h : isPlain c) (passed : Text)
    (following : Option Char) : Mode.code.next passed c following = .code := by
  simp only [isPlain, Bool.and_eq_true, bne_iff_ne, ne_eq] at h
  simp [Mode.next, h]

theorem Mode.next_code_quote {passed : Text} (h : Calm passed) (following : Option Char) :
    Mode.code.next passed '"' following = .string := by
  simp only [Calm] at h
  simp [Mode.next, h]

theorem quote_eq (content : Text) : quote content = '"' :: (escape content ++ ['"']) := rfl

@[simp]
theorem escape_nil : escape [] = [] := rfl

@[simp]
theorem escape_cons (c : Char) (rest : Text) :
    escape (c :: rest) = escapeChar c ++ escape rest := by
  simp [escape]

/-- A written character takes string mode to string mode. -/
private theorem modeAfter_escapeChar (c : Char) (passed rest : Text) :
    modeAfter .string passed (escapeChar c ++ rest) =
      modeAfter .string ((escapeChar c).reverse ++ passed) rest := by
  unfold escapeChar
  split_ifs with h1 h2 h3 h4 <;> simp [modeAfter, Mode.next, *]

private theorem codeColumnsFrom_escapeChar (c : Char) (passed : Text) (column : Nat)
    (rest : Text) :
    codeColumnsFrom .string passed column (escapeChar c ++ rest) =
      codeColumnsFrom .string ((escapeChar c).reverse ++ passed)
        (column + (escapeChar c).length) rest := by
  unfold escapeChar
  split_ifs with h1 h2 h3 h4 <;> simp [codeColumnsFrom, Mode.next, Nat.add_assoc, *]

private theorem modeAfter_escape (content passed rest : Text) :
    modeAfter .string passed (escape content ++ '"' :: rest) =
      modeAfter .code ('"' :: ((escape content).reverse ++ passed)) rest := by
  induction content generalizing passed with
  | nil => simp [modeAfter, Mode.next]
  | cons c others ih =>
    rw [escape_cons, List.append_assoc, modeAfter_escapeChar, ih]
    simp

private theorem codeColumnsFrom_escape (content passed : Text) (column : Nat) (rest : Text) :
    codeColumnsFrom .string passed column (escape content ++ '"' :: rest) =
      codeColumnsFrom .code ('"' :: ((escape content).reverse ++ passed))
        (column + (escape content).length + 1) rest := by
  induction content generalizing passed column with
  | nil => simp [codeColumnsFrom, Mode.next]
  | cons c others ih =>
    rw [escape_cons, List.append_assoc, codeColumnsFrom_escapeChar, ih]
    simp [Nat.add_assoc]

/-- A written literal takes code mode to code mode. -/
theorem modeAfter_quote {passed : Text} (h : Calm passed) (content rest : Text) :
    modeAfter .code passed (quote content ++ rest) =
      modeAfter .code ((quote content).reverse ++ passed) rest := by
  rw [quote_eq, List.cons_append, List.append_assoc, modeAfter, Mode.next_code_quote h]
  simpa using modeAfter_escape content ('"' :: passed) rest

/-- No character of a written literal is code. -/
theorem codeColumnsFrom_quote {passed : Text} (h : Calm passed) (content : Text) (column : Nat)
    (rest : Text) :
    codeColumnsFrom .code passed column (quote content ++ rest) =
      codeColumnsFrom .code ((quote content).reverse ++ passed)
        (column + (quote content).length) rest := by
  rw [quote_eq, List.cons_append, List.append_assoc, codeColumnsFrom]
  simp only [Mode.next_code_quote h, reduceCtorEq, and_false, if_false]
  have hescape := codeColumnsFrom_escape content ('"' :: passed) (column + 1) rest
  simp only [List.length_cons, List.length_append, List.length_nil, List.reverse_cons,
    List.reverse_append, List.reverse_nil, List.nil_append,
    List.append_assoc, List.cons_append] at hescape ⊢
  rw [hescape]
  congr 1
  omega

namespace Reads

/-- A piece that is read leads from code mode to code mode. -/
theorem modeAfter_append {passed piece chars : Text} (h : Reads passed piece chars)
    (rest : Text) :
    modeAfter .code passed (piece ++ rest) =
      modeAfter .code (piece.reverse ++ passed) rest := by
  induction h with
  | done => rfl
  | plain hc _ ih => simp [modeAfter, Mode.next_code_of_isPlain hc, ih]
  | quoted content hcalm _ ih => rw [List.append_assoc, modeAfter_quote hcalm, ih]; simp

/-- The code characters of a piece that is read are its plain ones. -/
theorem codeColumnsFrom_append {passed piece chars : Text} (h : Reads passed piece chars)
    (column : Nat) (rest : Text) :
    (codeColumnsFrom .code passed column (piece ++ rest)).map (·.2) =
      chars ++ (codeColumnsFrom .code (piece.reverse ++ passed) (column + piece.length)
        rest).map (·.2) := by
  induction h generalizing column with
  | done => simp
  | plain hc _ ih =>
    simp [codeColumnsFrom, Mode.next_code_of_isPlain hc, ih, Nat.add_comm 1, Nat.add_assoc]
  | quoted content hcalm _ ih =>
    rw [List.append_assoc, codeColumnsFrom_quote hcalm, ih]
    simp [Nat.add_assoc]

theorem append {passed first second chars others : Text} (h : Reads passed first chars)
    (h' : Reads (first.reverse ++ passed) second others) :
    Reads passed (first ++ second) (chars ++ others) := by
  induction h with
  | done => exact h'
  | plain hc _ ih => exact .plain hc (ih (by simpa using h'))
  | quoted content hcalm _ ih =>
    rw [List.append_assoc]
    exact .quoted content hcalm (ih (by simpa using h'))

/-- Plain characters are read as they are. -/
theorem of_plain {text : Text} (h : text.all isPlain) (passed : Text) :
    Reads passed text text := by
  induction text generalizing passed with
  | nil => exact .done _
  | cons c rest ih =>
    simp only [List.all_cons, Bool.and_eq_true] at h
    exact .plain h.1 (ih h.2 _)

theorem lineEnd_eq {line chars : Text} (h : Reads [] line chars) :
    lineEnd .code line = .code := by
  have := h.modeAfter_append []
  rw [List.append_nil] at this
  rw [lineEnd, this]
  rfl

theorem lineChars_eq {line chars : Text} (h : Reads [] line chars) :
    lineChars .code line = chars := by
  have := h.codeColumnsFrom_append 0 []
  rw [List.append_nil] at this
  simpa [lineChars, codeColumns, codeColumnsFrom] using this

end Reads

private theorem modeAfter_lineComment (passed text : Text) :
    modeAfter .lineComment passed text = .lineComment := by
  induction text generalizing passed with
  | nil => rfl
  | cons c rest ih => exact ih _

theorem codeColumnsFrom_lineComment (passed text : Text) (column : Nat) :
    codeColumnsFrom .lineComment passed column text = [] := by
  induction text generalizing passed column with
  | nil => rfl
  | cons c rest ih => simpa [codeColumnsFrom, Mode.next] using ih _ _

namespace Reads

/-- A comment at the end of a line ends with the line. -/
theorem lineEnd_comment {line chars : Text} (h : Reads [] line chars) (comment : Text) :
    lineEnd .code (line ++ '/' :: '/' :: comment) = .code := by
  rw [lineEnd, h.modeAfter_append]
  simp [modeAfter, Mode.next, modeAfter_lineComment, Mode.atLineBreak]

/-- No character of a comment is code. -/
theorem lineChars_comment {line chars : Text} (h : Reads [] line chars) (comment : Text) :
    lineChars .code (line ++ '/' :: '/' :: comment) = chars := by
  rw [lineChars, codeColumns, h.codeColumnsFrom_append]
  simp [codeColumnsFrom, Mode.next, codeColumnsFrom_lineComment]

end Reads

end EditorScript
