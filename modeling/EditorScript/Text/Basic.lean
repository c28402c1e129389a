import EditorScript.Text.WordRanges

/-!
# Text as a sequence of characters

Source files, labels and code fragments are lists of characters, so every
reader recurses on the text itself and every column is a count of characters.

* `isBlank`, `isWord` and `isDecimal` are the character classes
  of the patterns: white space, letters with numbers and `_`, decimal digits.
* `lines` and `unlines` cut a text at its newlines and put it together again.
* `trim`, `trimLeft` and `trimRight` drop outer white space.
-/

namespace EditorScript

/-- A sequence of Unicode scalar values. -/
abbrev Text := List Char

instance : Coe String Text := ⟨String.toList⟩

/-- What holds of every character of a text is decided along the text. -/
instance (priority := high) Text.decidableForallMem (text : Text) (holds : Char → Prop)
    [DecidablePred holds] : Decidable (∀ c ∈ text, holds c) :=
  List.decidableBAll holds text

/-- What holds of the character at the end of a text is decided at that character. -/
instance (priority := high) Text.decidableForallEnd (last : Option Char) (holds : Char → Prop)
    [DecidablePred holds] : Decidable (∀ c ∈ last, holds c) :=
  last.decidableForallMem

/-- What holds of the characters of a literal holds of the literal.  The characters are at hand
that way, where computing them would decode the literal again. -/
theorem Text.literal {good : Text → Prop} {characters : List Char} (h : good characters) :
    good (String.ofList characters).toList := by
  rwa [String.toList_ofList]

/-- Whether a code point lies in one of the closed intervals. -/
def inRanges (ranges : List (Nat × Nat)) (code : Nat) : Bool :=
  ranges.any fun range => range.1 ≤ code && code ≤ range.2

/-- White space: the blanks of ASCII with its four separator controls, and the
space and line separators of Unicode. -/
def isBlank (c : Char) : Bool :=
  inRanges [(0x09, 0x0d), (0x1c, 0x20), (0x85, 0x85), (0xa0, 0xa0), (0x1680, 0x1680),
    (0x2000, 0x200a), (0x2028, 0x2029), (0x202f, 0x202f), (0x205f, 0x205f),
    (0x3000, 0x3000)] c.toNat

/-- A character of a word: a letter or a number of any script, or `_`. -/
def isWord (c : Char) : Bool :=
  if c.toNat < 128 then c.isAlphanum || c == '_' else inRanges wordRanges c.toNat

/-- The value of a decimal digit of any script. -/
def digitValue? (c : Char) : Option Nat :=
  if c.isDigit then some (c.toNat - '0'.toNat)
  else (digitRanges.find? fun range => range.1 ≤ c.toNat && c.toNat ≤ range.2).map
    fun range => (c.toNat - range.1) % 10

/-- A decimal digit of any script. -/
def isDecimal (c : Char) : Bool :=
  (digitValue? c).isSome

/-- Letters and digits without further scripts are ASCII characters. -/
theorem isAscii_of_isAlphanum {c : Char} (h : c.isAlphanum) : c.toNat < 128 := by
  delta Char.isAlphanum Char.isAlpha Char.isUpper Char.isLower Char.isDigit at h
  simp only [Bool.or_eq_true, Bool.and_eq_true, decide_eq_true_eq, UInt32.le_iff_toNat_le] at h
  have htoNat : c.toNat = c.val.toNat := rfl
  have hZ : 'Z'.val.toNat = 90 := rfl
  have hz : 'z'.val.toNat = 122 := rfl
  have h9 : '9'.val.toNat = 57 := rfl
  omega

/-- Among the ASCII characters a word holds letters, digits and `_` only. -/
theorem isWord_ascii {c : Char} (h : c.toNat < 128) :
    isWord c = (c.isAlphanum || c == '_') := by
  simp [isWord, h]

namespace Text

/-- The text without leading white space. -/
def trimLeft (text : Text) : Text :=
  text.dropWhile isBlank

/-- The text without the trailing characters of a class. -/
def dropRightWhile (accepts : Char → Bool) (text : Text) : Text :=
  (text.reverse.dropWhile accepts).reverse

/-- The text without trailing white space. -/
def trimRight (text : Text) : Text :=
  text.dropRightWhile isBlank

/-- The text without outer white space. -/
def trim (text : Text) : Text :=
  text.trimLeft.trimRight

/-- Whether the text holds nothing but white space. -/
def blank (text : Text) : Bool :=
  text.all isBlank

/-- The pieces of a text between the occurrences of a character, at least one. -/
def piecesAt (separator : Char) : Text → List Text
  | [] => [[]]
  | c :: rest =>
    if c = separator then [] :: piecesAt separator rest
    else match piecesAt separator rest with
      | [] => [[c]]
      | piece :: others => (c :: piece) :: others

/-- The lines of a text: the pieces between its newlines. -/
def lines (text : Text) : List Text :=
  text.piecesAt '\n'

/-- Pieces put together with a separator between neighbours. -/
def join (separator : Text) (pieces : List Text) : Text :=
  separator.intercalate pieces

/-- Lines put together with newlines between them. -/
def unlines (pieces : List Text) : Text :=
  join ['\n'] pieces

/-- Whether the text begins with the given one. -/
def startsWith (text start : Text) : Bool :=
  start.isPrefixOf text

/-- Whether the text ends with the given one. -/
def endsWith (text finish : Text) : Bool :=
  finish.isSuffixOf text

/-- The text cut at the first place where the given one begins: what stands
before it and what follows it. -/
def cutAt? (needle : Text) : Text → Option (Text × Text)
  | [] => if needle = [] then some ([], []) else none
  | c :: rest =>
    if startsWith (c :: rest) needle then some ([], (c :: rest).drop needle.length)
    else (cutAt? needle rest).map fun (before, after) => (c :: before, after)

/-- Whether the given text occurs somewhere. -/
def includes (text needle : Text) : Bool :=
  (cutAt? needle text).isSome

/-- The text with every carriage return before a newline dropped. -/
def withoutReturns : Text → Text
  | [] => []
  | '\r' :: '\n' :: rest => '\n' :: withoutReturns rest
  | c :: rest => c :: withoutReturns rest

/-- A text has at least one piece. -/
theorem piecesAt_ne_nil (separator : Char) (text : Text) : text.piecesAt separator ≠ [] := by
  cases text with
  | nil => simp [piecesAt]
  | cons c rest =>
    rw [piecesAt]
    split
    · simp
    · split <;> simp

/-- Cutting a text to pieces loses nothing. -/
@[simp]
theorem join_piecesAt (separator : Char) (text : Text) :
    join [separator] (text.piecesAt separator) = text := by
  induction text with
  | nil => rfl
  | cons c rest ih =>
    rw [piecesAt]
    split
    · rename_i h
      subst h
      cases hl : piecesAt c rest with
      | nil => exact absurd hl (piecesAt_ne_nil c rest)
      | cons piece others =>
        rw [hl] at ih
        simp [← ih, join, List.intercalate, List.intersperse]
    · split
      · rename_i h
        exact absurd h (piecesAt_ne_nil separator rest)
      · rename_i piece others h
        rw [h] at ih
        cases others <;> simp_all [join, List.intercalate, List.intersperse]

/-- A text without the separator is one piece. -/
theorem piecesAt_eq_singleton {separator : Char} {text : Text} (h : separator ∉ text) :
    text.piecesAt separator = [text] := by
  induction text with
  | nil => rfl
  | cons c rest ih =>
    simp only [List.mem_cons, not_or] at h
    rw [piecesAt, if_neg (Ne.symm h.1), ih h.2]

/-- No piece holds the separator. -/
theorem separator_notMem_of_mem_piecesAt {separator : Char} {text piece : Text}
    (h : piece ∈ text.piecesAt separator) : separator ∉ piece := by
  induction text generalizing piece with
  | nil => simp_all [piecesAt]
  | cons c rest ih =>
    rw [piecesAt] at h
    split at h
    · cases h with
      | head => simp
      | tail _ h => exact ih h
    · rename_i hc
      split at h
      · simp_all [Ne.symm hc]
      · rename_i first others heq
        rw [heq] at ih
        cases h with
        | head => simpa [Ne.symm hc] using ih List.mem_cons_self
        | tail _ h => exact ih (List.mem_cons_of_mem _ h)

/-- A text has at least one line. -/
theorem lines_ne_nil (text : Text) : text.lines ≠ [] :=
  piecesAt_ne_nil '\n' text

/-- Cutting at the newlines loses nothing. -/
@[simp]
theorem unlines_lines (text : Text) : unlines text.lines = text :=
  join_piecesAt '\n' text

/-- A text without newlines is one line. -/
theorem lines_eq_singleton {text : Text} (h : '\n' ∉ text) : text.lines = [text] :=
  piecesAt_eq_singleton h

/-- No line holds a newline. -/
theorem newline_notMem_of_mem_lines {text line : Text} (h : line ∈ text.lines) :
    '\n' ∉ line :=
  separator_notMem_of_mem_piecesAt h

end Text

end EditorScript
