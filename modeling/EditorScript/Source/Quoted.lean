import EditorScript.Text.Basic

/-!
# String literals

`quote` writes a text as a string literal of one line, `unescape` reads the
content between the quotes back.  Main statement: `unescape` undoes `escape`.
-/

namespace EditorScript

/-- How one character is written inside a string literal. -/
def escapeChar (c : Char) : Text :=
  if c = '\\' then ['\\', '\\']
  else if c = '"' then ['\\', '"']
  else if c = '\n' then ['\\', 'n']
  else if c = '\t' then ['\\', 't']
  else [c]

/-- The content of the literal that stands for a text. -/
def escape (text : Text) : Text :=
  text.flatMap escapeChar

/-- The string literal that stands for a text. -/
def quote (text : Text) : Text :=
  "\"" ++ escape text ++ "\""

/-- The character that a backslash and the given one stand for. -/
def escapedChar (c : Char) : Char :=
  if c = 'n' then '\n'
  else if c = 't' then '\t'
  else if c = 'r' then '\r'
  else if c = '0' then '\x00'
  else c

/-- The text that the content of a literal stands for.  A backslash at the end
or in front of a newline stands for itself. -/
def unescape : Text → Text
  | [] => []
  | ['\\'] => ['\\']
  | '\\' :: c :: rest =>
    if c = '\n' then '\\' :: '\n' :: unescape rest else escapedChar c :: unescape rest
  | c :: rest => c :: unescape rest

@[simp]
theorem unescape_escapeChar_append (c : Char) (rest : Text) :
    unescape (escapeChar c ++ rest) = c :: unescape rest := by
  unfold escapeChar
  split
  · simp_all [unescape, escapedChar]
  · split
    · simp_all [unescape, escapedChar]
    · split
      · simp_all [unescape, escapedChar]
      · split
        · simp_all [unescape, escapedChar]
        · rename_i h _ _ _
          simp [unescape, h]

/-- Reading a written literal gives the text back. -/
@[simp]
theorem unescape_escape (text : Text) : unescape (escape text) = text := by
  induction text with
  | nil => rfl
  | cons c rest ih =>
    have h : escape (c :: rest) = escapeChar c ++ escape rest := by simp [escape]
    rw [h, unescape_escapeChar_append, ih]

end EditorScript
