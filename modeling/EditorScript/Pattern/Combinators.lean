import EditorScript.Pattern.Basic

/-!
# Building blocks of patterns

Literal text, character classes, repetition and the marks for the ends of a
text, of its lines and of its words.  A string stands for the pattern of its
own characters and `++` puts patterns behind each other.
-/

namespace EditorScript

namespace Pattern

/-- The characters of a text, one after the other. -/
def text : Text → Pattern
  | [] => empty
  | c :: rest => seq (one (· == c)) (text rest)

instance : Coe String Pattern := ⟨fun characters => text characters.toList⟩

instance : Append Pattern := ⟨seq⟩

/-- The first of several patterns that lets the whole match succeed. -/
def firstOf : List Pattern → Pattern
  | [] => check fun _ _ => false
  | [pattern] => pattern
  | pattern :: others => either pattern (firstOf others)

/-- The pattern or nothing, the pattern first. -/
def opt (pattern : Pattern) : Pattern := either pattern empty

/-- Any number of times, as often as possible first. -/
def many (pattern : Pattern) : Pattern := loop true pattern

/-- At least once, as often as possible first. -/
def many1 (pattern : Pattern) : Pattern := seq pattern (many pattern)

/-- Any number of times, as seldom as possible first. -/
def few (pattern : Pattern) : Pattern := loop false pattern

/-- At least once, as seldom as possible first. -/
def few1 (pattern : Pattern) : Pattern := seq pattern (few pattern)

/-- One of the characters of a string. -/
def oneOf (characters : String) : Pattern := one (characters.toList.contains ·)

/-- A character that a string does not hold. -/
def noneOf (characters : String) : Pattern := one (!characters.toList.contains ·)

/-- Any character but a newline. -/
def inLine : Pattern := one (· != '\n')

/-- Any character. -/
def any : Pattern := one fun _ => true

/-- White space, possibly none. -/
def blanks : Pattern := many (one isBlank)

/-- White space, at least one character. -/
def blanks1 : Pattern := many1 (one isBlank)

/-- Characters of a word, at least one. -/
def word : Pattern := many1 (one isWord)

/-- Words with points between and around them, at least one character. -/
def dotted : Pattern := many1 (one fun c => isWord c || c == '.')

/-- Decimal digits, at least one. -/
def digits : Pattern := many1 (one isDecimal)

/-- The start of the text. -/
def start : Pattern := check fun before _ => before.isNone

/-- The start of a line. -/
def lineStart : Pattern := check fun before _ => before.all (· == '\n')

/-- The end of the text, or the place before a newline that ends it. -/
def finish : Pattern := check fun _ after => after == [] || after == ['\n']

/-- The end of the text. -/
def ending : Pattern := check fun _ after => after.isEmpty

/-- The start or the end of a word. -/
def boundary : Pattern :=
  check fun before after => before.any isWord != after.head?.any isWord

/-- Matches a whole text. -/
def matchAll? (pattern : Pattern) (content : Text) : Option Position :=
  (pattern ++ ending).match? content

/-- The content of a string literal: no quote and no backslash unless a
backslash stands before it. -/
def literalContent : Pattern :=
  many (either (noneOf "\"\\") (seq "\\" inLine))

/-- A string literal whose content is captured. -/
def literal (name : String) : Pattern :=
  "\"" ++ capture name literalContent ++ "\""

/-- A call's name with its opening parenthesis and white space around that. -/
def opening (name : Pattern) : Pattern :=
  name ++ blanks ++ "(" ++ blanks

/-- The end of a call that is a statement of its own. -/
def closing : Pattern :=
  blanks ++ ")" ++ blanks ++ ";" ++ finish

/-- A comma with white space around it. -/
def comma : Pattern :=
  blanks ++ "," ++ blanks

end Pattern

end EditorScript
