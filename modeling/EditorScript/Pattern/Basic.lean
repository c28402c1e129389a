import EditorScript.Text.Basic

/-!
# Patterns

A pattern describes the shape of a piece of text.  It is matched at a position
by trying its alternatives in order and undoing choices that lead nowhere, so
among several ways to match the first one in that order counts:

* the first part of `either` comes before the second;
* a greedy `loop` takes as many rounds as it can and gives them back one by one,
  a lazy one takes as few as it can.

`matchAt` tries one position, `search` the positions of a text from left to
right, and `findAll` collects the matches that do not overlap.
-/

namespace EditorScript

/-- A place inside a text during matching: the character before it, the text
after it, and what the named parts have captured so far, the latest first. -/
structure Position where
  before : Option Char
  after : Text
  captures : List (String × Text)

inductive Pattern where
  /-- Matches at every place and consumes nothing. -/
  | empty
  /-- One character of a class. -/
  | one (accepts : Char → Bool)
  | seq (first second : Pattern)
  | either (first second : Pattern)
  /-- Any number of rounds of a pattern that consumes something. -/
  | loop (greedy : Bool) (body : Pattern)
  /-- Remembers the matched text under a name. -/
  | capture (name : String) (body : Pattern)
  /-- The text that was captured last under a name. -/
  | same (name : String)
  /-- A condition on the neighbourhood of a place; consumes nothing. -/
  | check (holds : Option Char → Text → Bool)

/-- The text captured last under a name. -/
def Position.captured? (position : Position) (name : String) : Option Text :=
  position.captures.lookup name

/-- The text captured last under a name; empty when there is none. -/
def Position.captured (position : Position) (name : String) : Text :=
  (position.captured? name).getD []

/-- The position behind `text`, when that is what follows. -/
def Position.skip? (position : Position) (text : Text) : Option Position :=
  if position.after.startsWith text then
    some { position with
      before := text.getLast?.or position.before
      after := position.after.drop text.length }
  else none

/-- The text between a position and a later one. -/
def Position.upTo (position later : Position) : Text :=
  position.after.take (position.after.length - later.after.length)

namespace Pattern

variable {β : Type}

/-- At most `rounds` rounds of `body`, then `next`. -/
def rounds (greedy : Bool) (body : (Position → Option β) → Position → Option β)
    (next : Position → Option β) : Nat → Position → Option β
  | 0, position => next position
  | more + 1, position =>
    if greedy then
      (body (rounds greedy body next more) position).or (next position)
    else
      (next position).or (body (rounds greedy body next more) position)

/-- The first result of `next` over the ways to match a pattern at a position.
A round of a loop consumes at least one character, so as many rounds as there
are characters left are enough. -/
def run : Pattern → (Position → Option β) → Position → Option β
  | empty, next, position => next position
  | one accepts, next, position =>
    match position.after with
    | [] => none
    | c :: rest =>
      if accepts c then next { position with before := some c, after := rest } else none
  | seq first second, next, position => first.run (second.run next) position
  | either first second, next, position =>
    (first.run next position).or (second.run next position)
  | loop greedy body, next, position =>
    rounds greedy (fun following place => body.run following place) next
      position.after.length position
  | capture name body, next, position =>
    body.run (fun later =>
      next { later with captures := (name, position.upTo later) :: later.captures }) position
  | same name, next, position =>
    ((position.captured? name).bind position.skip?).bind next
  | check holds, next, position =>
    if holds position.before position.after then next position else none

/-- The position behind the first way to match at the start of `text`, where
`before` is the character in front of it. -/
def matchAt (pattern : Pattern) (before : Option Char) (text : Text) : Option Position :=
  pattern.run some ⟨before, text, []⟩

/-- Matches at the start of a text. -/
def match? (pattern : Pattern) (text : Text) : Option Position :=
  pattern.matchAt none text

/-- Whether the pattern matches at the start of a text. -/
def accepts (pattern : Pattern) (text : Text) : Bool :=
  (pattern.match? text).isSome

/-- The first match at or after the start of `text`: the text in front of it
and the position behind it. -/
def searchFrom (pattern : Pattern) (before : Option Char) (text : Text) :
    Option (Text × Position) :=
  match pattern.matchAt before text with
  | some position => some ([], position)
  | none =>
    match text with
    | [] => none
    | c :: rest =>
      (searchFrom pattern (some c) rest).map fun (skipped, position) => (c :: skipped, position)

/-- The position behind the first match inside a text. -/
def search? (pattern : Pattern) (text : Text) : Option Position :=
  (pattern.searchFrom none text).map (·.2)

/-- Whether the pattern matches anywhere in a text. -/
def occurs (pattern : Pattern) (text : Text) : Bool :=
  (pattern.search? text).isSome

/-- The matches inside a text from left to right, each one behind the last. -/
def findAllFrom (pattern : Pattern) (before : Option Char) (text : Text) : List Position :=
  match pattern.searchFrom before text with
  | none => []
  | some (_, position) =>
    if position.after.length < text.length then
      position :: findAllFrom pattern position.before position.after
    else [position]
termination_by text.length

/-- The matches inside a text from left to right, each one behind the last. -/
def findAll (pattern : Pattern) (text : Text) : List Position :=
  pattern.findAllFrom none text

end Pattern

end EditorScript
