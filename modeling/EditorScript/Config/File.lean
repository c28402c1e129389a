import EditorScript.Config.Basic
import EditorScript.Text.Indentation

/-!
# Configuration files

A configuration file holds nested mappings: `key: value` lines whose indentation
tells what belongs to what, and values in brackets, in quotes or plain.  A file
of any other form counts as empty.
-/

namespace EditorScript

namespace ConfigFile

/-- A line with something on it: its margin and the text behind that. -/
structure Entry where
  margin : Nat
  content : Text

/-- The line without a comment.  A comment starts with `#` at the start of the
line or behind white space, outside quotes. -/
def withoutComment (quote : Option Char) (afterBlank : Bool) : Text → Text
  | [] => []
  | c :: rest =>
    match quote with
    | some q => c :: withoutComment (if c = q then none else quote) false rest
    | none =>
      if c = '#' ∧ afterBlank then []
      else c :: withoutComment (if c = '"' ∨ c = '\'' then some c else none) (isBlank c) rest

/-- The lines that hold something besides white space and comments. -/
def linesOf (text : Text) : List Entry :=
  text.lines.filterMap fun line =>
    let content := withoutComment none true line
    if Text.blank content then none else some ⟨Text.margin content, Text.trim content⟩

/-- A plain value: null, a truth value, a number or else a text. -/
def plain (text : Text) : Json :=
  let word := String.ofList text
  if ["", "~", "null", "Null", "NULL"].contains word then .null
  else if ["true", "True", "TRUE", "yes", "Yes", "YES", "on", "On", "ON"].contains word then
    .bool true
  else if ["false", "False", "FALSE", "no", "No", "NO", "off", "Off", "OFF"].contains word then
    .bool false
  else
    match readInt? text with
    | some value => .int value
    | none =>
      if text.contains '.' then
        match readDecimal? text with
        | some value => .number value
        | none => .string text
      else .string text

/-- The characters that end a plain value in brackets. -/
def endsPlain (c : Char) : Bool := [',', ']', '\x7d', ':', '[', '\x7b'].contains c

/-- A text in quotes up to the closing quote, and what follows. -/
def quoted? (quote : Char) : Text → Option (Text × Text)
  | [] => none
  | c :: rest =>
    if c = quote then some ([], rest)
    else (quoted? quote rest).map fun (content, behind) => (c :: content, behind)

mutual

/-- A value in brackets, in quotes or plain, and what follows it. -/
def inline? : Nat → Text → Option (Json × Text)
  | 0, _ => none
  | fuel + 1, text =>
    match Text.trimLeft text with
    | '[' :: rest => (items? fuel rest).map fun (items, behind) => (.array items, behind)
    | '\x7b' :: rest => (pairs? fuel rest).map fun (pairs, behind) => (.object pairs, behind)
    | '"' :: rest => (quoted? '"' rest).map fun (content, behind) => (.string content, behind)
    | '\'' :: rest => (quoted? '\'' rest).map fun (content, behind) => (.string content, behind)
    | rest =>
      some (plain (Text.trim (rest.takeWhile (!endsPlain ·))), rest.dropWhile (!endsPlain ·))

/-- Values up to the closing bracket. -/
def items? : Nat → Text → Option (List Json × Text)
  | 0, _ => none
  | fuel + 1, text =>
    match Text.trimLeft text with
    | ']' :: behind => some ([], behind)
    | rest =>
      match inline? fuel rest with
      | none => none
      | some (item, behind) =>
        match Text.trimLeft behind with
        | ']' :: behind => some ([item], behind)
        | ',' :: behind => (items? fuel behind).map fun (items, rest) => (item :: items, rest)
        | _ => none

/-- Keys with values up to the closing brace. -/
def pairs? : Nat → Text → Option (List (Text × Json) × Text)
  | 0, _ => none
  | fuel + 1, text =>
    match Text.trimLeft text with
    | '\x7d' :: behind => some ([], behind)
    | rest =>
      match inline? fuel rest with
      | some (.string key, behind) =>
        match Text.trimLeft behind with
        | ':' :: behind =>
          match inline? fuel behind with
          | none => none
          | some (value, behind) =>
            match Text.trimLeft behind with
            | '\x7d' :: behind => some ([(key, value)], behind)
            | ',' :: behind =>
              (pairs? fuel behind).map fun (pairs, rest) =>
                (if (pairs.lookup key).isSome then pairs else (key, value) :: pairs, rest)
            | _ => none
        | _ => none
      | _ => none

end

/-- A value that takes up a whole text. -/
def wholeValue? (text : Text) : Option Json :=
  match text with
  | '[' :: _ | '\x7b' :: _ | '"' :: _ | '\'' :: _ =>
    match inline? (text.length + 1) text with
    | some (value, behind) => if Text.blank behind then some value else none
    | none => none
  | _ => some (plain text)

/-- The key of a line and what stands behind its colon. -/
def keyed? (content : Text) : Option (Text × Text) :=
  match Text.cutAt? ":" content with
  | some (key, behind) =>
    let isPlain := !Text.blank key && !key.head?.any (['[', '\x7b', '"', '\''].contains ·)
    let isApart := behind.isEmpty || behind.head?.any isBlank
    if isPlain && isApart then some (Text.trim key, Text.trim behind) else none
  | none => none

/-- The entries at one margin, and the lines behind them. -/
def mapping? : Nat → Nat → List Entry → Option (List (Text × Json) × List Entry)
  | 0, _, _ => none
  | _ + 1, _, [] => some ([], [])
  | fuel + 1, margin, entry :: rest =>
    if entry.margin < margin then some ([], entry :: rest)
    else if entry.margin > margin then none
    else
      match keyed? entry.content with
      | none => none
      | some (key, behind) =>
        let value? : Option (Json × List Entry) :=
          if behind.isEmpty then
            match rest with
            | next :: _ =>
              if next.margin > margin then
                (mapping? fuel next.margin rest).map fun (pairs, others) => (.object pairs, others)
              else some (.null, rest)
            | [] => some (.null, rest)
          else (wholeValue? behind).map fun value => (value, rest)
        match value? with
        | none => none
        | some (value, others) =>
          (mapping? fuel margin others).map fun (pairs, behind) =>
            (if (pairs.lookup key).isSome then pairs else (key, value) :: pairs, behind)

/-- The value of a file; nothing when its form is not understood. -/
def value? (text : Text) : Option Json :=
  match linesOf text with
  | [] => some .null
  | [only] =>
    match keyed? only.content with
    | some _ => (mapping? 3 only.margin [only]).map fun (pairs, _) => .object pairs
    | none => wholeValue? only.content
  | first :: rest =>
    match mapping? (2 * (first :: rest).length + 1) first.margin (first :: rest) with
    | some (pairs, []) => some (.object pairs)
    | _ => none

end ConfigFile

/-- The configuration in the text of a file. -/
def Config.ofText (text : Text) : Config :=
  .ofValue ((ConfigFile.value? text).getD .null)

end EditorScript
