import EditorScript.Json.Value
import EditorScript.Number.Layout
import EditorScript.Number.Reading
import EditorScript.Recovery.Gate

/-!
# Configuration

A configuration is a tree of named values.  Whatever is missing or null takes
the default of the place that asks.
-/

namespace EditorScript

/-- Why a configured value cannot be used. -/
inductive ConfigError where
  /-- A value of a kind that does not fit. -/
  | wrongType
  /-- A text that is no number, or a number that is none. -/
  | unreadableNumber
  /-- A number that is too large. -/
  | tooLarge
deriving DecidableEq, Repr

/-- A configuration; `root` is an object. -/
structure Config where
  root : Json := .object []

namespace Config

mutual

/-- The value as a configuration file would hold it: a number that is written
without a point, but not as a whole one, counts as a text there. -/
def asWritten : Json → Json
  | .number value =>
    let text := codeLayout.text value
    if text.contains '.' then .number value else .string text
  | .array items => .array (itemsAsWritten items)
  | .object entries => .object (entriesAsWritten entries)
  | value => value

/-- The same for the items of an array. -/
def itemsAsWritten : List Json → List Json
  | [] => []
  | item :: items => asWritten item :: itemsAsWritten items

/-- The same for the entries of an object. -/
def entriesAsWritten : List (Text × Json) → List (Text × Json)
  | [] => []
  | (key, value) :: entries => (key, asWritten value) :: entriesAsWritten entries

end

/-- The configuration that a value stands for: an empty one unless it is an object. -/
def ofValue : Json → Config
  | .object entries => ⟨asWritten (.object entries)⟩
  | _ => ⟨.object []⟩

/-- The configuration that the program brings along. -/
def shipped : Config := ⟨.object
  [("parser", .object
      [("quality_gate", .object
        [("max_opaque_ratio", .number (.ofRatio false 1 2)),
          ("small_body_max_elements", .int 3)])]),
    ("generator", .object [("indent_width", .int 4)]),
    ("server", .object [("host", .string "127.0.0.1"), ("port", .int 9010)])]⟩

/-- What stands under a path of keys; nothing when it is missing or null. -/
def value? (config : Config) (path : List Text) : Option Json :=
  match path.foldlM (fun node key => Json.get? key node) config.root with
  | some .null | none => none
  | some value => some value

/-- What stands under a path of keys, or the default. -/
def valueOr (config : Config) (path : List Text) (missing : Json) : Json :=
  (config.value? path).getD missing

/-- Number of blanks per level of generated code.  A negative number counts as
none. -/
def indentWidth (config : Config) : Except ConfigError Nat :=
  match config.value? ["generator", "indent_width"] with
  | none => .ok 4
  | some (.int width) => .ok width.toNat
  | some (.bool width) => .ok width.toNat
  | some _ => .error .wrongType

/-- A configured number. -/
def number : Json → Except ConfigError Binary64
  | .number value => .ok value
  | .int value =>
    let nearest := Binary64.ofInt value
    if nearest.isFinite then .ok nearest else .error .tooLarge
  | .bool value => .ok (.ofInt value.toInt)
  | .string text =>
    match readLooseNumber? text with
    | some value => .ok value
    | none => .error .unreadableNumber
  | _ => .error .wrongType

/-- A configured whole number; what stands behind a point is cut off. -/
def whole : Json → Except ConfigError Int
  | .int value => .ok value
  | .bool value => .ok value.toInt
  | .number value =>
    match value.toInt? with
    | some whole => .ok whole
    | none => .error (if value.isNaN then .unreadableNumber else .tooLarge)
  | .string text =>
    match readLooseInt? text with
    | some value => .ok value
    | none => .error .unreadableNumber
  | _ => .error .wrongType

/-- The configured quality gate. -/
def gate (config : Config) : Except ConfigError Gate := do
  let missing : Gate := {}
  let maxOpaqueRatio ←
    number (config.valueOr ["parser", "quality_gate", "max_opaque_ratio"]
      (.number missing.maxOpaqueRatio))
  let smallBodyMaxElements ←
    whole (config.valueOr ["parser", "quality_gate", "small_body_max_elements"]
      (.int missing.smallBodyMaxElements))
  pure { maxOpaqueRatio, smallBodyMaxElements }

/-- The shipped configuration indents by four blanks. -/
theorem indentWidth_shipped : shipped.indentWidth = .ok 4 := rfl

end Config

end EditorScript
