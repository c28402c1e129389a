import EditorScript.Number.Binary64
import EditorScript.Text.Basic

/-!
# JSON values

Whole numbers and numbers with a point or an exponent are kept apart, because a
reader may accept one and refuse the other.
-/

namespace EditorScript

/-- A JSON value.  The keys of an object are pairwise distinct when it was read
from text. -/
inductive Json where
  | null
  | bool (value : Bool)
  | int (value : Int)
  | number (value : Binary64)
  | string (value : Text)
  | array (items : List Json)
  | object (entries : List (Text × Json))

namespace Json

instance : Inhabited Json := ⟨null⟩

/-- What an object holds under a key. -/
def get? (key : Text) : Json → Option Json
  | object entries => entries.lookup key
  | _ => none

/-- Whether the value counts as nothing: null, false, zero and everything empty. -/
def isFalsy : Json → Bool
  | null => true
  | bool value => !value
  | int value => value == 0
  | number value => value.code == 0
  | string value => value.isEmpty
  | array items => items.isEmpty
  | object entries => entries.isEmpty

mutual

/-- The value with null for every number that is not finite. -/
def withoutInfinities : Json → Json
  | number value => if value.isFinite then number value else null
  | array items => array (itemsWithoutInfinities items)
  | object entries => object (entriesWithoutInfinities entries)
  | value => value

/-- The same for the items of an array. -/
def itemsWithoutInfinities : List Json → List Json
  | [] => []
  | item :: items => item.withoutInfinities :: itemsWithoutInfinities items

/-- The same for the entries of an object. -/
def entriesWithoutInfinities : List (Text × Json) → List (Text × Json)
  | [] => []
  | (key, value) :: entries => (key, value.withoutInfinities) :: entriesWithoutInfinities entries

end

/-- The text, or null. -/
def optString : Option Text → Json
  | none => null
  | some text => string text

/-- A list of texts. -/
def strings (texts : List Text) : Json :=
  array (texts.map string)

end Json

end EditorScript
