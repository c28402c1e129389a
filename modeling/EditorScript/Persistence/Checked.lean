import EditorScript.Json.Value
import EditorScript.Persistence.Numeral
import EditorScript.Model.Vocabulary

/-!
# Checked values

Reading a value from JSON either succeeds or fails with a number of faults.
Parts of a value are read independently of each other, so the faults of all
parts add up.
-/

namespace EditorScript

/-- A value, or the number of faults found in place of one. -/
inductive Checked (α : Type) where
  | valid (value : α)
  | faulty (faults : Nat)
deriving DecidableEq, Repr

namespace Checked

/-- One fault. -/
def fault {α : Type} : Checked α := faulty 1

/-- The value, when there is one. -/
def ofOption {α : Type} : Option α → Checked α
  | some value => valid value
  | none => fault

def map {α β : Type} (f : α → β) : Checked α → Checked β
  | valid value => valid (f value)
  | faulty faults => faulty faults

/-- Two parts; the faults of both add up. -/
def both {α β : Type} : Checked (α → β) → Checked α → Checked β
  | valid f, valid value => valid (f value)
  | valid _, faulty faults => faulty faults
  | faulty faults, valid _ => faulty faults
  | faulty faults, faulty more => faulty (faults + more)

instance : Applicative Checked where
  pure := valid
  seq f value := both f (value ())
  map := map

end Checked

/-- How a saved project is handed over: as a JSON value, or as the text of one.
A whole number that is too large for the numbers of double precision counts as
infinite in a text and as a fault in a value. -/
inductive SavedForm where
  | value | text
deriving DecidableEq, Repr

namespace Json

/-- A string. -/
def toText : Json → Checked Text
  | string text => .valid text
  | _ => .fault

/-- A whole number: written as one, as a number without fraction, as a truth
value, or as a string of digits. -/
def toInt : Json → Checked Int
  | int value => .valid value
  | bool value => .valid value.toInt
  | number value =>
    if value.isWhole && value.abs.less (.ofInt (Nat.pow 2 63)) then .ofOption value.toInt?
    else .fault
  | string text => .ofOption (Numeral.whole? text)
  | _ => .fault

/-- A number: written as one, as a truth value, or as a string.  `form` decides
about a whole number beyond all others. -/
def toNumber (form : SavedForm) : Json → Checked Binary64
  | int value =>
    let nearest := Binary64.ofInt value
    if nearest.isFinite || form = .text then .valid nearest else .fault
  | number value => .valid value
  | bool value => .valid (.ofInt value.toInt)
  | string text => .ofOption (Numeral.number? text)
  | _ => .fault

/-- A truth value: written as one, as zero or one, or as one of the usual words. -/
def toBool : Json → Checked Bool
  | bool value => .valid value
  | int value => .ofOption (if value = 1 then some true else if value = 0 then some false else none)
  | number value =>
    .ofOption (if value = .ofInt 1 then some true
      else if value.code = 0 then some false else none)
  | string text =>
    let word := String.ofList (text.map Char.toLower)
    .ofOption (if ["true", "yes", "on", "t", "y", "1"].contains word then some true
      else if ["false", "no", "off", "f", "n", "0"].contains word then some false
      else none)
  | _ => .fault

/-- The written name of a member of a closed set. -/
def toNamed {α : Type} [Named α] : Json → Checked α
  | string text => .ofOption (Named.ofName? text)
  | _ => .fault

/-- Every item read on its own. -/
def itemsOf {α : Type} (read : Json → Checked α) : List Json → Checked (List α)
  | [] => .valid []
  | item :: items => List.cons <$> read item <*> itemsOf read items

/-- A list. -/
def toList {α : Type} (read : Json → Checked α) : Json → Checked (List α)
  | array items => itemsOf read items
  | _ => .fault

/-- A value that may be null. -/
def toOption {α : Type} (read : Json → Checked α) : Json → Checked (Option α)
  | null => .valid none
  | value => some <$> read value

/-- An entry of an object that has to be there. -/
def required {α : Type} (key : Text) (read : Json → Checked α) (value : Json) : Checked α :=
  match value.get? key with
  | some entry => read entry
  | none => .fault

/-- An entry of an object, or what stands for a missing one. -/
def entryOr {α : Type} (key : Text) (missing : α) (read : Json → Checked α) (value : Json) :
    Checked α :=
  match value.get? key with
  | some entry => read entry
  | none => .valid missing

/-- An entry that may be missing or null. -/
def optional {α : Type} (key : Text) (read : Json → Checked α) (value : Json) :
    Checked (Option α) :=
  value.entryOr key none (toOption read)

end Json

end EditorScript
