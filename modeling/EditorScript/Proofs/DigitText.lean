import EditorScript.Number.Layout
import EditorScript.Number.Reading
import Mathlib.Tactic.Common

/-!
# Digits

A number written with decimal digits reads back as itself, as whole numbers with
and without a sign do.
-/

namespace EditorScript

theorem isDigit_of_mem_natText {n : Nat} {c : Char} (h : c ∈ natText n) : c.isDigit :=
  Nat.isDigit_of_mem_toDigits (by decide) (by decide) h

theorem natText_ne_nil (n : Nat) : natText n ≠ [] :=
  Nat.toDigits_ne_nil

theorem digitsValue_eq (digits : Text) :
    digitsValue digits = Nat.ofDigitChars 10 digits 0 :=
  Nat.ofDigitChars_eq_foldl.symm

/-- Reading written digits gives the number back. -/
@[simp]
theorem digitsValue_natText (n : Nat) : digitsValue (natText n) = n := by
  rw [digitsValue_eq]
  exact Nat.ofDigitChars_toDigits (by decide) (by decide)

theorem isDecimal_of_isDigit {c : Char} (h : c.isDigit) : isDecimal c := by
  simp [isDecimal, digitValue?, h]

/-- An ASCII digit is its own ASCII form. -/
theorem asciiDigit_of_isDigit {c : Char} (h : c.isDigit) :
    (digitValue? c).elim c Nat.digitChar = c := by
  have hdigit := h
  have hall : ∀ value : Fin 10, Nat.digitChar value = Char.ofNat (value + 48) := by decide
  simp only [Char.isDigit, Bool.and_eq_true, decide_eq_true_eq, UInt32.le_iff_toNat_le] at hdigit
  have htoNat : c.toNat = c.val.toNat := rfl
  have h0 : '0'.val.toNat = 48 := rfl
  have h9 : '9'.val.toNat = 57 := rfl
  have hvalue := hall ⟨c.toNat - 48, by omega⟩
  have hback : c.toNat - 48 + 48 = c.toNat := by omega
  simp only [hback, Char.ofNat_toNat] at hvalue
  simpa [digitValue?, h] using hvalue

/-- Characters that are their own ASCII forms make a text that is its own. -/
theorem asciiDigits_eq_self {text : Text}
    (h : ∀ c ∈ text, (digitValue? c).elim c Nat.digitChar = c) : asciiDigits text = text := by
  unfold asciiDigits
  conv_rhs => rw [← List.map_id text]
  exact List.map_congr_left h

theorem asciiDigits_of_isDigit {digits : Text} (h : ∀ c ∈ digits, c.isDigit) :
    asciiDigits digits = digits :=
  asciiDigits_eq_self fun c hc => asciiDigit_of_isDigit (h c hc)

@[simp]
theorem decimalValue_natText (n : Nat) : decimalValue (natText n) = n := by
  rw [decimalValue, asciiDigits_of_isDigit fun _ hc => isDigit_of_mem_natText hc,
    digitsValue_natText]

theorem intText_of_nonneg {value : Int} (h : 0 ≤ value) :
    intText value = natText value.natAbs := by
  rw [intText, if_neg (Int.not_lt.mpr h)]

end EditorScript
