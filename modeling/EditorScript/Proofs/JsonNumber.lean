import EditorScript.Json.Parser
import EditorScript.Json.Printer
import EditorScript.Proofs.NumberReading

/-!
# Numbers in JSON text

A finite number is read back from the text in which it is saved, with its sign even
when it is zero.  A whole number is read back when it has not too many digits, and
otherwise refused.
-/

namespace EditorScript

namespace Json

/-- A text of number characters that starts with a digit, perhaps behind a minus. -/
structure IsNumberText (text : Text) : Prop where
  chars : ∀ c ∈ text, isNumberChar c
  front : ∃ (negative : Bool) (c : Char) (rest : Text),
    text = (if negative then ['-'] else []) ++ c :: rest ∧ c.isDigit

theorem isNumberChar_of_isDigit {c : Char} (h : c.isDigit) : isNumberChar c := by
  simp [isNumberChar, h]

/-- Digits and what follows them, perhaps behind a minus. -/
theorem isNumberText_of_digits (negative : Bool) {digits tail : Text}
    (hdigits : ∀ c ∈ digits, c.isDigit) (hne : digits ≠ []) (htail : ∀ c ∈ tail, isNumberChar c) :
    IsNumberText ((if negative then ['-'] else []) ++ (digits ++ tail)) where
  chars := by
    refine List.forall_mem_append.mpr ⟨?_, List.forall_mem_append.mpr ⟨fun c hc => ?_, htail⟩⟩
    · cases negative <;> simp [isNumberChar]
    · exact isNumberChar_of_isDigit (hdigits c hc)
  front := by
    obtain ⟨c, others, rfl⟩ := List.exists_cons_of_ne_nil hne
    exact ⟨negative, c, others ++ tail, rfl, hdigits c List.mem_cons_self⟩

/-! ## The grammar of numbers -/

section Grammar

variable (maxDigits : Nat) (negative : Bool) {whole tail : Text}

/-- Digits alone are a whole number, unless they are too many. -/
theorem ofNumberText?_whole (hwhole : ∀ c ∈ whole, c.isDigit) (hne : whole ≠ [])
    (hplain : whole.head? = some '0' → whole.length = 1) :
    ofNumberText? maxDigits ((if negative then ['-'] else []) ++ whole) =
      if maxDigits < whole.length then none
      else (readInt? ((if negative then ['-'] else []) ++ whole)).map int := by
  obtain ⟨htake, hdrop⟩ := takeWhile_run hwhole [] (by simp)
  rw [List.append_nil] at htake hdrop
  obtain ⟨c, others, rfl⟩ := List.exists_cons_of_ne_nil hne
  have hminus : c ≠ '-' := by
    rintro rfl
    exact absurd (hwhole '-' List.mem_cons_self) (by decide)
  have hzero : ¬(0 < others.length ∧ c = '0') := by
    rintro ⟨hlong, rfl⟩
    have hone := hplain rfl
    rw [List.length_cons] at hone
    omega
  cases negative with
  | true => simp [ofNumberText?, htake, hdrop, hzero]
  | false => simp [ofNumberText?, htake, hdrop, hzero, hminus]

/-- Digits with a point and digits behind it, or with an exponent, are a number. -/
theorem ofNumberText?_decimal (hwhole : ∀ c ∈ whole, c.isDigit) (hne : whole ≠ [])
    (hplain : whole.head? = some '0' → whole.length = 1) (hlength : whole.length ≤ maxDigits)
    (htail : (∃ c rest, tail = '.' :: c :: rest ∧ c.isDigit) ∨ ∃ rest, tail = 'e' :: rest) :
    ofNumberText? maxDigits ((if negative then ['-'] else []) ++ (whole ++ tail)) =
      (readDecimal? ((if negative then ['-'] else []) ++ (whole ++ tail))).map number := by
  have hhead : ∀ c ∈ tail.head?, c.isDigit = false := by
    rcases htail with ⟨d, rest, rfl, -⟩ | ⟨rest, rfl⟩ <;> rintro c ⟨⟩ <;> decide
  obtain ⟨htake, hdrop⟩ := takeWhile_run hwhole tail hhead
  obtain ⟨c, others, rfl⟩ := List.exists_cons_of_ne_nil hne
  have hminus : c ≠ '-' := by
    rintro rfl
    exact absurd (hwhole '-' List.mem_cons_self) (by decide)
  have hzero : ¬(1 < (c :: others).length ∧ (c :: others).head? = some '0') := fun h =>
    absurd (hplain h.2) (by omega)
  rcases htail with ⟨d, rest, rfl, hd⟩ | ⟨rest, rfl⟩ <;> cases negative <;>
    simp_all [ofNumberText?]

end Grammar

/-! ## Saved numbers -/

theorem ofNumberText?_intText (maxDigits : Nat) (value : Int) :
    ofNumberText? maxDigits (intText value) =
      if maxDigits < (natText value.natAbs).length then none else some (int value) := by
  have hdigits : ∀ c ∈ natText value.natAbs, c.isDigit := fun c hc => isDigit_of_mem_natText hc
  have hplain : (natText value.natAbs).head? = some '0' → (natText value.natAbs).length = 1 := by
    intro hhead
    by_cases hzero : value.natAbs = 0
    · rw [hzero]
      rfl
    · exact absurd hhead (head?_natText_ne hzero)
  have hread : readInt? (intText value) = some value := by
    have hsign := splitSign_sign (value < 0) hdigits (natText_ne_nil _) []
    rw [List.append_nil, ← intText_eq] at hsign
    have hall : (natText value.natAbs).all Char.isDigit := List.all_eq_true.mpr hdigits
    have hempty : (natText value.natAbs).isEmpty = false := by simpa using natText_ne_nil _
    simp only [readInt?, hsign, hempty, hall, digitsValue_natText, Bool.not_true, Bool.or_self,
      Bool.false_eq_true, if_false, decide_eq_true_eq, Option.some.injEq]
    split <;> omega
  rw [intText_eq, ofNumberText?_whole maxDigits _ hdigits (natText_ne_nil _) hplain, ← intText_eq,
    hread]
  rfl

theorem isNumberText_intText (value : Int) : IsNumberText (intText value) := by
  have hshape := isNumberText_of_digits (value < 0)
    (fun c hc => isDigit_of_mem_natText (n := value.natAbs) hc) (natText_ne_nil _)
    (List.forall_mem_nil fun c => isNumberChar c)
  rwa [List.append_nil, ← intText_eq] at hshape

/-- Digits with an exponent, perhaps with a point between them. -/
theorem readDecimal?_exponent (negative below : Bool) {whole fraction power : Text}
    (hwhole : ∀ c ∈ whole, c.isDigit) (hne : whole ≠ []) (hfraction : ∀ c ∈ fraction, c.isDigit)
    (hpower : ∀ c ∈ power, c.isDigit) (hne' : power ≠ []) :
    readDecimal? ((if negative then ['-'] else []) ++ (whole ++
        ((if fraction.isEmpty then [] else '.' :: fraction) ++
          'e' :: (if below then '-' else '+') :: power))) =
      some (.ofDecimal negative (digitsValue (whole ++ fraction))
        ((if below then -(digitsValue power : Int) else digitsValue power) - fraction.length)) := by
  have hread : readInt? ((if below then '-' else '+') :: power) =
      some (if below then -(digitsValue power : Int) else digitsValue power) := by
    have hempty : power.isEmpty = false := by simpa using hne'
    have hall : power.all Char.isDigit := List.all_eq_true.mpr hpower
    cases below <;> simp [readInt?, splitSign, hempty, hall]
  have hexponent : readExponent? ('e' :: (if below then '-' else '+') :: power) =
      some (if below then -(digitsValue power : Int) else digitsValue power) := by
    rw [readExponent?, if_pos (.inl rfl), hread]
  have hempty : whole.isEmpty = false := by simpa using hne
  have he : ∀ c ∈ ('e' :: (if below then '-' else '+') :: power).head?, c.isDigit = false := by
    rintro c ⟨⟩
    decide
  cases hcase : fraction.isEmpty with
  | true =>
    obtain rfl : fraction = [] := List.isEmpty_iff.mp hcase
    obtain ⟨htake, hdrop⟩ := takeWhile_run hwhole _ he
    have hsign := splitSign_sign negative hwhole hne ('e' :: (if below then '-' else '+') :: power)
    simp [readDecimal?, hsign, htake, hdrop, hempty, hexponent]
  | false =>
    obtain ⟨htake, hdrop⟩ := takeWhile_run hwhole
      ('.' :: (fraction ++ 'e' :: (if below then '-' else '+') :: power)) (by rintro c ⟨⟩; decide)
    obtain ⟨htake', hdrop'⟩ := takeWhile_run hfraction _ he
    have hsign := splitSign_sign negative hwhole hne
      ('.' :: (fraction ++ 'e' :: (if below then '-' else '+') :: power))
    simp [readDecimal?, hsign, htake, hdrop, htake', hdrop', hempty, hexponent]

/-- A text that is read as a number. -/
structure Writes (text : Text) (value : Json) (maxDigits : Nat) : Prop where
  shape : IsNumberText text
  reads : ofNumberText? maxDigits text = some value

section Layout

variable (layout : NumberLayout) (negative : Bool) {maxDigits : Nat} {d : Decimal}

/-- A decimal that is written around its point. -/
theorem writes_aroundPoint (hmax : 16 ≤ maxDigits) (hd : d.digits ≠ 0)
    (hpower : layout.lowest ≤ d.leading ∧ d.leading < 16) :
    Writes ((if negative then ['-'] else []) ++ layout.decimal d)
      (number (.ofDecimal negative d.digits d.exponent)) maxDigits := by
  obtain ⟨whole, fraction, htext, hpoint⟩ := exists_aroundPoint layout hpower
  obtain ⟨c, others, rfl⟩ := List.exists_cons_of_ne_nil hpoint.fraction_ne_nil
  have hread := readDecimal?_point negative hpoint.wholeDigits hpoint.whole_ne_nil
    hpoint.fractionDigits
  have htail : ∀ e ∈ '.' :: c :: others, isNumberChar e := by
    refine List.forall_mem_cons.mpr ⟨by decide, fun e he => ?_⟩
    exact isNumberChar_of_isDigit (hpoint.fractionDigits e he)
  rw [htext]
  refine ⟨isNumberText_of_digits negative hpoint.wholeDigits hpoint.whole_ne_nil htail, ?_⟩
  rw [ofNumberText?_decimal maxDigits negative hpoint.wholeDigits hpoint.whole_ne_nil
    (hpoint.plain hd) (hpoint.width.trans hmax)
    (.inl ⟨c, others, rfl, hpoint.fractionDigits c List.mem_cons_self⟩), hread, hpoint.reads]
  rfl

/-- A decimal that is written with an exponent. -/
theorem writes_exponent (hmax : 16 ≤ maxDigits)
    (hpower : ¬(layout.lowest ≤ d.leading ∧ d.leading < 16)) :
    Writes ((if negative then ['-'] else []) ++ layout.decimal d)
      (number (.ofDecimal negative d.digits d.exponent)) maxDigits := by
  obtain ⟨first, behind, hdigits⟩ := List.exists_cons_of_ne_nil (natText_ne_nil d.digits)
  obtain ⟨power, hpadded⟩ : ∃ power, power = padded layout.exponentWidth
    (natText d.leading.natAbs) := ⟨_, rfl⟩
  have htext : layout.decimal d = [first] ++ ((if behind.isEmpty then [] else '.' :: behind) ++
      'e' :: (if decide (d.leading < 0) then '-' else '+') :: power) := by
    rw [NumberLayout.decimal]
    dsimp only
    rw [if_neg hpower, hdigits, hpadded]
    by_cases hbelow : d.leading < 0 <;> simp [hbelow]
  have hall : ∀ c ∈ first :: behind, c.isDigit := by
    rw [← hdigits]
    exact fun c hc => isDigit_of_mem_natText hc
  have hfirst : ∀ c ∈ [first], c.isDigit := by simpa using hall first List.mem_cons_self
  have hbehind : ∀ c ∈ behind, c.isDigit := fun c hc => hall c (List.mem_cons_of_mem _ hc)
  have hpowerDigits : ∀ c ∈ power, c.isDigit := by
    rw [hpadded, padded]
    refine List.forall_mem_append.mpr ⟨fun c hc => ?_, fun c hc => isDigit_of_mem_natText hc⟩
    rw [List.eq_of_mem_replicate hc]
    rfl
  have hpowerValue : digitsValue power = d.leading.natAbs := by
    rw [hpadded, padded, digitsValue_zeros_append, digitsValue_natText]
  have hpowerNe : power ≠ [] := by
    rw [hpadded, padded]
    exact List.append_ne_nil_of_right_ne_nil _ (natText_ne_nil _)
  have hread := readDecimal?_exponent negative (d.leading < 0) hfirst (by simp) hbehind
    hpowerDigits hpowerNe
  have hvalue : digitsValue ([first] ++ behind) = d.digits := by
    rw [List.singleton_append, ← hdigits, digitsValue_natText]
  have hexponent : (if decide (d.leading < 0) then -(d.leading.natAbs : Int)
      else d.leading.natAbs) - behind.length = d.exponent := by
    have hleading : d.leading = d.exponent + Binary64.digitCount d.digits - 1 := rfl
    have hcount : Binary64.digitCount d.digits = behind.length + 1 :=
      (congrArg List.length hdigits).trans (List.length_cons ..)
    simp only [decide_eq_true_eq]
    split <;> omega
  have htail : ∀ c ∈ (if behind.isEmpty then [] else '.' :: behind) ++
      'e' :: (if decide (d.leading < 0) then '-' else '+') :: power, isNumberChar c := by
    refine List.forall_mem_append.mpr ⟨?_, List.forall_mem_cons.mpr ⟨by decide,
      List.forall_mem_cons.mpr ⟨by split <;> decide,
        fun c hc => isNumberChar_of_isDigit (hpowerDigits c hc)⟩⟩⟩
    split
    · exact List.forall_mem_nil _
    · exact List.forall_mem_cons.mpr ⟨by decide,
        fun c hc => isNumberChar_of_isDigit (hbehind c hc)⟩
  rw [htext]
  refine ⟨isNumberText_of_digits negative hfirst (by simp) htail, ?_⟩
  rw [ofNumberText?_decimal maxDigits negative hfirst (by simp) (fun _ => rfl)
    ((Nat.le_of_ble_eq_true rfl).trans hmax), hread, hpowerValue, hexponent, hvalue]
  · rfl
  · cases behind with
    | nil => exact .inr ⟨_, rfl⟩
    | cons c others => exact .inl ⟨c, _, rfl, hbehind c List.mem_cons_self⟩

/-- A finite number is read back from its text, the sign of zero included. -/
theorem writes_text (hmax : 16 ≤ maxDigits) {x : Binary64} (hfinite : x.isFinite) :
    Writes (layout.text x) (number x) maxDigits := by
  have hexponent : x.exponent.val < 2047 := by simpa [Binary64.isFinite] using hfinite
  have hnaN : x.isNaN = false := by simp [Binary64.isNaN, Nat.ne_of_lt hexponent]
  have hinfinite : x.isInfinite = false := by
    simp [Binary64.isInfinite, Nat.ne_of_lt hexponent]
  by_cases hx : x.significand = 0
  · have hzero : Binary64.ofDecimal x.negative (digitsValue ['0', '0']) (-1) = x := by
      have hcode := Binary64.ofCode_code_of_finite hfinite
      rw [(x.code_eq_zero_iff).mpr hx] at hcode
      rw [Binary64.ofDecimal, if_pos (.inl (by decide)), hcode]
    have hzeroDigits : ∀ c ∈ ['0'], c.isDigit := by simp
    have hread := readDecimal?_point x.negative hzeroDigits (by decide) hzeroDigits
    have htext : layout.text x = (if x.negative then ['-'] else []) ++ (['0'] ++ ['.', '0']) := by
      simp [NumberLayout.text, hnaN, hinfinite, hx]
    rw [htext]
    refine ⟨isNumberText_of_digits x.negative hzeroDigits (by decide)
      (Text.forall_mem_of_all (by decide)), ?_⟩
    rw [ofNumberText?_decimal maxDigits x.negative hzeroDigits (by decide) (fun _ => rfl)
      ((Nat.le_of_ble_eq_true rfl).trans hmax) (.inl ⟨'0', [], rfl, rfl⟩), hread]
    exact congrArg (some ∘ number) hzero
  · have htext : layout.text x =
        (if x.negative then ['-'] else []) ++ layout.decimal x.shortest := by
      simp [NumberLayout.text, hnaN, hinfinite, hx]
    have hread := Binary64.ofDecimal_eq_of_abs hfinite hx
      (Binary64.ofDecimal_shortest hfinite hx)
    have hdigits : x.shortest.digits ≠ 0 :=
      (Binary64.inReach_of_ofDecimal hfinite hx hread).1
    rw [htext]
    conv => arg 2; rw [← hread]
    by_cases hpower : layout.lowest ≤ x.shortest.leading ∧ x.shortest.leading < 16
    · exact writes_aroundPoint layout x.negative hmax hdigits hpower
    · exact writes_exponent layout x.negative hmax hpower

end Layout

end Json

end EditorScript
