import EditorScript.Proofs.CallReading
import EditorScript.Proofs.ShortestNumber
import EditorScript.Proofs.Trimming

/-!
# Numbers read back

A finite number that is written without an exponent is read back as itself, apart
from the sign of zero.  Whole numbers are read back as the numbers nearest to
them.
-/

namespace EditorScript

/-- A text of a number: a sign, digits with a point, a digit at its end.  It is
read as `value`. -/
structure ShowsNumber (text : Text) (value : Binary64) : Prop where
  shape : ∃ sign front c, text = sign ++ (front ++ [c]) ∧ (sign = [] ∨ sign = ['-']) ∧
    (∀ d ∈ front, d.isDigit || d == '.') ∧ c.isDigit
  reads : readDecimal? text = some value

/-! ## Reading digits -/

theorem splitSign_of_digit {text : Text} {c : Char} (hc : c.isDigit) (rest : Text)
    (htext : text = c :: rest) : splitSign text = (false, text) := by
  subst htext
  unfold splitSign
  split
  · rename_i heq
    obtain ⟨rfl, -⟩ := List.cons.inj heq
    exact absurd hc (by decide)
  · rename_i heq
    obtain ⟨rfl, -⟩ := List.cons.inj heq
    exact absurd hc (by decide)
  · rfl

theorem splitSign_sign (negative : Bool) {digits : Text} (hdigits : ∀ c ∈ digits, c.isDigit)
    (hne : digits ≠ []) (rest : Text) :
    splitSign ((if negative then ['-'] else []) ++ (digits ++ rest)) = (negative, digits ++ rest) := by
  obtain ⟨c, others, rfl⟩ := List.exists_cons_of_ne_nil hne
  cases negative with
  | true => rfl
  | false => exact splitSign_of_digit (hdigits c List.mem_cons_self) _ rfl

/-- Digits without a point. -/
theorem readDecimal?_whole (negative : Bool) {digits : Text} (hdigits : ∀ c ∈ digits, c.isDigit)
    (hne : digits ≠ []) :
    readDecimal? ((if negative then ['-'] else []) ++ digits) =
      some (.ofDecimal negative (digitsValue digits) 0) := by
  have hsign := splitSign_sign negative hdigits hne []
  obtain ⟨htake, hdrop⟩ := takeWhile_run hdigits [] (by simp)
  rw [List.append_nil] at hsign htake hdrop
  have hempty : digits.isEmpty = false := by simpa using hne
  simp [readDecimal?, hsign, htake, hdrop, hempty, readExponent?]

/-- Digits with a point between them. -/
theorem readDecimal?_point (negative : Bool) {whole fraction : Text}
    (hwhole : ∀ c ∈ whole, c.isDigit) (hne : whole ≠ []) (hfraction : ∀ c ∈ fraction, c.isDigit) :
    readDecimal? ((if negative then ['-'] else []) ++ (whole ++ '.' :: fraction)) =
      some (.ofDecimal negative (digitsValue (whole ++ fraction)) (-fraction.length)) := by
  have hsign := splitSign_sign negative hwhole hne ('.' :: fraction)
  obtain ⟨htake, hdrop⟩ := takeWhile_run hwhole ('.' :: fraction) (by rintro c ⟨⟩; decide)
  obtain ⟨htake', hdrop'⟩ := takeWhile_run hfraction [] (by simp)
  rw [List.append_nil] at htake' hdrop'
  have hempty : whole.isEmpty = false := by simpa using hne
  simp [readDecimal?, hsign, htake, hdrop, htake', hdrop', hempty, readExponent?]

/-! ## Literals -/

theorem dropRightWhile_concat {accepts : Char → Bool} {c : Char} (hc : accepts c = false)
    (front : Text) : Text.dropRightWhile accepts (front ++ [c]) = front ++ [c] := by
  simp [Text.dropRightWhile, hc]

theorem dropRightWhile_concat_of_pos {accepts : Char → Bool} {c : Char} (hc : accepts c)
    (front : Text) : Text.dropRightWhile accepts (front ++ [c]) = Text.dropRightWhile accepts front := by
  simp [Text.dropRightWhile, hc]

theorem joinDigitGroups?_eq {text : Text} (h : '_' ∉ text) (afterDigit : Bool) :
    joinDigitGroups? afterDigit text = some text := by
  induction text generalizing afterDigit with
  | nil => rfl
  | cons c rest ih =>
    rw [List.mem_cons, not_or] at h
    have hc : c ≠ '_' := fun heq => h.1 heq.symm
    unfold joinDigitGroups?
    split
    · rename_i heq
      cases heq
    · rename_i heq
      exact absurd (List.cons.inj heq).1 hc
    · rename_i heq
      obtain ⟨rfl, rfl⟩ := List.cons.inj heq
      rw [if_neg hc, ih h.2]
      rfl

namespace ShowsNumber

variable {text : Text} {value : Binary64}

theorem mem_cases (h : ShowsNumber text value) {c : Char} (hc : c ∈ text) :
    c.isDigit ∨ c = '.' ∨ c = '-' := by
  obtain ⟨sign, front, d, rfl, hsign, hfront, hd⟩ := h.shape
  rw [List.mem_append, List.mem_append, List.mem_singleton] at hc
  rcases hc with hc | hc | rfl
  · rcases hsign with rfl | rfl
    · cases hc
    · exact .inr (.inr (List.mem_singleton.mp hc))
  · have hchar := hfront c hc
    rw [Bool.or_eq_true, beq_iff_eq] at hchar
    exact hchar.imp_right .inl
  · exact .inl hd

theorem isBlank_eq_false {c : Char} (h : c.isDigit ∨ c = '.' ∨ c = '-') : isBlank c = false := by
  rcases h with hdigit | rfl | rfl
  · exact isBlank_of_isNameChar (isNameChar_of_isDigit hdigit)
  · decide
  · decide

theorem exists_concat (h : ShowsNumber text value) :
    ∃ front c, text = front ++ [c] ∧ c.isDigit := by
  obtain ⟨sign, front, c, rfl, -, -, hc⟩ := h.shape
  exact ⟨sign ++ front, c, (List.append_assoc _ _ _).symm, hc⟩

/-- The text of a number is bare. -/
theorem bareNumber?_eq (h : ShowsNumber text value) : bareNumber? text = some text := by
  have hascii : asciiDigits text = text := asciiDigits_eq_self fun c hc => by
    rcases h.mem_cases hc with hdigit | rfl | rfl
    · exact asciiDigit_of_isDigit hdigit
    · decide
    · decide
  have hblank : ∀ c ∈ text, isNumberBlank c = false := fun c hc => by
    rw [isNumberBlank, isBlank_eq_false (h.mem_cases hc)]
    rfl
  have hunpadded : unpadded text = text := by
    have hdrop : text.dropWhile isNumberBlank = text := by
      cases htext : text with
      | nil => rfl
      | cons c rest => simp [hblank c (htext ▸ List.mem_cons_self)]
    obtain ⟨front, c, rfl, -⟩ := h.exists_concat
    rw [unpadded, hdrop, dropRightWhile_concat (hblank c (by simp))]
  rw [bareNumber?, hunpadded, hascii, joinDigitGroups?_eq]
  intro hmem
  rcases h.mem_cases hmem with hdigit | heq | heq
  · exact absurd hdigit (by decide)
  · exact absurd heq (by decide)
  · exact absurd heq (by decide)

/-- A literal of a number reads as the number, the sign of zero apart. -/
theorem readLiteralNumber?_eq (h : ShowsNumber text value) {suffix : Text}
    (hsuffix : suffix = [] ∨ suffix = ['f']) :
    readLiteralNumber? (text ++ suffix) = some value.withoutZeroSign := by
  obtain ⟨front, c, htext, hc⟩ := h.exists_concat
  have hblank : ∀ d ∈ text ++ suffix, isBlank d = false := by
    intro d hd
    rcases List.mem_append.mp hd with hd | hd
    · exact isBlank_eq_false (h.mem_cases hd)
    · rcases hsuffix with rfl | rfl
      · cases hd
      · obtain rfl := List.mem_singleton.mp hd
        decide
  have htrim : (text ++ suffix).trim = text ++ suffix :=
    Text.trim_eq_self (fun d hd => hblank d (List.mem_of_mem_head? hd))
      (fun d hd => hblank d (List.mem_of_getLast? hd))
  have hlast : "fFdDmM".toList.contains c = false := by
    have hletters : ∀ d ∈ "fFdDmM".toList, d.isDigit = false :=
      Text.forall_mem_of_all (by decide)
    rw [Bool.eq_false_iff, Ne, List.contains_iff_mem]
    exact fun hmem => absurd hc (by rw [hletters c hmem]; decide)
  have hdrop : Text.dropRightWhile ("fFdDmM".toList.contains ·) (text ++ suffix) = text := by
    rcases hsuffix with rfl | rfl
    · rw [List.append_nil, htext, dropRightWhile_concat hlast]
    · rw [dropRightWhile_concat_of_pos (by decide), htext, dropRightWhile_concat hlast]
  rw [readLiteralNumber?, htrim, hdrop, readLooseNumber?, h.bareNumber?_eq, Option.bind_some,
    readNumber?, h.reads]
  rfl

theorem isNumberLiteral (h : ShowsNumber text value) {suffix : Text}
    (hsuffix : suffix = [] ∨ suffix = ['f']) : CallShape.IsNumberLiteral (text ++ suffix) := by
  obtain ⟨sign, front, c, rfl, hsign, hfront, hc⟩ := h.shape
  refine ⟨sign, front ++ [c], suffix, List.append_assoc _ _ _, hsign, by simp, ?_, hsuffix⟩
  intro d hd
  rw [List.mem_append, List.mem_singleton] at hd
  rcases hd with hd | rfl
  · exact hfront d hd
  · rw [hc]
    rfl

end ShowsNumber

/-! ## Written numbers -/

theorem sign_cases (negative : Bool) :
    (if negative then ['-'] else []) = ([] : Text) ∨ (if negative then ['-'] else []) = ['-'] := by
  cases negative <;> simp

theorem exists_concat_digit {digits : Text} (h : ∀ c ∈ digits, c.isDigit) (hne : digits ≠ []) :
    ∃ front c, digits = front ++ [c] ∧ (∀ d ∈ front, d.isDigit) ∧ c.isDigit :=
  ⟨_, _, (List.dropLast_concat_getLast hne).symm, fun d hd => h d (List.dropLast_subset _ hd),
    h _ (List.getLast_mem hne)⟩

/-- Digits behind a sign show the nearest number. -/
theorem showsNumber_whole (negative : Bool) {digits : Text} (hdigits : ∀ c ∈ digits, c.isDigit)
    (hne : digits ≠ []) :
    ShowsNumber ((if negative then ['-'] else []) ++ digits)
      (.ofDecimal negative (digitsValue digits) 0) where
  shape := by
    obtain ⟨front, c, rfl, hfront, hc⟩ := exists_concat_digit hdigits hne
    refine ⟨_, front, c, rfl, sign_cases negative, fun d hd => ?_, hc⟩
    rw [hfront d hd]
    rfl
  reads := readDecimal?_whole negative hdigits hne

/-- Digits with a point behind a sign show the nearest number. -/
theorem showsNumber_point (negative : Bool) (whole fraction : Text)
    (hwhole : ∀ c ∈ whole, c.isDigit) (hne : whole ≠ []) (hfraction : ∀ c ∈ fraction, c.isDigit)
    (hne' : fraction ≠ []) :
    ShowsNumber ((if negative then ['-'] else []) ++ (whole ++ '.' :: fraction))
      (.ofDecimal negative (digitsValue (whole ++ fraction)) (-fraction.length)) where
  shape := by
    obtain ⟨front, c, rfl, hfront, hc⟩ := exists_concat_digit hfraction hne'
    refine ⟨_, whole ++ '.' :: front, c, by simp, sign_cases negative, fun d hd => ?_, hc⟩
    rw [List.mem_append, List.mem_cons] at hd
    rcases hd with hd | rfl | hd
    · rw [hwhole d hd]
      rfl
    · rfl
    · rw [hfront d hd]
      rfl
  reads := readDecimal?_point negative hwhole hne hfraction

theorem intText_eq (value : Int) :
    intText value = (if decide (value < 0) then ['-'] else []) ++ natText value.natAbs := by
  unfold intText
  split <;> simp_all

/-- A whole number shows the number nearest to it. -/
theorem showsNumber_intText (value : Int) :
    ShowsNumber (intText value) (.ofDecimal (value < 0) value.natAbs 0) := by
  have hshown := showsNumber_whole (value < 0)
    (fun c hc => isDigit_of_mem_natText (n := value.natAbs) hc) (natText_ne_nil _)
  rwa [digitsValue_natText, ← intText_eq] at hshown

theorem digitsValue_zeros_append (count : Nat) (digits : Text) :
    digitsValue (List.replicate count '0' ++ digits) = digitsValue digits := by
  rw [digitsValue_eq, digitsValue_eq, Nat.ofDigitChars_append, Nat.ofDigitChars_replicate_zero,
    Nat.mul_zero]

theorem digitsValue_append_zeros (digits : Text) (count : Nat) :
    digitsValue (digits ++ List.replicate count '0') = 10 ^ count * digitsValue digits := by
  rw [digitsValue_eq, digitsValue_eq, Nat.ofDigitChars_append, Nat.ofDigitChars_replicate_zero]

theorem Binary64.ofDecimal_pow_mul (negative : Bool) (count digits : Nat) (exponent : Int) :
    ofDecimal negative (10 ^ count * digits) exponent =
      ofDecimal negative digits (exponent + count) := by
  induction count generalizing exponent with
  | zero => simp
  | succ count ih =>
    have hshape : 10 ^ (count + 1) * digits = 10 * (10 ^ count * digits) := by
      rw [Nat.pow_succ, Nat.mul_comm _ 10, Nat.mul_assoc]
    rw [hshape, ofDecimal_mul_ten, ih, Int.natCast_succ, Int.add_assoc, Int.add_comm 1]

theorem head?_append_left {front : Text} (h : front ≠ []) (rest : Text) :
    (front ++ rest).head? = front.head? := by
  obtain ⟨c, others, rfl⟩ := List.exists_cons_of_ne_nil h
  rfl

/-- Only zero is written with a zero in front. -/
theorem head?_natText_ne {n : Nat} (h : n ≠ 0) : (natText n).head? ≠ some '0' := by
  induction n using Nat.strongRecOn with
  | ind n ih =>
    by_cases hsmall : n < 10
    · have hone : ∀ m : Fin 10, m.val ≠ 0 → (natText m).head? ≠ some '0' := by decide
      exact hone ⟨n, hsmall⟩ h
    · have hlong : natText n = natText (n / 10) ++ [Nat.digitChar (n % 10)] :=
        Nat.toDigits_of_base_le (by decide) (by omega)
      rw [hlong, head?_append_left (natText_ne_nil _)]
      exact ih (n / 10) (by omega) (by omega)

/-- Digits on both sides of a point that stand for a decimal.  At most sixteen are
in front of the point, the first one no needless zero. -/
structure AroundPoint (whole fraction : Text) (d : Decimal) : Prop where
  wholeDigits : ∀ c ∈ whole, c.isDigit
  fractionDigits : ∀ c ∈ fraction, c.isDigit
  whole_ne_nil : whole ≠ []
  fraction_ne_nil : fraction ≠ []
  width : whole.length ≤ 16
  plain : d.digits ≠ 0 → whole.head? = some '0' → whole.length = 1
  reads : ∀ negative, Binary64.ofDecimal negative (digitsValue (whole ++ fraction))
    (-fraction.length) = .ofDecimal negative d.digits d.exponent

/-- A decimal whose first digit is near the point is written around it. -/
theorem exists_aroundPoint (layout : NumberLayout) {d : Decimal}
    (hpower : layout.lowest ≤ d.leading ∧ d.leading < 16) :
    ∃ whole fraction, layout.decimal d = whole ++ '.' :: fraction ∧
      AroundPoint whole fraction d := by
  have hdigits : ∀ c ∈ natText d.digits, c.isDigit := fun c hc => isDigit_of_mem_natText hc
  have hcount : Binary64.digitCount d.digits = (natText d.digits).length := rfl
  have hpositive := Binary64.digitCount_pos d.digits
  have hzeros : ∀ count, ∀ c ∈ List.replicate count '0', c.isDigit := fun count c hc => by
    rw [List.eq_of_mem_replicate hc]
    rfl
  have hleading : d.leading = d.exponent + Binary64.digitCount d.digits - 1 := rfl
  rw [NumberLayout.decimal]
  dsimp only
  rw [if_pos hpower]
  by_cases hsmall : d.leading < 0
  · rw [if_pos hsmall]
    have hvalue : digitsValue (['0'] ++ (List.replicate (-d.leading - 1).toNat '0' ++
        natText d.digits)) = d.digits := by
      rw [← List.append_assoc]
      exact (digitsValue_zeros_append ((-d.leading - 1).toNat + 1) _).trans
        (digitsValue_natText _)
    have hexponent : -((List.replicate (-d.leading - 1).toNat '0' ++
        natText d.digits).length : Int) = d.exponent := by
      rw [List.length_append, List.length_replicate, ← hcount]
      omega
    refine ⟨['0'], List.replicate (-d.leading - 1).toNat '0' ++ natText d.digits, rfl, {
      wholeDigits := Text.forall_mem_of_all (by decide)
      fractionDigits := List.forall_mem_append.mpr ⟨hzeros _, hdigits⟩
      whole_ne_nil := by decide
      fraction_ne_nil := List.append_ne_nil_of_right_ne_nil _ (natText_ne_nil _)
      width := by decide
      plain := fun _ _ => rfl
      reads := fun negative => by rw [hvalue, hexponent] }⟩
  · rw [if_neg hsmall]
    generalize hwidth : d.leading.toNat + 1 = width
    have hplain : ∀ rest, d.digits ≠ 0 → (natText d.digits ++ rest).head? ≠ some '0' := by
      intro rest hne
      rw [head?_append_left (natText_ne_nil _)]
      exact head?_natText_ne hne
    by_cases hlong : width < (natText d.digits).length
    · have hbehind : ((natText d.digits).drop width).isEmpty = false := by
        simpa using hlong
      have hexponent : -(((natText d.digits).drop width).length : Int) = d.exponent := by
        rw [List.length_drop, ← hcount]
        omega
      have hne : (natText d.digits).take width ≠ [] := fun hnil =>
        (List.take_eq_nil_iff.mp hnil).elim (by omega) (natText_ne_nil _)
      refine ⟨(natText d.digits).take width, (natText d.digits).drop width, ?_, {
        wholeDigits := fun c hc => hdigits c (List.mem_of_mem_take hc)
        fractionDigits := fun c hc => hdigits c (List.mem_of_mem_drop hc)
        whole_ne_nil := hne
        fraction_ne_nil := by simpa using hlong
        width := by
          rw [List.length_take]
          omega
        plain := fun hdigits hhead => by
          refine absurd ?_ (hplain [] hdigits)
          rw [List.append_nil, ← List.take_append_drop width (natText d.digits),
            head?_append_left hne]
          exact hhead
        reads := fun negative => by
          rw [List.take_append_drop, digitsValue_natText, hexponent] }⟩
      rw [hbehind, Nat.sub_eq_zero_of_le hlong.le, List.replicate_zero, List.append_nil]
      rfl
    · -- The digits stand before the point, with zeros up to it and one behind it.
      have hbehind : (natText d.digits).drop width = [] := List.drop_eq_nil_of_le (by omega)
      have htake : (natText d.digits).take width = natText d.digits :=
        List.take_of_length_le (by omega)
      have hvalue : digitsValue (natText d.digits ++
          List.replicate (width - (natText d.digits).length) '0' ++ ['0']) =
            10 ^ (width - (natText d.digits).length + 1) * d.digits := by
        have hend : List.replicate (width - (natText d.digits).length) '0' ++ ['0'] =
            List.replicate (width - (natText d.digits).length + 1) '0' :=
          List.replicate_succ'.symm
        rw [List.append_assoc, hend, digitsValue_append_zeros, digitsValue_natText]
      have hexponent : (-(['0'] : Text).length : Int) +
          (width - (natText d.digits).length + 1 : Nat) = d.exponent := by
        rw [← hcount, List.length_singleton]
        omega
      refine ⟨natText d.digits ++ List.replicate (width - (natText d.digits).length) '0', ['0'],
        ?_, {
        wholeDigits := List.forall_mem_append.mpr ⟨hdigits, hzeros _⟩
        fractionDigits := Text.forall_mem_of_all (by decide)
        whole_ne_nil := List.append_ne_nil_of_left_ne_nil (natText_ne_nil _) _
        fraction_ne_nil := by decide
        width := by
          rw [List.length_append, List.length_replicate]
          omega
        plain := fun hdigits hhead => absurd hhead (hplain _ hdigits)
        reads := fun negative => by
          rw [hvalue, Binary64.ofDecimal_pow_mul, hexponent] }⟩
      rw [hbehind, htake]
      rfl

/-- A decimal that is written without an exponent shows its number. -/
theorem showsNumber_decimal (negative : Bool) (layout : NumberLayout) {d : Decimal}
    (hpower : layout.lowest ≤ d.leading ∧ d.leading < 16) :
    ShowsNumber ((if negative then ['-'] else []) ++ layout.decimal d)
      (.ofDecimal negative d.digits d.exponent) := by
  obtain ⟨whole, fraction, htext, hpoint⟩ := exists_aroundPoint layout hpower
  have hshown := showsNumber_point negative whole fraction hpoint.wholeDigits
    hpoint.whole_ne_nil hpoint.fractionDigits hpoint.fraction_ne_nil
  rwa [hpoint.reads, ← htext] at hshown

/-! ## Numbers of a forest -/

namespace Binary64

variable {x : Binary64}

theorem code_eq_zero_iff (x : Binary64) : x.code = 0 ↔ x.significand = 0 := by
  unfold code significand
  simp only [fractionCount]
  split
  · rename_i hzero
    rw [hzero, Nat.zero_mul, Nat.zero_add]
  · omega

/-- A finite number that is not whole is written with its shortest decimal. -/
theorem showsNumber_of_not_isWhole (hfinite : x.isFinite) (hwhole : x.isWhole = false)
    (hplain : 'e' ∉ numberText x) : ShowsNumber (numberText x) x := by
  have hx : x.significand ≠ 0 := by
    intro hzero
    rw [isWhole, hfinite, x.magnitude_eq_zero_iff.mpr hzero, Nat.zero_mod] at hwhole
    cases hwhole
  have hexponent : x.exponent.val < 2047 := by simpa [isFinite] using hfinite
  have hnaN : x.isNaN = false := by simp [isNaN, Nat.ne_of_lt hexponent]
  have hinfinite : x.isInfinite = false := by simp [isInfinite, Nat.ne_of_lt hexponent]
  have htext : numberText x =
      (if x.negative then ['-'] else []) ++ codeLayout.decimal x.shortest := by
    rw [numberText, hwhole, NumberLayout.text, hnaN, hinfinite, if_neg hx]
    rfl
  have hpower : codeLayout.lowest ≤ x.shortest.leading ∧ x.shortest.leading < 16 := by
    by_contra hpower
    refine hplain ?_
    rw [htext, NumberLayout.decimal]
    dsimp only
    rw [if_neg hpower]
    refine List.mem_append_right _ (List.mem_append_left _ (List.mem_append_right _ ?_))
    split <;> decide
  have hshown := showsNumber_decimal x.negative codeLayout hpower
  rw [ofDecimal_eq_of_abs hfinite hx (ofDecimal_shortest hfinite hx)] at hshown
  rwa [htext]

/-- The whole number that a number stands for is read as that number. -/
theorem ofDecimal_of_whole (hfinite : x.isFinite) (hx : x.significand ≠ 0) {size : Nat}
    (hsize : x.magnitude.1 = size * x.magnitude.2) : ofDecimal x.negative size 0 = x := by
  have hne : size ≠ 0 := by
    rintro rfl
    rw [Nat.zero_mul, magnitude_eq_zero_iff] at hsize
    exact hx hsize
  have hpositive : 0 < size * x.magnitude.2 :=
    Nat.mul_pos (Nat.pos_of_ne_zero hne) (Nat.pos_of_ne_zero x.magnitude_eq.2)
  have hunit : size * 10 ^ (0 : Int).toNat = size ∧ 10 ^ (-0 : Int).toNat = 1 := by simp
  refine ofDecimal_of_closeTo hfinite hx hne ?_
  rw [hunit.1, hunit.2]
  refine closeTo_of_magnitude ?_ ?_
  · rw [hsize, Nat.mul_one]
    omega
  · rw [hsize, Nat.mul_one]
    omega

theorem withoutZeroSign_of_zero (h : x.significand = 0) : x.withoutZeroSign = ofCode false 0 := by
  have hcode := (x.code_eq_zero_iff).mpr h
  rw [withoutZeroSign, if_pos hcode]
  obtain ⟨negative, exponent, fraction⟩ := x
  simp only [code, Nat.add_eq_zero_iff, Nat.mul_eq_zero] at hcode
  obtain ⟨hexponent, hfraction⟩ := hcode
  have hexponent : exponent = 0 := Fin.ext (hexponent.resolve_right (by decide))
  have hfraction : fraction = 0 := Fin.ext hfraction
  rw [hexponent, hfraction]
  change (⟨false, 0, 0⟩ : Binary64) = ofCode false 0
  decide +kernel

/-- The size and the sign of a signed size. -/
theorem natAbs_signed (negative : Bool) (size : Nat) :
    (if negative then -(size : Int) else size).natAbs = size := by
  cases negative <;> simp

theorem signed_lt (negative : Bool) {size : Nat} (h : size ≠ 0) :
    decide ((if negative then -(size : Int) else size) < 0) = negative := by
  cases negative with
  | false => exact decide_eq_false (by simp)
  | true => exact decide_eq_true (by simp [Nat.pos_of_ne_zero h])

/-- A whole number is read from the text of its value. -/
theorem ofDecimal_value (hfinite : x.isFinite) {size : Nat}
    (hsize : x.magnitude.1 = size * x.magnitude.2) {value : Int}
    (hvalue : value = if x.negative then -(size : Int) else size) :
    (ofDecimal (value < 0) value.natAbs 0).withoutZeroSign = x.withoutZeroSign := by
  have hnatAbs : value.natAbs = size := hvalue ▸ natAbs_signed x.negative size
  by_cases hx : x.significand = 0
  · have hzero : size = 0 := by
      rw [(x.magnitude_eq_zero_iff).mpr hx] at hsize
      exact (Nat.mul_eq_zero.mp hsize.symm).resolve_right x.magnitude_eq.2
    obtain rfl : value = 0 := by omega
    rw [withoutZeroSign_of_zero hx]
    decide +kernel
  · have hne : size ≠ 0 := by
      rintro rfl
      rw [Nat.zero_mul, magnitude_eq_zero_iff] at hsize
      exact hx hsize
    have hsign : decide (value < 0) = x.negative := hvalue ▸ signed_lt x.negative hne
    rw [hsign, hnatAbs, ofDecimal_of_whole hfinite hx hsize]

/-- A number that is written without an exponent shows itself, apart from the
sign of zero. -/
theorem showsNumber_numberText (hfinite : x.isFinite) (hplain : 'e' ∉ numberText x) :
    ∃ value, ShowsNumber (numberText x) value ∧ value.withoutZeroSign = x.withoutZeroSign := by
  cases hwhole : x.isWhole with
  | false => exact ⟨x, showsNumber_of_not_isWhole hfinite hwhole hplain, rfl⟩
  | true =>
    have hmod : x.magnitude.1 % x.magnitude.2 = 0 := by
      rw [isWhole, hfinite] at hwhole
      simpa using hwhole
    have hsize : x.magnitude.1 = x.magnitude.1 / x.magnitude.2 * x.magnitude.2 :=
      (Nat.div_mul_cancel (Nat.dvd_of_mod_eq_zero hmod)).symm
    have htext : numberText x = intText (if x.negative then
        -((x.magnitude.1 / x.magnitude.2 : Nat) : Int) else (x.magnitude.1 / x.magnitude.2 : Nat)) := by
      rw [numberText, hwhole, toInt?, if_pos hfinite]
    exact ⟨_, htext ▸ showsNumber_intText _, ofDecimal_value hfinite hsize rfl⟩

/-! ## Whole numbers -/

/-- Every whole number of at most 53 binary digits is a number. -/
theorem exists_whole (negative : Bool) {size : Nat} (hpositive : size ≠ 0) (hsize : size < 2 ^ 53) :
    ∃ y : Binary64, y.isFinite ∧ y.negative = negative ∧
      y.magnitude.1 = size * y.magnitude.2 := by
  have hlog : size.log2 < 53 := (Nat.log2_lt hpositive).mpr hsize
  have hlow : 2 ^ 52 ≤ size * 2 ^ (52 - size.log2) := by
    calc 2 ^ 52 = 2 ^ size.log2 * 2 ^ (52 - size.log2) := by
          rw [← Nat.pow_add, show size.log2 + (52 - size.log2) = 52 by omega]
      _ ≤ size * 2 ^ (52 - size.log2) := Nat.mul_le_mul_right _ (Nat.log2_self_le hpositive)
  have hhigh : size * 2 ^ (52 - size.log2) < 2 ^ 53 := by
    calc size * 2 ^ (52 - size.log2) < 2 ^ (size.log2 + 1) * 2 ^ (52 - size.log2) :=
          (Nat.mul_lt_mul_right (Nat.two_pow_pos _)).mpr Nat.lt_log2_self
      _ = 2 ^ 53 := by
          rw [← Nat.pow_add, show size.log2 + 1 + (52 - size.log2) = 53 by omega]
  have hfraction : size * 2 ^ (52 - size.log2) - 2 ^ 52 < fractionCount := by
    simp only [fractionCount]
    omega
  have hexponent : size.log2 + 1023 < 2048 := by omega
  obtain ⟨y, hy⟩ : ∃ y : Binary64, y = ⟨negative, ⟨_, hexponent⟩, ⟨_, hfraction⟩⟩ := ⟨_, rfl⟩
  have hsignificand : y.significand = size * 2 ^ (52 - size.log2) := by
    rw [hy]
    simp only [significand, fractionCount]
    rw [if_neg (by omega)]
    omega
  have hplace : y.place = size.log2 + 1022 := by
    rw [hy]
    simp only [place]
    omega
  refine ⟨y, ?_, by rw [hy], ?_⟩
  · rw [hy]
    simp only [isFinite, decide_eq_true_eq]
    omega
  · have hvalue := y.magnitude_eq.1
    have hpower : size * 2 ^ (52 - size.log2) * 2 ^ (size.log2 + 1022) = size * 2 ^ 1074 := by
      rw [Nat.mul_assoc, ← Nat.pow_add, show 52 - size.log2 + (size.log2 + 1022) = 1074 by omega]
    rw [hsignificand, hplace, hpower, ← Nat.mul_assoc] at hvalue
    have hcancel := Nat.eq_of_mul_eq_mul_right (Nat.two_pow_pos 1074) hvalue
    rw [hcancel, Nat.mul_comm]

/-- A number that is not whole has few digits before its point. -/
theorem quotient_lt (hwhole : x.magnitude.1 % x.magnitude.2 ≠ 0) :
    x.magnitude.1 / x.magnitude.2 < 2 ^ 53 := by
  refine (Nat.div_le_self _ _).trans_lt ?_
  unfold magnitude at *
  dsimp only at *
  split
  · rename_i hlarge
    rw [if_pos hlarge] at hwhole
    exact absurd (Nat.mod_one _) hwhole
  · exact x.significand_lt

theorem ofInt_of_whole (hfinite : x.isFinite) (hx : x.significand ≠ 0) {value : Int}
    (hsign : decide (value < 0) = x.negative)
    (hsize : x.magnitude.1 = value.natAbs * x.magnitude.2) : ofInt value = x := by
  rw [ofInt, hsign]
  refine Eq.trans ?_ (ofRatio_magnitude hfinite hx)
  refine ofRatio_congr x.negative Nat.one_ne_zero x.magnitude_eq.2 ?_
  rw [hsize, Nat.mul_one]

theorem toInt?_of_whole (hfinite : x.isFinite) {value : Int}
    (hsign : decide (value < 0) = x.negative)
    (hsize : x.magnitude.1 = value.natAbs * x.magnitude.2) : x.toInt? = some value := by
  rw [toInt?, if_pos hfinite, hsize, Nat.mul_div_cancel _ (Nat.pos_of_ne_zero x.magnitude_eq.2),
    ← hsign]
  dsimp only
  by_cases hnegative : value < 0
  · rw [decide_eq_true hnegative, if_pos rfl]
    exact congrArg some (by omega)
  · rw [decide_eq_false hnegative, if_neg (by decide)]
    exact congrArg some (by omega)

/-- The part of a number before its point is a number. -/
theorem ofInt_toInt? (hfinite : x.isFinite) {value : Int} (hvalue : x.toInt? = some value) :
    (ofInt value).toInt? = some value ∧
      (ofDecimal (value < 0) value.natAbs 0).withoutZeroSign = ofInt value := by
  by_cases hzero : value = 0
  · subst hzero
    decide +kernel
  have hvalue : value = if x.negative then -((x.magnitude.1 / x.magnitude.2 : Nat) : Int)
      else (x.magnitude.1 / x.magnitude.2 : Nat) := by
    rw [toInt?, if_pos hfinite] at hvalue
    exact (Option.some.inj hvalue).symm
  have hnatAbs : value.natAbs = x.magnitude.1 / x.magnitude.2 := hvalue ▸ natAbs_signed _ _
  have hne : value.natAbs ≠ 0 := Int.natAbs_ne_zero.mpr hzero
  obtain ⟨y, hyfinite, hysign, hy⟩ : ∃ y : Binary64, y.isFinite ∧
      y.negative = decide (value < 0) ∧ y.magnitude.1 = value.natAbs * y.magnitude.2 := by
    by_cases hwhole : x.magnitude.1 % x.magnitude.2 = 0
    · refine ⟨x, hfinite, ?_, ?_⟩
      · have hsign := signed_lt x.negative (hnatAbs ▸ hne)
        rw [← hvalue] at hsign
        exact hsign.symm
      · rw [hnatAbs]
        exact (Nat.div_mul_cancel (Nat.dvd_of_mod_eq_zero hwhole)).symm
    · exact exists_whole _ hne (hnatAbs ▸ quotient_lt hwhole)
  have hy' : y.significand ≠ 0 := by
    intro hzero
    rw [(y.magnitude_eq_zero_iff).mpr hzero] at hy
    exact Nat.mul_ne_zero hne y.magnitude_eq.2 hy.symm
  rw [ofInt_of_whole hyfinite hy' hysign.symm hy]
  refine ⟨toInt?_of_whole hyfinite hysign.symm hy, ?_⟩
  rw [← hysign, ofDecimal_of_whole hyfinite hy' hy, withoutZeroSign,
    if_neg (y.code_eq_zero_iff.not.mpr hy')]

end Binary64

end EditorScript
