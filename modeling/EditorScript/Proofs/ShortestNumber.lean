import EditorScript.Number.Shortest
import EditorScript.Proofs.NearestNumber

/-!
# The shortest decimal

Seventeen digits are enough: the decimal of that many digits next to a number is
so close to it that it reads back as the number.  The shortest decimal that reads
back therefore exists for every finite number, and it still reads back without the
zeros at its end.
-/

namespace EditorScript

namespace Binary64

theorem lt_pow_digitCount (n : Nat) : n < 10 ^ digitCount n :=
  (Nat.length_toDigits_le_iff (by decide) Nat.length_toDigits_pos).mp le_rfl

theorem digitCount_pos (n : Nat) : 0 < digitCount n := Nat.length_toDigits_pos

theorem pow_digitCount_le {n : Nat} (h : n ≠ 0) : 10 ^ (digitCount n - 1) ≤ n := by
  by_contra hlt
  rcases Nat.eq_zero_or_pos (digitCount n - 1) with hzero | hpositive
  · rw [hzero] at hlt
    omega
  · have hle := (Nat.length_toDigits_le_iff (by decide) hpositive).mpr (Nat.lt_of_not_le hlt)
    have hpos := digitCount_pos n
    unfold digitCount at *
    omega

theorem digitCount_mul_ten {n : Nat} (h : n ≠ 0) : digitCount (10 * n) = digitCount n + 1 := by
  unfold digitCount
  rw [Nat.toDigits_of_base_le (by decide) (by omega), List.length_append]
  simp

/-! ## Decimals as fractions -/

/-- The value of a decimal is within reach of the numbers. -/
def InReach (digits : Nat) (exponent : Int) : Prop :=
  -330 ≤ digitCount digits + exponent ∧ digitCount digits + exponent ≤ 330

theorem ofDecimal_eq_ofRatio (negative : Bool) {digits : Nat} {exponent : Int}
    (hdigits : digits ≠ 0) (h : InReach digits exponent) :
    ofDecimal negative digits exponent =
      ofRatio negative (digits * 10 ^ exponent.toNat) (10 ^ (-exponent).toNat) := by
  obtain ⟨hlow, hhigh⟩ := h
  have hnone : ¬(digits = 0 ∨ (digitCount digits : Int) + exponent < -330) := by
    rw [not_or]
    exact ⟨hdigits, by omega⟩
  simp only [ofDecimal, if_neg hnone, if_neg (Int.not_lt.mpr hhigh), Nat.pow_eq]
  split
  · rename_i hwhole
    rw [show (-exponent).toNat = 0 by omega, Nat.pow_zero]
  · rename_i hpart
    rw [show exponent.toNat = 0 by omega, Nat.pow_zero, Nat.mul_one]

theorem ofCode_zero_significand (negative : Bool) : (ofCode negative 0).significand = 0 := rfl

theorem infinity_isFinite (negative : Bool) : (infinity negative).isFinite = false := by
  cases negative <;> decide +kernel

/-- A decimal that reads back as a finite number other than zero is within reach. -/
theorem inReach_of_ofDecimal {negative : Bool} {digits : Nat} {exponent : Int} {x : Binary64}
    (hfinite : x.isFinite) (hx : x.significand ≠ 0)
    (h : ofDecimal negative digits exponent = x) : digits ≠ 0 ∧ InReach digits exponent := by
  simp only [ofDecimal] at h
  split at h
  · rw [← h] at hx
    exact absurd (ofCode_zero_significand negative) hx
  · rename_i hnone
    rw [not_or] at hnone
    split at h
    · rw [← h, infinity_isFinite] at hfinite
      cases hfinite
    · exact ⟨hnone.1, by omega, by omega⟩

/-- A zero at the end of the digits stands for a power of ten. -/
theorem ofDecimal_mul_ten (negative : Bool) (digits : Nat) (exponent : Int) :
    ofDecimal negative (10 * digits) exponent = ofDecimal negative digits (exponent + 1) := by
  rcases Nat.eq_zero_or_pos digits with rfl | hpositive
  · simp [ofDecimal]
  · have hdigits : digits ≠ 0 := hpositive.ne'
    have hdigits' : 10 * digits ≠ 0 := by omega
    have hcount := digitCount_mul_ten hdigits
    by_cases hreach : InReach digits (exponent + 1)
    · have hreach' : InReach (10 * digits) exponent := by
        unfold InReach at *
        omega
      rw [ofDecimal_eq_ofRatio negative hdigits hreach,
        ofDecimal_eq_ofRatio negative hdigits' hreach']
      refine ofRatio_congr negative (Nat.pow_pos (by decide)).ne' (Nat.pow_pos (by decide)).ne' ?_
      rcases lt_or_ge exponent 0 with hlt | hle
      · rw [show exponent.toNat = 0 by omega, show (exponent + 1).toNat = 0 by omega,
          show (-exponent).toNat = (-(exponent + 1)).toNat + 1 by omega]
        ring
      · rw [show (exponent + 1).toNat = exponent.toNat + 1 by omega,
          show (-exponent).toNat = 0 by omega, show (-(exponent + 1)).toNat = 0 by omega]
        ring
    · have hiff : ∀ (first second : Nat), digitCount first = digitCount second + 1 →
          (digitCount first : Int) + exponent = digitCount second + (exponent + 1) := by omega
      have hsame := hiff _ _ hcount
      unfold InReach at hreach
      simp only [ofDecimal, hdigits, hdigits', hsame, false_or]
      split
      · rfl
      · rw [if_pos (by omega), if_pos (by omega)]

theorem Decimal.ofDecimal_dropZeros (negative : Bool) (fuel : Nat) (d : Decimal) :
    ofDecimal negative (d.dropZeros fuel).digits (d.dropZeros fuel).exponent =
      ofDecimal negative d.digits d.exponent := by
  induction fuel generalizing d with
  | zero => rfl
  | succ fuel ih =>
    rw [EditorScript.Decimal.dropZeros]
    split
    · rename_i hzero
      have hdigits : d.digits = 10 * (d.digits / 10) := by omega
      rw [ih]
      conv_rhs => rw [hdigits]
      exact (ofDecimal_mul_ten negative _ _).symm
    · rfl

/-! ## Seventeen digits -/

/-- A fraction is close to a number when it is close to the number's own fraction. -/
theorem closeTo_of_magnitude {x : Binary64} {numerator denominator : Nat}
    (hbelow : numerator * x.magnitude.2 * 2 ^ 54 <
      x.magnitude.1 * denominator * 2 ^ 54 + x.magnitude.1 * denominator)
    (habove : x.magnitude.1 * denominator * 2 ^ 54 <
      numerator * x.magnitude.2 * 2 ^ 54 + x.magnitude.1 * denominator) :
    x.CloseTo numerator denominator := by
  obtain ⟨hvalue, hdenominator⟩ := x.magnitude_eq
  have hpositive := Nat.pos_of_ne_zero hdenominator
  have hswap : ∀ first second third : Nat, first * second * third = second * (first * third) := by
    intro first second third
    ring
  have hright : x.magnitude.1 * denominator * 2 ^ 1074 =
      x.magnitude.2 * (denominator * 2 ^ x.place * x.significand) := by
    calc x.magnitude.1 * denominator * 2 ^ 1074
        = x.magnitude.1 * 2 ^ 1074 * denominator := Nat.mul_right_comm _ _ _
      _ = x.magnitude.2 * (x.significand * 2 ^ x.place) * denominator := by rw [hvalue]
      _ = x.magnitude.2 * (denominator * 2 ^ x.place * x.significand) := by ring
  have hscale : ∀ (power : Nat) {first second : Nat}, first < second →
      first * 2 ^ power < second * 2 ^ power :=
    fun power _ _ h => (Nat.mul_lt_mul_right (Nat.two_pow_pos power)).mpr h
  constructor
  · have hlt := hscale 1074 hbelow
    rw [Nat.add_mul, Nat.mul_right_comm _ _ (2 ^ 1074), Nat.mul_right_comm _ (2 ^ 54),
      hswap numerator, hright,
      Nat.mul_assoc, Nat.mul_assoc x.magnitude.2, ← Nat.mul_add] at hlt
    exact Nat.lt_of_mul_lt_mul_left hlt
  · have hlt := hscale 1074 habove
    rw [Nat.add_mul, Nat.mul_right_comm _ _ (2 ^ 1074), Nat.mul_right_comm _ (2 ^ 54),
      hswap numerator, hright,
      Nat.mul_assoc, Nat.mul_assoc x.magnitude.2, ← Nat.mul_add] at hlt
    exact Nat.lt_of_mul_lt_mul_left hlt

theorem leadingPower_le {numerator denominator : Nat} (hnumerator : numerator ≠ 0)
    (hdenominator : denominator ≠ 0) :
    denominator * 10 ^ (leadingPower numerator denominator).toNat ≤
      numerator * 10 ^ (-leadingPower numerator denominator).toNat := by
  unfold leadingPower
  split
  · rename_i hle
    have hquotient : numerator / denominator ≠ 0 := by
      rw [Ne, Nat.div_eq_zero_iff]
      omega
    have hcount := digitCount_pos (numerator / denominator)
    have hpow := pow_digitCount_le hquotient
    rw [show ((digitCount (numerator / denominator) : Int) - 1).toNat =
        digitCount (numerator / denominator) - 1 by omega,
      show (-((digitCount (numerator / denominator) : Int) - 1)).toNat = 0 by omega, Nat.pow_zero,
      Nat.mul_one]
    calc denominator * 10 ^ (digitCount (numerator / denominator) - 1)
        ≤ denominator * (numerator / denominator) := Nat.mul_le_mul_left _ hpow
      _ ≤ numerator := Nat.mul_div_le _ _
  · dsimp only
    have hcount := digitCount_pos (denominator / numerator)
    split
    · rename_i hreached
      rw [show (-((digitCount (denominator / numerator) : Int) - 1)).toNat = 0 by omega,
        show (-(-((digitCount (denominator / numerator) : Int) - 1))).toNat =
          digitCount (denominator / numerator) - 1 by omega, Nat.pow_zero, Nat.mul_one]
      exact hreached
    · rw [show (-(digitCount (denominator / numerator) : Int)).toNat = 0 by omega, Int.neg_neg,
        Int.toNat_natCast, Nat.pow_zero, Nat.mul_one]
      have hlt : denominator < numerator * (denominator / numerator + 1) :=
        Nat.lt_mul_div_succ _ (Nat.pos_of_ne_zero hnumerator)
      exact hlt.le.trans (Nat.mul_le_mul_left _ (lt_pow_digitCount _))

theorem place_le {x : Binary64} (h : x.isFinite) : x.place ≤ 2045 := by
  have hexponent : x.exponent.val < 2047 := by simpa [isFinite] using h
  unfold place
  omega

/-- Decimals close to a number are within reach. -/
theorem inReach_of_closeTo {x : Binary64} (hfinite : x.isFinite) (hx : x.significand ≠ 0)
    {digits : Nat} {exponent : Int} (hdigits : digits ≠ 0)
    (h : x.CloseTo (digits * 10 ^ exponent.toNat) (10 ^ (-exponent).toNat)) :
    InReach digits exponent := by
  have hcount := digitCount_pos digits
  have hlow := pow_digitCount_le hdigits
  have hhigh := lt_pow_digitCount digits
  have hbelow := h.below
  have habove := h.above
  generalize hvalue : digits * 10 ^ exponent.toNat = value at hbelow habove
  generalize hunit : 10 ^ (-exponent).toNat = unit at hbelow habove
  have hlarge : value < unit * 10 ^ 309 := by
    have hraise : ∀ {power : Nat}, x.place ≤ power → 2 ^ x.place ≤ 2 ^ power :=
      Nat.pow_le_pow_right (by decide)
    have hsize : unit * 2 ^ x.place * x.significand ≤ unit * 2 ^ 2045 * 2 ^ 53 :=
      Nat.mul_le_mul (Nat.mul_le_mul_left _ (hraise (place_le hfinite))) x.significand_lt.le
    have hbound : 2 ^ 2045 * 2 ^ 53 * (2 ^ 54 + 1) ≤ 10 ^ 309 * 2 ^ 1074 * 2 ^ 54 := by
      decide +kernel
    have hscaled : value * (2 ^ 1074 * 2 ^ 54) < unit * 10 ^ 309 * (2 ^ 1074 * 2 ^ 54) := by
      calc value * (2 ^ 1074 * 2 ^ 54) = value * 2 ^ 1074 * 2 ^ 54 := (Nat.mul_assoc _ _ _).symm
        _ < unit * 2 ^ x.place * x.significand * 2 ^ 54 + unit * 2 ^ x.place * x.significand := hbelow
        _ = unit * 2 ^ x.place * x.significand * (2 ^ 54 + 1) := (Nat.mul_succ _ _).symm
        _ ≤ unit * 2 ^ 2045 * 2 ^ 53 * (2 ^ 54 + 1) := Nat.mul_le_mul_right _ hsize
        _ = unit * (2 ^ 2045 * 2 ^ 53 * (2 ^ 54 + 1)) := by simp only [Nat.mul_assoc]
        _ ≤ unit * (10 ^ 309 * 2 ^ 1074 * 2 ^ 54) := Nat.mul_le_mul_left _ hbound
        _ = unit * 10 ^ 309 * (2 ^ 1074 * 2 ^ 54) := by simp only [Nat.mul_assoc]
    exact Nat.lt_of_mul_lt_mul_right hscaled
  have hsmall : unit < value * 10 ^ 324 := by
    have hunitPositive : 0 < unit := hunit ▸ Nat.pow_pos (by decide)
    have hsize : unit ≤ unit * 2 ^ x.place * x.significand := by
      rw [Nat.mul_assoc]
      exact Nat.le_mul_of_pos_right _ (Nat.mul_pos (Nat.two_pow_pos _) (Nat.pos_of_ne_zero hx))
    have hbound : 2 ^ 1074 * 2 ^ 54 ≤ 10 ^ 324 * (2 ^ 54 - 1) := by decide +kernel
    generalize unit * 2 ^ x.place * x.significand = size at *
    have hscaled : size * (2 ^ 54 - 1) < value * 10 ^ 324 * (2 ^ 54 - 1) := by
      calc size * (2 ^ 54 - 1) < value * 2 ^ 1074 * 2 ^ 54 := by
            rw [Nat.mul_sub, Nat.mul_one]
            omega
        _ = value * (2 ^ 1074 * 2 ^ 54) := Nat.mul_assoc _ _ _
        _ ≤ value * (10 ^ 324 * (2 ^ 54 - 1)) := Nat.mul_le_mul_left _ hbound
        _ = value * 10 ^ 324 * (2 ^ 54 - 1) := (Nat.mul_assoc _ _ _).symm
    exact hsize.trans_lt (Nat.lt_of_mul_lt_mul_right hscaled)
  have hupper : digitCount digits - 1 + exponent.toNat < (-exponent).toNat + 309 := by
    refine (Nat.pow_lt_pow_iff_right (by decide : 1 < 10)).mp ?_
    rw [Nat.pow_add, Nat.pow_add, hunit]
    rw [← hvalue] at hlarge
    exact (Nat.mul_le_mul_right _ hlow).trans_lt hlarge
  have hlower : (-exponent).toNat < digitCount digits + exponent.toNat + 324 := by
    refine (Nat.pow_lt_pow_iff_right (by decide : 1 < 10)).mp ?_
    rw [Nat.pow_add, Nat.pow_add, hunit]
    refine hsmall.trans_le (Nat.mul_le_mul_right _ ?_)
    rw [← hvalue]
    exact Nat.mul_le_mul_right _ hhigh.le
  constructor
  · omega
  · omega

/-- A decimal close to a number reads back as the number. -/
theorem ofDecimal_of_closeTo {x : Binary64} (hfinite : x.isFinite) (hx : x.significand ≠ 0)
    {digits : Nat} {exponent : Int} (hdigits : digits ≠ 0)
    (h : x.CloseTo (digits * 10 ^ exponent.toNat) (10 ^ (-exponent).toNat)) :
    ofDecimal x.negative digits exponent = x := by
  rw [ofDecimal_eq_ofRatio _ hdigits (inReach_of_closeTo hfinite hx hdigits h)]
  exact ofRatio_of_closeTo hfinite h

theorem roundedDiv_cases (numerator denominator : Nat) :
    roundedDiv numerator denominator = numerator / denominator ∨
      roundedDiv numerator denominator = numerator / denominator + 1 := by
  unfold roundedDiv
  dsimp only
  split
  · exact .inr rfl
  · exact .inl rfl

/-- A rounded quotient is at most a half away from the quotient. -/
theorem roundedDiv_near (numerator : Nat) {denominator : Nat} (h : 0 < denominator) :
    2 * (roundedDiv numerator denominator * denominator) ≤ 2 * numerator + denominator ∧
      2 * numerator ≤ 2 * (roundedDiv numerator denominator * denominator) + denominator := by
  have hdiv := Nat.div_add_mod numerator denominator
  have hmod := Nat.mod_lt numerator h
  have hnext := Nat.add_one_mul (numerator / denominator) denominator
  rw [Nat.mul_comm] at hdiv
  unfold roundedDiv
  dsimp only
  split <;> omega

theorem magnitude_eq_zero_iff (x : Binary64) : x.magnitude.1 = 0 ↔ x.significand = 0 := by
  obtain ⟨hvalue, hdenominator⟩ := x.magnitude_eq
  constructor
  · intro hzero
    rw [hzero, Nat.zero_mul] at hvalue
    by_contra hx
    exact absurd hvalue.symm (Nat.mul_ne_zero hdenominator (Nat.mul_ne_zero hx
      (Nat.two_pow_pos _).ne'))
  · intro hzero
    rw [hzero, Nat.zero_mul, Nat.mul_zero] at hvalue
    exact (Nat.mul_eq_zero.mp hvalue).resolve_right (Nat.two_pow_pos _).ne'

/-- Among the decimals of seventeen digits one reads back. -/
theorem readableAt_isSome {x : Binary64} (hfinite : x.isFinite) (hx : x.significand ≠ 0) :
    (x.readableAt 17).isSome := by
  obtain ⟨-, hdenominator⟩ := x.magnitude_eq
  have hnumerator : x.magnitude.1 ≠ 0 := x.magnitude_eq_zero_iff.not.mpr hx
  have hleading := leadingPower_le hnumerator hdenominator
  unfold readableAt
  dsimp only
  generalize hunit : leadingPower x.magnitude.1 x.magnitude.2 - ((17 - 1 : Nat) : Int) = unit
  have hscaled : (if unit ≥ 0 then x.magnitude.1 else x.magnitude.1 * Nat.pow 10 (-unit).toNat) =
      x.magnitude.1 * 10 ^ (-unit).toNat := by
    split
    · rw [show (-unit).toNat = 0 by omega, Nat.pow_zero, Nat.mul_one]
    · rfl
  have hwhole : (if unit ≥ 0 then x.magnitude.2 * Nat.pow 10 unit.toNat else x.magnitude.2) =
      x.magnitude.2 * 10 ^ unit.toNat := by
    split
    · rfl
    · rw [show unit.toNat = 0 by omega, Nat.pow_zero, Nat.mul_one]
  rw [hscaled, hwhole]
  generalize hscaledAs : x.magnitude.1 * 10 ^ (-unit).toNat = scaled
  generalize hwholeAs : x.magnitude.2 * 10 ^ unit.toNat = whole
  have hpositive : 0 < whole := hwholeAs ▸ Nat.mul_pos (Nat.pos_of_ne_zero hdenominator)
    (Nat.pow_pos (by decide))
  have hdigits : 10 ^ 16 * whole ≤ scaled := by
    rw [← hscaledAs, ← hwholeAs]
    generalize leadingPower x.magnitude.1 x.magnitude.2 = power at *
    obtain ⟨more, hmore, hmore'⟩ : ∃ more, 16 + unit.toNat = power.toNat + more ∧
        (-unit).toNat = (-power).toNat + more :=
      ⟨16 + unit.toNat - power.toNat, by omega, by omega⟩
    calc 10 ^ 16 * (x.magnitude.2 * 10 ^ unit.toNat)
        = x.magnitude.2 * 10 ^ (16 + unit.toNat) := by
          rw [Nat.pow_add]
          ring
      _ = x.magnitude.2 * 10 ^ power.toNat * 10 ^ more := by
          rw [hmore, Nat.pow_add, Nat.mul_assoc]
      _ ≤ x.magnitude.1 * 10 ^ (-power).toNat * 10 ^ more := Nat.mul_le_mul_right _ hleading
      _ = x.magnitude.1 * 10 ^ (-unit).toNat := by
          rw [hmore', Nat.pow_add, Nat.mul_assoc]
  have hnear := roundedDiv_near scaled hpositive
  have hclose : x.CloseTo (roundedDiv scaled whole * 10 ^ unit.toNat) (10 ^ (-unit).toNat) := by
    have hleft : roundedDiv scaled whole * 10 ^ unit.toNat * x.magnitude.2 =
        roundedDiv scaled whole * whole := by
      rw [← hwholeAs]
      ring
    refine closeTo_of_magnitude ?_ ?_
    · rw [hleft, hscaledAs]
      omega
    · rw [hleft, hscaledAs]
      omega
  have hne : roundedDiv scaled whole ≠ 0 := by
    intro hzero
    rw [hzero] at hnear
    omega
  have hread : ofDecimal false (roundedDiv scaled whole) unit = x.abs :=
    ofDecimal_of_closeTo (x := x.abs) hfinite hx hne ⟨hclose.below, hclose.above⟩
  rw [List.find?_isSome]
  refine ⟨⟨roundedDiv scaled whole, unit⟩, ?_, decide_eq_true hread⟩
  rcases roundedDiv_cases scaled whole with hbelow | habove
  · rw [if_pos hbelow, hbelow]
    exact List.mem_cons_self
  · rw [if_neg (by omega), habove]
    exact List.mem_cons_self

/-- The shortest decimal of a number reads back as the number. -/
theorem ofDecimal_shortest {x : Binary64} (hfinite : x.isFinite) (hx : x.significand ≠ 0) :
    ofDecimal false x.shortest.digits x.shortest.exponent = x.abs := by
  obtain ⟨d, hd⟩ := Option.isSome_iff_exists.mp (readableAt_isSome hfinite hx)
  unfold shortest
  dsimp only
  rw [Decimal.ofDecimal_dropZeros]
  cases hfound : (List.range 17).findSome? fun more => x.readableAt (more + 1) with
  | none =>
    rw [List.findSome?_eq_none_iff] at hfound
    rw [hfound 16 (by decide)] at hd
    cases hd
  | some found =>
    obtain ⟨more, -, hread⟩ := List.exists_of_findSome?_eq_some hfound
    unfold readableAt at hread
    have hgood := List.find?_some hread
    rw [Option.getD_some]
    exact of_decide_eq_true hgood

/-- The sign of what is read does not change its size. -/
theorem ofDecimal_eq_of_abs {digits : Nat} {exponent : Int} {x : Binary64}
    (hfinite : x.isFinite) (hx : x.significand ≠ 0)
    (h : ofDecimal false digits exponent = x.abs) :
    ofDecimal x.negative digits exponent = x := by
  obtain ⟨hdigits, hreach⟩ := inReach_of_ofDecimal (x := x.abs) hfinite hx h
  rw [ofDecimal_eq_ofRatio _ hdigits hreach] at h ⊢
  have hsign : ∀ (negative : Bool) (numerator denominator : Nat),
      ofRatio negative numerator denominator =
        { ofRatio false numerator denominator with negative } := by
    intro negative numerator denominator
    unfold ofRatio
    dsimp only
    split <;> rfl
  rw [hsign, h]
  rfl

end Binary64

end EditorScript
