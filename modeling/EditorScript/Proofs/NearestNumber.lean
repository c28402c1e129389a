import EditorScript.Number.Binary64
import Mathlib.Algebra.Order.Ring.Nat
import Mathlib.Tactic.Linarith
import Mathlib.Tactic.Ring

/-!
# The nearest number

A fraction is rounded on the grid of the power of two that it lies next to.  What
is rounded depends on the value of the fraction only, and a fraction that differs
from a number by less than a half of its last place is rounded to that number.
-/

namespace EditorScript

namespace Binary64

/-! ## Rounded quotients -/

/-- A quotient less than a half away from a whole number is rounded to it. -/
theorem roundedDiv_eq {numerator denominator value : Nat}
    (hbelow : 2 * numerator < (2 * value + 1) * denominator)
    (habove : 2 * value * denominator < 2 * numerator + denominator) :
    roundedDiv numerator denominator = value := by
  have hpositive : 0 < denominator := by
    rcases Nat.eq_zero_or_pos denominator with rfl | h
    · simp at hbelow
    · exact h
  have hdiv := Nat.div_add_mod numerator denominator
  have hmod := Nat.mod_lt numerator hpositive
  unfold roundedDiv
  generalize hquotient : numerator / denominator = quotient at *
  generalize numerator % denominator = remainder at *
  have hlow : value ≤ quotient + 1 := by
    by_contra hlt
    have hmul : (quotient + 2) * denominator ≤ value * denominator :=
      Nat.mul_le_mul_right _ (by omega)
    nlinarith
  have hhigh : quotient ≤ value := by
    by_contra hlt
    have hmul : (value + 1) * denominator ≤ quotient * denominator :=
      Nat.mul_le_mul_right _ (by omega)
    nlinarith
  dsimp only
  rcases Nat.lt_or_eq_of_le hhigh with hlt | rfl
  · obtain rfl : value = quotient + 1 := by omega
    rw [if_pos]
    refine .inl ?_
    nlinarith
  · rw [if_neg]
    have hhalf : 2 * remainder < denominator := by nlinarith
    omega

theorem roundedDiv_mul_right (numerator denominator : Nat) {factor : Nat} (h : 0 < factor) :
    roundedDiv (numerator * factor) (denominator * factor) = roundedDiv numerator denominator := by
  have hmod : numerator * factor % (denominator * factor) = numerator % denominator * factor :=
    Nat.mul_mod_mul_right _ _ _
  have hlt : 2 * (numerator % denominator * factor) > denominator * factor ↔
      2 * (numerator % denominator) > denominator := by
    rw [← Nat.mul_assoc, gt_iff_lt, Nat.mul_lt_mul_right h]
  have heq : 2 * (numerator % denominator * factor) = denominator * factor ↔
      2 * (numerator % denominator) = denominator := by
    rw [← Nat.mul_assoc, Nat.mul_left_inj h.ne']
  unfold roundedDiv
  simp only [Nat.mul_div_mul_right _ _ h, hmod, hlt, heq]

/-! ## The scale of a fraction -/

/-- A fraction lies within the numbers of a scale. -/
structure FitsScale (numerator denominator scale : Nat) : Prop where
  below : numerator * 2 ^ 1074 < denominator * 2 ^ (scale + 53)
  normal : scale = 0 ∨ denominator * 2 ^ (scale + 52) ≤ numerator * 2 ^ 1074

theorem FitsScale.le {numerator denominator scale other : Nat}
    (h : FitsScale numerator denominator scale) (h' : FitsScale numerator denominator other) :
    scale ≤ other := by
  rcases h.normal with rfl | hnormal
  · exact Nat.zero_le _
  · have hpow : 2 ^ (scale + 52) < 2 ^ (other + 53) :=
      Nat.lt_of_mul_lt_mul_left (hnormal.trans_lt h'.below)
    have hlt := (Nat.pow_lt_pow_iff_right (by decide : 1 < 2)).mp hpow
    omega

/-- A fraction has one scale. -/
theorem FitsScale.unique {numerator denominator scale other : Nat}
    (h : FitsScale numerator denominator scale) (h' : FitsScale numerator denominator other) :
    scale = other :=
  Nat.le_antisymm (h.le h') (h'.le h)

theorem FitsScale.mul_right {numerator denominator scale factor : Nat} (hfactor : 0 < factor)
    (h : FitsScale numerator denominator scale) :
    FitsScale (numerator * factor) (denominator * factor) scale where
  below := by
    rw [Nat.mul_right_comm, Nat.mul_right_comm denominator]
    exact (Nat.mul_lt_mul_right hfactor).mpr h.below
  normal := by
    rw [Nat.mul_right_comm, Nat.mul_right_comm numerator]
    exact h.normal.imp_right fun hle => Nat.mul_le_mul_right _ hle

/-- Moving a power of two to the other side of a comparison does not change it. -/
theorem reached_eq (numerator denominator guess : Nat) :
    (if guess ≥ 1074 then decide (numerator ≥ denominator * Nat.pow 2 (guess - 1074))
      else decide (numerator * Nat.pow 2 (1074 - guess) ≥ denominator)) =
      decide (denominator * 2 ^ guess ≤ numerator * 2 ^ 1074) := by
  simp only [Nat.pow_eq, ge_iff_le]
  split
  · rename_i hle
    have hguess : denominator * 2 ^ guess = denominator * 2 ^ (guess - 1074) * 2 ^ 1074 := by
      rw [Nat.mul_assoc, ← Nat.pow_add, Nat.sub_add_cancel hle]
    exact decide_eq_decide.mpr (by rw [hguess, Nat.mul_le_mul_right_iff (Nat.two_pow_pos _)])
  · rename_i hlt
    have hguess : numerator * 2 ^ 1074 = numerator * 2 ^ (1074 - guess) * 2 ^ guess := by
      rw [Nat.mul_assoc, ← Nat.pow_add, Nat.sub_add_cancel (by omega)]
    exact decide_eq_decide.mpr (by rw [hguess, Nat.mul_le_mul_right_iff (Nat.two_pow_pos _)])

/-- The scale of a positive fraction is found from the logarithms of its parts. -/
theorem fitsScale_scaleOf {numerator denominator : Nat} (hnumerator : numerator ≠ 0)
    (hdenominator : denominator ≠ 0) :
    FitsScale numerator denominator (scaleOf numerator denominator) := by
  have hlow := Nat.log2_self_le hnumerator
  have hhigh : numerator < 2 ^ (numerator.log2 + 1) := Nat.lt_log2_self
  have hlow' := Nat.log2_self_le hdenominator
  have hhigh' : denominator < 2 ^ (denominator.log2 + 1) := Nat.lt_log2_self
  unfold scaleOf
  simp only [reached_eq]
  generalize numerator.log2 = log at *
  generalize denominator.log2 = log' at *
  have habove : numerator * 2 ^ 1074 < 2 ^ (log + 1075) := by
    have hmul := (Nat.mul_lt_mul_right (Nat.two_pow_pos 1074)).mpr hhigh
    rwa [← Nat.pow_add, Nat.add_assoc] at hmul
  have hbelow : 2 ^ (log + 1074) ≤ numerator * 2 ^ 1074 := by
    rw [Nat.pow_add]
    exact Nat.mul_le_mul_right _ hlow
  have hscaled : ∀ power, 2 ^ (log' + power) ≤ denominator * 2 ^ power := fun power => by
    rw [Nat.pow_add]
    exact Nat.mul_le_mul_right _ hlow'
  have hscaled' : ∀ power, denominator * 2 ^ power < 2 ^ (log' + 1 + power) := fun power => by
    rw [Nat.pow_add]
    exact (Nat.mul_lt_mul_right (Nat.two_pow_pos power)).mpr hhigh'
  have hraise : ∀ {lower power : Nat}, lower ≤ power →
      denominator * 2 ^ lower ≤ denominator * 2 ^ power := fun hle =>
    Nat.mul_le_mul_left _ (Nat.pow_le_pow_right (by decide) hle)
  by_cases hupper : log + 1074 ≥ log'
  · rw [if_pos hupper]
    by_cases hreached : denominator * 2 ^ (log + 1074 - log') ≤ numerator * 2 ^ 1074
    · rw [decide_eq_true hreached, if_pos rfl]
      constructor
      · have hend := hscaled (log + 1075 - log')
        rw [show log' + (log + 1075 - log') = log + 1075 by omega] at hend
        exact (habove.trans_le hend).trans_le (hraise (by omega))
      · by_cases hzero : log + 1074 - log' - 52 = 0
        · exact .inl hzero
        · refine .inr ?_
          rwa [show log + 1074 - log' - 52 + 52 = log + 1074 - log' by omega]
    · rw [decide_eq_false hreached, if_neg (by decide)]
      constructor
      · exact (Nat.lt_of_not_le hreached).trans_le (hraise (by omega))
      · by_cases hzero : log + 1074 - log' - 1 - 52 = 0
        · exact .inl hzero
        · refine .inr ?_
          have hend := hscaled' (log + 1074 - log' - 1)
          rw [show log' + 1 + (log + 1074 - log' - 1) = log + 1074 by omega] at hend
          rw [show log + 1074 - log' - 1 - 52 + 52 = log + 1074 - log' - 1 by omega]
          exact hend.le.trans hbelow
  · rw [if_neg hupper, if_neg (by decide)]
    constructor
    · have hend : 2 ^ (log + 1075) ≤ 2 ^ log' := Nat.pow_le_pow_right (by decide) (by omega)
      exact habove.trans_le (hend.trans (hlow'.trans (Nat.le_mul_of_pos_right _
        (Nat.two_pow_pos _))))
    · exact .inl (by omega)

/-! ## The nearest number -/

/-- What is rounded: the fraction on the grid of its scale. -/
theorem ofRatio_eq (negative : Bool) {numerator denominator scale : Nat}
    (hnumerator : numerator ≠ 0) (hdenominator : denominator ≠ 0)
    (hscale : FitsScale numerator denominator scale) :
    ofRatio negative numerator denominator =
      ofCode negative (scale * fractionCount +
        roundedDiv (numerator * 2 ^ 1074) (denominator * 2 ^ scale)) := by
  obtain rfl := (fitsScale_scaleOf hnumerator hdenominator).unique hscale
  have hnone : ¬(numerator = 0 ∨ denominator = 0) := by simp [hnumerator, hdenominator]
  simp only [ofRatio, if_neg hnone, Nat.pow_eq, ge_iff_le]
  generalize scaleOf numerator denominator = scale
  split
  · rename_i hle
    have hshift : denominator * 2 ^ scale = denominator * 2 ^ (scale - 1074) * 2 ^ 1074 := by
      rw [Nat.mul_assoc, ← Nat.pow_add, Nat.sub_add_cancel hle]
    rw [hshift, roundedDiv_mul_right _ _ (Nat.two_pow_pos _)]
  · rename_i hlt
    have hshift : numerator * 2 ^ 1074 = numerator * 2 ^ (1074 - scale) * 2 ^ scale := by
      rw [Nat.mul_assoc, ← Nat.pow_add, Nat.sub_add_cancel (by omega)]
    rw [hshift, roundedDiv_mul_right _ _ (Nat.two_pow_pos _)]

theorem ofRatio_mul_right (negative : Bool) (numerator denominator : Nat) {factor : Nat}
    (h : 0 < factor) :
    ofRatio negative (numerator * factor) (denominator * factor) =
      ofRatio negative numerator denominator := by
  by_cases hnone : numerator = 0 ∨ denominator = 0
  · have hnone' : numerator * factor = 0 ∨ denominator * factor = 0 := by
      simpa [h.ne'] using hnone
    rw [ofRatio, ofRatio, if_pos hnone, if_pos hnone']
  · rw [not_or] at hnone
    have hscale := fitsScale_scaleOf hnone.1 hnone.2
    rw [ofRatio_eq negative hnone.1 hnone.2 hscale,
      ofRatio_eq negative (Nat.mul_ne_zero hnone.1 h.ne') (Nat.mul_ne_zero hnone.2 h.ne')
        (hscale.mul_right h), Nat.mul_right_comm, Nat.mul_right_comm denominator,
      roundedDiv_mul_right _ _ h]

/-- The nearest number depends on the value of a fraction only. -/
theorem ofRatio_congr (negative : Bool) {numerator denominator other below : Nat}
    (hdenominator : denominator ≠ 0) (hbelow : below ≠ 0)
    (h : numerator * below = other * denominator) :
    ofRatio negative numerator denominator = ofRatio negative other below := by
  rw [← ofRatio_mul_right negative numerator denominator (Nat.pos_of_ne_zero hbelow), h,
    Nat.mul_comm denominator, ofRatio_mul_right negative other below
      (Nat.pos_of_ne_zero hdenominator)]

/-- The power of two of a number's last place, moved up by 1074. -/
def place (x : Binary64) : Nat :=
  max x.exponent.val 1 - 1

theorem code_eq (x : Binary64) : x.code = x.place * fractionCount + x.significand := by
  unfold code place significand
  split
  · rename_i hzero
    rw [hzero]
    rfl
  · rename_i hpositive
    obtain ⟨exponent, hexponent⟩ := Nat.exists_eq_succ_of_ne_zero hpositive
    rw [hexponent, Nat.max_eq_left (by omega), Nat.succ_sub_one, Nat.succ_mul]
    omega

theorem significand_lt (x : Binary64) : x.significand < 2 ^ 53 := by
  have hfraction := x.fraction.isLt
  unfold significand
  simp only [fractionCount] at *
  split <;> omega

/-- A number above the lowest place has all places of its significand. -/
theorem le_significand {x : Binary64} (h : x.place ≠ 0) : 2 ^ 52 ≤ x.significand := by
  unfold place at h
  unfold significand
  rw [if_neg (by omega)]
  simp only [fractionCount]
  omega

theorem magnitude_eq (x : Binary64) :
    x.magnitude.1 * 2 ^ 1074 = x.magnitude.2 * (x.significand * 2 ^ x.place) ∧
      x.magnitude.2 ≠ 0 := by
  unfold magnitude
  simp only [Nat.pow_eq]
  have hplace : max x.exponent.val 1 = x.place + 1 := by
    unfold place
    omega
  rw [hplace]
  split
  · rename_i hle
    refine ⟨?_, Nat.one_ne_zero⟩
    rw [Nat.one_mul, Nat.mul_assoc, ← Nat.pow_add, show x.place + 1 - 1075 + 1074 = x.place by omega]
  · rename_i hlt
    refine ⟨?_, (Nat.two_pow_pos _).ne'⟩
    rw [Nat.mul_left_comm, ← Nat.pow_add, show 1075 - (x.place + 1) + x.place = 1074 by omega]

theorem ofCode_code_of_finite {x : Binary64} (h : x.isFinite) : ofCode x.negative x.code = x := by
  refine ofCode_code x ?_
  have hexponent : x.exponent.val < 2047 := by simpa [isFinite] using h
  calc x.code ≤ x.exponent.val * fractionCount + fractionCount :=
        Nat.add_le_add_left x.fraction.isLt.le _
    _ = (x.exponent.val + 1) * fractionCount := (Nat.succ_mul _ _).symm
    _ ≤ 2047 * fractionCount := Nat.mul_le_mul_right _ hexponent

/-- A fraction close to a number: it differs from the number by less than a part
in `2 ^ 54` of the number. -/
structure CloseTo (x : Binary64) (numerator denominator : Nat) : Prop where
  below : numerator * 2 ^ 1074 * 2 ^ 54 <
    denominator * 2 ^ x.place * x.significand * 2 ^ 54 +
      denominator * 2 ^ x.place * x.significand
  above : denominator * 2 ^ x.place * x.significand * 2 ^ 54 <
    numerator * 2 ^ 1074 * 2 ^ 54 + denominator * 2 ^ x.place * x.significand

/-- A fraction close to a number is rounded to that number. -/
theorem ofRatio_of_closeTo {x : Binary64} (hfinite : x.isFinite) {numerator denominator : Nat}
    (h : x.CloseTo numerator denominator) :
    ofRatio x.negative numerator denominator = x := by
  have hbelow := h.below
  have habove := h.above
  have hnumerator : numerator ≠ 0 := by
    rintro rfl
    rw [Nat.zero_mul, Nat.zero_mul, Nat.zero_add] at habove
    exact absurd habove (Nat.not_lt_of_le (Nat.le_mul_of_pos_right _ (Nat.two_pow_pos _)))
  have hdenominator : denominator ≠ 0 := by
    rintro rfl
    rw [Nat.zero_mul, Nat.zero_mul, Nat.zero_mul] at hbelow
    exact absurd hbelow (Nat.not_lt_zero _)
  have hsignificand : denominator * 2 ^ x.place * x.significand ≤
      denominator * 2 ^ x.place * (2 ^ 53 - 1) :=
    Nat.mul_le_mul_left _ (Nat.le_sub_one_of_lt x.significand_lt)
  have hunit : 0 < denominator * 2 ^ x.place :=
    Nat.mul_pos (Nat.pos_of_ne_zero hdenominator) (Nat.two_pow_pos _)
  refine Eq.trans ?_ (ofCode_code_of_finite hfinite)
  by_cases hnormal : x.place = 0 ∨ denominator * 2 ^ (x.place + 52) ≤ numerator * 2 ^ 1074
  · have hscale : FitsScale numerator denominator x.place := by
      refine ⟨?_, hnormal⟩
      rw [Nat.pow_add, ← Nat.mul_assoc]
      omega
    have hrounded : roundedDiv (numerator * 2 ^ 1074) (denominator * 2 ^ x.place) =
        x.significand := by
      refine roundedDiv_eq ?_ ?_
      · rw [Nat.add_mul, Nat.one_mul, Nat.mul_assoc 2, Nat.mul_comm x.significand]
        omega
      · rw [Nat.mul_assoc 2, Nat.mul_comm x.significand]
        omega
    rw [code_eq, ofRatio_eq _ hnumerator hdenominator hscale, hrounded]
  · -- Below a power of two the numbers lie twice as dense: the fraction is on the finer grid.
    rw [not_or] at hnormal
    obtain ⟨hplace, hlow⟩ := hnormal
    have hsmall : x.significand = 2 ^ 52 := by
      refine Nat.le_antisymm ?_ (le_significand hplace)
      by_contra hlarge
      have hmul : denominator * 2 ^ x.place * (2 ^ 52 + 1) ≤
          denominator * 2 ^ x.place * x.significand := Nat.mul_le_mul_left _ (by omega)
      rw [Nat.pow_add, ← Nat.mul_assoc] at hlow
      omega
    obtain ⟨finer, hfiner⟩ := Nat.exists_eq_succ_of_ne_zero hplace
    rw [hfiner, Nat.succ_eq_add_one] at hbelow habove hlow
    rw [hsmall] at hbelow habove
    have hdouble : denominator * 2 ^ (finer + 1) = 2 * (denominator * 2 ^ finer) := by ring
    rw [hdouble] at hbelow habove
    rw [Nat.pow_add, ← Nat.mul_assoc, hdouble] at hlow
    have hscale : FitsScale numerator denominator finer := by
      constructor
      · rw [Nat.pow_add, ← Nat.mul_assoc]
        omega
      · rw [Nat.pow_add, ← Nat.mul_assoc]
        omega
    have hrounded : roundedDiv (numerator * 2 ^ 1074) (denominator * 2 ^ finer) = 2 ^ 53 := by
      generalize numerator * 2 ^ 1074 = value at *
      generalize denominator * 2 ^ finer = unit at *
      exact roundedDiv_eq (by linarith) (by linarith)
    have hcode : finer * fractionCount + 2 ^ 53 = (finer + 1) * fractionCount + 2 ^ 52 := by
      rw [Nat.succ_mul, Nat.add_assoc]
      congr 1
    rw [code_eq, hfiner, hsmall, ofRatio_eq _ hnumerator hdenominator hscale, hrounded, hcode]

/-- The fraction of a number is rounded to that number. -/
theorem ofRatio_magnitude {x : Binary64} (hfinite : x.isFinite) (h : x.significand ≠ 0) :
    ofRatio x.negative x.magnitude.1 x.magnitude.2 = x := by
  obtain ⟨hvalue, hdenominator⟩ := x.magnitude_eq
  have hpositive : 0 < x.magnitude.2 * (x.significand * 2 ^ x.place) :=
    Nat.mul_pos (Nat.pos_of_ne_zero hdenominator)
      (Nat.mul_pos (Nat.pos_of_ne_zero h) (Nat.two_pow_pos _))
  have hcomm : x.magnitude.2 * 2 ^ x.place * x.significand =
      x.magnitude.2 * (x.significand * 2 ^ x.place) := by ring
  refine ofRatio_of_closeTo hfinite ⟨?_, ?_⟩
  · rw [hvalue, hcomm]
    omega
  · rw [hvalue, hcomm]
    omega

end Binary64

end EditorScript
