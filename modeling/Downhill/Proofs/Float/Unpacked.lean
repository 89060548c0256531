/-
The numbers that floats stand for.

Core reads a float as a sign, a mantissa and an exponent.  `magnitude` and `valueOf`
turn this into a rational.  An infinity counts as the number that would come after
the largest finite one, so that overflow is a cut at `limit` and infinities need no
cases of their own where floats are compared.

Mantissas and exponents that come out of a float are in one form only, `Canonical`.
This is what lets core compare them digit by digit; `compare_eq` says that comparing
the numbers is the same.
-/
import Mathlib

namespace Downhill

namespace Binary64

open Float.Model Float.Model.UnpackedFloat

/-! ### Numbers -/

/-- What a sign multiplies by. -/
def factor : Sign → ℚ
  | .positive => 1
  | .negative => -1

/-- The size of a finite number. -/
def magnitude (m : ℕ) (e : ℤ) : ℚ := m * 2 ^ e

/-- The end of the range of finite floats. -/
def limit : ℚ := 2 ^ 1024

/-- The number that an unpacked float stands for, and zero for NaN. -/
def valueOf : UnpackedFloat → ℚ
  | .finite s m e _ => factor s * magnitude m e
  | .infinity s => factor s * limit
  | .zero _ | .notANumber => 0

@[simp]
theorem valueOf_zero (s : Sign) : valueOf (.zero s) = 0 := rfl

theorem limit_pos : 0 < limit := by
  rw [limit]
  positivity

theorem magnitude_pos {m : ℕ} (hm : 0 < m) (e : ℤ) : 0 < magnitude m e := by
  rw [magnitude]
  positivity

/-! ### Signs -/

theorem sign_apply_eq (s : Sign) (m : ℕ) : ((s.apply m : ℤ) : ℚ) = factor s * m := by
  cases s
  · rw [factor, neg_one_mul]
    exact Int.cast_neg _
  · rw [factor, one_mul]
    rfl

theorem factor_mul (s t : Sign) : factor (s * t) = factor s * factor t := by
  cases s <;> cases t
  · exact ((neg_mul_neg 1 1).trans (one_mul (1 : ℚ))).symm
  · exact (mul_one (-1 : ℚ)).symm
  · exact (one_mul (-1 : ℚ)).symm
  · exact (one_mul (1 : ℚ)).symm

theorem abs_factor_mul (s : Sign) {x : ℚ} (h : 0 ≤ x) : |factor s * x| = x := by
  cases s
  · rw [factor, neg_one_mul, abs_neg, abs_of_nonneg h]
  · rw [factor, one_mul, abs_of_nonneg h]

/-! ### Canonical form -/

/-- The one form of a mantissa and an exponent that the format keeps: all 53 digits
are used, unless the exponent is the smallest. -/
structure Canonical (m : ℕ) (e : ℤ) : Prop where
  mantissa_lt : m < 2 ^ 53
  le_exponent : -1074 ≤ e
  full : -1074 < e → 2 ^ 52 ≤ m

/-- Rounded to the format, but possibly beyond its range. -/
def Rounded : UnpackedFloat → Prop
  | .finite _ m e _ => Canonical m e
  | _ => True

/-- Rounded to the format and within its range. -/
def Stored : UnpackedFloat → Prop
  | .finite _ m e _ => Canonical m e ∧ e ≤ 971
  | _ => True

section

variable {m m₁ m₂ : ℕ} {e e₁ e₂ : ℤ}

theorem Canonical.magnitude_lt (h : Canonical m e) : magnitude m e < 2 ^ (53 + e) := by
  rw [magnitude, zpow_add₀ two_ne_zero]
  gcongr
  exact_mod_cast h.mantissa_lt

theorem Canonical.le_magnitude (h : Canonical m e) (he : -1074 < e) :
    2 ^ (52 + e) ≤ magnitude m e := by
  rw [magnitude, zpow_add₀ two_ne_zero]
  gcongr
  exact_mod_cast h.full he

/-- A finite float is below the end of the range. -/
theorem Canonical.magnitude_lt_limit (h : Canonical m e) (he : e ≤ 971) :
    magnitude m e < limit := by
  refine h.magnitude_lt.trans_le ?_
  rw [limit, ← zpow_natCast]
  exact zpow_le_zpow_right₀ one_le_two (by push_cast; omega)

/-- What is beyond the range is not below the end of it. -/
theorem Canonical.limit_le_magnitude (h : Canonical m e) (he : 971 < e) :
    limit ≤ magnitude m e := by
  refine le_trans ?_ (h.le_magnitude (by omega))
  rw [limit, ← zpow_natCast]
  exact zpow_le_zpow_right₀ one_le_two (by push_cast; omega)

/-- In canonical form, a smaller exponent means a smaller number. -/
theorem Canonical.magnitude_lt_magnitude (h₁ : Canonical m₁ e₁) (h₂ : Canonical m₂ e₂)
    (h : e₁ < e₂) : magnitude m₁ e₁ < magnitude m₂ e₂ := by
  refine h₁.magnitude_lt.trans_le (le_trans ?_ (h₂.le_magnitude (h₁.le_exponent.trans_lt h)))
  exact zpow_le_zpow_right₀ one_le_two (by omega)

/-- Comparing exponents first and mantissas second compares the numbers. -/
theorem Canonical.compare_magnitude (h₁ : Canonical m₁ e₁) (h₂ : Canonical m₂ e₂) :
    (compare e₁ e₂).then (compare m₁ m₂) = compare (magnitude m₁ e₁) (magnitude m₂ e₂) := by
  rcases lt_trichotomy e₁ e₂ with lt | rfl | gt
  · rw [compare_lt_iff_lt.mpr lt, compare_lt_iff_lt.mpr (h₁.magnitude_lt_magnitude h₂ lt)]
    rfl
  · have scaled : (0 : ℚ) < 2 ^ e₁ := by positivity
    rw [compare_eq_iff_eq.mpr rfl, Ordering.then]
    rcases lt_trichotomy m₁ m₂ with lt | rfl | gt
    · rw [compare_lt_iff_lt.mpr lt, eq_comm, compare_lt_iff_lt]
      exact mul_lt_mul_of_pos_right (by exact_mod_cast lt) scaled
    · rw [compare_eq_iff_eq.mpr rfl, compare_eq_iff_eq.mpr rfl]
    · rw [compare_gt_iff_gt.mpr gt, eq_comm, compare_gt_iff_gt]
      exact mul_lt_mul_of_pos_right (by exact_mod_cast gt) scaled
  · rw [compare_gt_iff_gt.mpr gt, compare_gt_iff_gt.mpr (h₂.magnitude_lt_magnitude h₁ gt)]
    rfl

end

/-! ### Comparison -/

section

variable {x y : ℚ}

@[simp]
theorem lt_eq_compare_iff : Ordering.lt = compare x y ↔ x < y :=
  eq_comm.trans compare_lt_iff_lt

@[simp]
theorem gt_eq_compare_iff : Ordering.gt = compare x y ↔ y < x :=
  eq_comm.trans compare_gt_iff_gt

theorem compare_neg_neg (x y : ℚ) : compare (-x) (-y) = (compare x y).swap := by
  rcases lt_trichotomy x y with lt | rfl | gt
  · rw [compare_lt_iff_lt.mpr lt, compare_gt_iff_gt.mpr (neg_lt_neg lt)]
    rfl
  · rw [compare_eq_iff_eq.mpr rfl, compare_eq_iff_eq.mpr rfl]
    rfl
  · rw [compare_gt_iff_gt.mpr gt, compare_lt_iff_lt.mpr (neg_lt_neg gt)]
    rfl

end

/-- The larger sign belongs to the larger infinity. -/
theorem compare_sign (s t : Sign) :
    compare s t = compare (factor s * limit) (factor t * limit) := by
  have := limit_pos
  cases s <;> cases t
  · exact (compare_eq_iff_eq.mpr rfl).symm
  · exact lt_eq_compare_iff.mpr (by simp only [factor]; linarith)
  · exact gt_eq_compare_iff.mpr (by simp only [factor]; linarith)
  · exact (compare_eq_iff_eq.mpr rfl).symm

/-- **Unless one is NaN, floats compare like the numbers they stand for.** -/
theorem compare_eq {a b : UnpackedFloat} (ha : Stored a) (hb : Stored b)
    (not_nan_a : a.isNaN = false) (not_nan_b : b.isNaN = false) :
    a.compare b = some (compare (valueOf a) (valueOf b)) := by
  -- Where the signs or the kinds of number differ they decide, by these bounds.
  have range := limit_pos
  cases a with
  | notANumber => cases not_nan_a
  | infinity s =>
      cases b with
      | notANumber => cases not_nan_b
      | infinity t => exact congrArg some (compare_sign s t)
      | zero t => cases s <;> simp [UnpackedFloat.compare, valueOf, factor, range]
      | finite t n f hn =>
          have below := hb.1.magnitude_lt_limit hb.2
          have pos := magnitude_pos hn f
          cases s <;> cases t <;> simp [UnpackedFloat.compare, valueOf, factor] <;> linarith
  | zero s =>
      cases b with
      | notANumber => cases not_nan_b
      | infinity t => cases t <;> simp [UnpackedFloat.compare, valueOf, factor, range]
      | zero t => exact congrArg some (compare_eq_iff_eq.mpr rfl).symm
      | finite t n f hn =>
          have pos := magnitude_pos hn f
          cases t <;> simp [UnpackedFloat.compare, valueOf, factor, pos]
  | finite s m e hm =>
      have below := ha.1.magnitude_lt_limit ha.2
      have pos := magnitude_pos hm e
      cases b with
      | notANumber => cases not_nan_b
      | infinity t =>
          cases s <;> cases t <;> simp [UnpackedFloat.compare, valueOf, factor] <;> linarith
      | zero t => cases s <;> simp [UnpackedFloat.compare, valueOf, factor, pos]
      | finite t n f hn =>
          have digits := ha.1.compare_magnitude hb.1
          have pos' := magnitude_pos hn f
          cases s <;> cases t <;>
            simp [UnpackedFloat.compare, valueOf, factor, digits, compare_neg_neg] <;> linarith

end Binary64

end Downhill
