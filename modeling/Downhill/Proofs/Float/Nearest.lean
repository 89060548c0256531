/-
Rounding to 53 binary digits, over the rationals.

`nearest x` is the multiple of `2 ^ unit x` closest to `x`, where `unit x` is what the
last of 53 digits is worth in a number of that size, and never less than the smallest
distance between two floats.  Ties go to the even multiple.  Numbers of any size can
be rounded here; what is too large for a float is cut off later.

Four facts are used: rounding is monotone (`nearest_mono`), it respects signs
(`nearest_neg`), and it leaves alone whatever 53 digits can hold
(`nearest_eq_self`), zero among them.
-/
import Mathlib.Algebra.Order.Field.Power
import Mathlib.Data.Int.Log
import Mathlib.Data.Rat.Floor
import Mathlib.Tactic.Linarith
import Mathlib.Tactic.Positivity
import Mathlib.Tactic.Ring

namespace Downhill

namespace Binary64

/-! ### To an integer -/

/-- The closest integer, and the even one of two that are equally close. -/
def nearestEven (x : ℚ) : ℤ :=
  if Int.fract x < 1 / 2 then ⌊x⌋
  else if 1 / 2 < Int.fract x then ⌊x⌋ + 1
  else ⌊x⌋ + ⌊x⌋ % 2

theorem floor_le_nearestEven (x : ℚ) : ⌊x⌋ ≤ nearestEven x := by
  unfold nearestEven
  split_ifs <;> omega

theorem nearestEven_le_floor_add_one (x : ℚ) : nearestEven x ≤ ⌊x⌋ + 1 := by
  unfold nearestEven
  split_ifs <;> omega

theorem nearestEven_intCast (n : ℤ) : nearestEven n = n := by
  simp [nearestEven]

theorem nearestEven_mono {x y : ℚ} (h : x ≤ y) : nearestEven x ≤ nearestEven y := by
  rcases (Int.floor_mono h).lt_or_eq with below | same
  · calc nearestEven x ≤ ⌊x⌋ + 1 := nearestEven_le_floor_add_one x
      _ ≤ ⌊y⌋ := below
      _ ≤ nearestEven y := floor_le_nearestEven y
  · have fract_le : Int.fract x ≤ Int.fract y := by
      rw [Int.fract, Int.fract, same]
      linarith
    unfold nearestEven
    rw [same]
    split_ifs <;> first | omega | linarith

theorem nearestEven_neg (x : ℚ) : nearestEven (-x) = -nearestEven x := by
  by_cases whole : Int.fract x = 0
  · obtain ⟨n, rfl⟩ := Int.fract_eq_zero_iff.mp whole
    rw [← Int.cast_neg, nearestEven_intCast, nearestEven_intCast]
  · have floor_neg : ⌊-x⌋ = -⌊x⌋ - 1 := by
      have sum_x := Int.floor_add_fract x
      have sum_neg := Int.floor_add_fract (-x)
      rw [Int.fract_neg whole] at sum_neg
      have : ((⌊-x⌋ : ℤ) : ℚ) = ((-⌊x⌋ - 1 : ℤ) : ℚ) := by
        push_cast
        linarith
      exact_mod_cast this
    unfold nearestEven
    rw [Int.fract_neg whole, floor_neg]
    split_ifs <;> first | omega | linarith

/-! ### To 53 digits -/

/-- The exponent of the last digit of a number. -/
def unit (x : ℚ) : ℤ := max (Int.log 2 |x| - 52) (-1074)

/-- The closest number of 53 digits. -/
def nearest (x : ℚ) : ℚ := nearestEven (x / 2 ^ unit x) * 2 ^ unit x

theorem le_unit (x : ℚ) : -1074 ≤ unit x := le_max_right _ _

theorem unit_neg (x : ℚ) : unit (-x) = unit x := by
  rw [unit, abs_neg, unit]

theorem unit_mono {x y : ℚ} (hx : 0 < x) (h : x ≤ y) : unit x ≤ unit y := by
  rw [unit, unit, abs_of_pos hx, abs_of_pos (hx.trans_le h)]
  exact max_le_max (Int.sub_le_sub_right (Int.log_mono_right hx h) 52) le_rfl

/-- A number has at most 53 digits before its unit. -/
theorem div_unit_le {x : ℚ} (hx : 0 < x) : x / 2 ^ unit x ≤ 2 ^ 53 := by
  have below := Int.lt_zpow_succ_log_self one_lt_two x
  rw [div_le_iff₀ (by positivity), ← zpow_natCast, ← zpow_add₀ two_ne_zero]
  refine below.le.trans (zpow_le_zpow_right₀ one_le_two ?_)
  have := le_max_left (Int.log 2 |x| - 52) (-1074)
  rw [← unit, abs_of_pos hx] at this
  push_cast
  omega

/-- A number has all of 53 digits, unless its unit is the smallest. -/
theorem le_div_unit {x : ℚ} (hx : 0 < x) (h : -1074 < unit x) : 2 ^ 52 ≤ x / 2 ^ unit x := by
  have above := Int.zpow_log_le_self one_lt_two hx
  rw [le_div_iff₀ (by positivity), ← zpow_natCast, ← zpow_add₀ two_ne_zero]
  refine (zpow_le_zpow_right₀ one_le_two ?_).trans above
  rw [unit, lt_max_iff] at h
  have : unit x = Int.log 2 |x| - 52 := max_eq_left (by omega)
  rw [abs_of_pos hx] at this
  push_cast
  omega

theorem digits_le {x : ℚ} (hx : 0 < x) : nearestEven (x / 2 ^ unit x) ≤ 2 ^ 53 := by
  rw [← nearestEven_intCast (2 ^ 53)]
  exact nearestEven_mono (by exact_mod_cast div_unit_le hx)

theorem le_digits {x : ℚ} (hx : 0 < x) (h : -1074 < unit x) :
    2 ^ 52 ≤ nearestEven (x / 2 ^ unit x) := by
  rw [← nearestEven_intCast (2 ^ 52)]
  exact nearestEven_mono (by exact_mod_cast le_div_unit hx h)

theorem nearest_zero : nearest 0 = 0 := by
  rw [nearest, zero_div, ← Int.cast_zero, nearestEven_intCast, Int.cast_zero, zero_mul]

theorem nearest_neg (x : ℚ) : nearest (-x) = -nearest x := by
  rw [nearest, unit_neg, neg_div, nearestEven_neg, Int.cast_neg, neg_mul, nearest]

theorem nearest_nonneg {x : ℚ} (h : 0 ≤ x) : 0 ≤ nearest x := by
  have := nearestEven_mono (div_nonneg h (zpow_nonneg (zero_le_two (α := ℚ)) (unit x)))
  rw [← Int.cast_zero, nearestEven_intCast] at this
  exact mul_nonneg (by exact_mod_cast this) (by positivity)

/-- Rounding is monotone where everything is positive.  Between two numbers with the
same unit the digits decide.  If the units differ, all 53 digits of the smaller number
are worth no more than the first digit of the larger one. -/
theorem nearest_le_nearest_of_pos {x y : ℚ} (hx : 0 < x) (h : x ≤ y) : nearest x ≤ nearest y := by
  rcases (unit_mono hx h).lt_or_eq with below | same
  · calc nearest x ≤ 2 ^ 53 * 2 ^ unit x := by
          rw [nearest]
          gcongr
          exact_mod_cast digits_le hx
      _ = 2 ^ 52 * 2 ^ (unit x + 1) := by
          rw [zpow_add₀ two_ne_zero]
          ring
      _ ≤ 2 ^ 52 * 2 ^ unit y := by
          gcongr
          · exact one_le_two
          · exact below
      _ ≤ nearest y := by
          rw [nearest]
          gcongr
          exact_mod_cast le_digits (hx.trans_le h) ((le_unit x).trans_lt below)
  · rw [nearest, nearest, same]
    gcongr
    exact nearestEven_mono (by gcongr)

/-- **Rounding is monotone.** -/
theorem nearest_mono {x y : ℚ} (h : x ≤ y) : nearest x ≤ nearest y := by
  rcases lt_trichotomy 0 x with pos | rfl | neg
  · exact nearest_le_nearest_of_pos pos h
  · rw [nearest_zero]
    exact nearest_nonneg h
  · rcases lt_or_ge y 0 with neg_y | nonneg_y
    · have := nearest_le_nearest_of_pos (neg_pos.mpr neg_y) (neg_le_neg h)
      rwa [nearest_neg, nearest_neg, neg_le_neg_iff] at this
    · have nonpos_x := nearest_nonneg (neg_nonneg.mpr neg.le)
      rw [nearest_neg, neg_nonneg] at nonpos_x
      exact nonpos_x.trans (nearest_nonneg nonneg_y)

/-- **What 53 digits can hold is not rounded.** -/
theorem nearest_eq_self {m e : ℤ} (hm : |m| < 2 ^ 53) (he : -1074 ≤ e) :
    nearest (m * 2 ^ e) = m * 2 ^ e := by
  rcases eq_or_ne m 0 with rfl | nonzero
  · rw [Int.cast_zero, zero_mul, nearest_zero]
  have unit_le : unit (m * 2 ^ e) ≤ e := by
    refine max_le ?_ he
    have size_pos : (0 : ℚ) < |(m : ℚ) * 2 ^ e| := by positivity
    have size_lt : |(m : ℚ) * 2 ^ e| < 2 ^ (53 + e) := by
      rw [abs_mul, abs_of_pos (by positivity : (0 : ℚ) < 2 ^ e), zpow_add₀ two_ne_zero]
      gcongr
      exact_mod_cast hm
    have := (Int.lt_zpow_iff_log_lt (b := 2) one_lt_two size_pos).mp (by exact_mod_cast size_lt)
    omega
  -- The number is a whole multiple of its unit.
  rw [nearest]
  generalize unit (m * 2 ^ e) = u at unit_le ⊢
  obtain ⟨k, rfl⟩ := Int.le.dest unit_le
  have scaled : (m : ℚ) * 2 ^ (u + k) / 2 ^ u = (m * 2 ^ k : ℤ) := by
    rw [div_eq_iff (by positivity), zpow_add₀ two_ne_zero]
    push_cast
    rw [zpow_natCast]
    ring
  rw [scaled, nearestEven_intCast, ← scaled, div_mul_cancel₀ _ (by positivity)]

end Binary64

end Downhill
