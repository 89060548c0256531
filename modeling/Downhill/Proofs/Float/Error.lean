/-
How far rounding moves a number.

The nearest number of 53 digits is at most half a unit of the last digit away.  For numbers
below a power of two this is a bound that does not depend on the number
(`abs_nearest_sub_le_of_lt`).

Relative to the number itself the bound is a part in `2 ^ 53`, but only where all 53 digits are
used.  Among the smallest numbers they are not, yet sums, differences and whole multiples of
floats are then multiples of the smallest unit and are not rounded at all, so for these the
relative bound holds everywhere (`abs_nearest_sub_le_of_multiple`).

The other way round, what is at most half a unit away from a number rounds to it (`nearest_eq`).
Only below a power of two, where the unit is half as large, it has to be closer
(`nearest_below_power`).
-/
import Downhill.Proofs.Float.Subtraction

namespace Downhill

namespace Binary64

/-! ### To an integer -/

theorem abs_nearestEven_sub_le (x : ℚ) : |(nearestEven x : ℚ) - x| ≤ 1 / 2 := by
  have split := Int.floor_add_fract x
  have fract_nonneg := Int.fract_nonneg x
  have fract_lt := Int.fract_lt_one x
  have parity := Int.emod_two_eq_zero_or_one ⌊x⌋
  rw [abs_le]
  unfold nearestEven
  split_ifs with below above
  · constructor <;> linarith
  · push_cast
    constructor <;> linarith
  · rcases parity with even | odd
    · rw [even]
      push_cast
      constructor <;> linarith
    · rw [odd]
      push_cast
      constructor <;> linarith

/-- What is less than one half below an integer is not rounded to a smaller one. -/
theorem le_nearestEven {x : ℚ} {n : ℤ} (h : n - 1 / 2 < x) : n ≤ nearestEven x := by
  obtain ⟨lower, -⟩ := abs_le.mp (abs_nearestEven_sub_le x)
  have above : (n : ℚ) - 1 < nearestEven x := by linarith
  have : n - 1 < nearestEven x := by exact_mod_cast above
  omega

/-! ### To 53 digits -/

theorem abs_nearest_sub_le (x : ℚ) : |nearest x - x| ≤ 2 ^ unit x / 2 := by
  have pos : (0 : ℚ) < 2 ^ unit x := by positivity
  have scaled : nearest x - x = (nearestEven (x / 2 ^ unit x) - x / 2 ^ unit x) * 2 ^ unit x := by
    rw [nearest, sub_mul, div_mul_cancel₀ _ pos.ne']
  rw [scaled, abs_mul, abs_of_pos pos, div_eq_mul_one_div (2 ^ unit x : ℚ) 2, mul_comm]
  exact mul_le_mul_of_nonneg_left (abs_nearestEven_sub_le _) pos.le

/-- What is less than half a unit below a multiple of its unit is not rounded below that. -/
theorem le_nearest {x : ℚ} {n : ℤ} (h : (n - 1 / 2) * 2 ^ unit x < x) :
    n * 2 ^ unit x ≤ nearest x := by
  have pos : (0 : ℚ) < 2 ^ unit x := by positivity
  rw [nearest]
  refine mul_le_mul_of_nonneg_right ?_ pos.le
  exact_mod_cast le_nearestEven ((lt_div_iff₀ pos).mpr h)

theorem unit_le_of_abs_lt {x : ℚ} {k : ℤ} (nonzero : x ≠ 0) (h : |x| < 2 ^ (k + 53))
    (hk : -1074 ≤ k) : unit x ≤ k := by
  have below := (Int.lt_zpow_iff_log_lt (b := 2) one_lt_two (abs_pos.mpr nonzero)).mp
    (by exact_mod_cast h)
  exact max_le (by omega) hk

theorem abs_nearest_sub_le_of_lt {x : ℚ} {k : ℤ} (h : |x| < 2 ^ (k + 53)) (hk : -1074 ≤ k) :
    |nearest x - x| ≤ 2 ^ k / 2 := by
  rcases eq_or_ne x 0 with rfl | nonzero
  · rw [nearest_zero, sub_zero, abs_zero]
    positivity
  · refine (abs_nearest_sub_le x).trans ?_
    gcongr
    · exact one_le_two
    · exact unit_le_of_abs_lt nonzero h hk

/-- **Rounding moves a multiple of the smallest unit by at most a part in `2 ^ 53`.** -/
theorem abs_nearest_sub_le_of_multiple {x : ℚ} (multiple : ∃ n : ℤ, x = n * 2 ^ (-1074 : ℤ)) :
    |nearest x - x| ≤ |x| / 2 ^ 53 := by
  rcases eq_or_ne x 0 with rfl | nonzero
  · rw [nearest_zero, sub_zero, abs_zero, zero_div]
  · rcases (le_unit x).eq_or_lt with least | above
    · obtain ⟨n, hn⟩ := multiple
      have whole : x / 2 ^ unit x = n := by
        rw [← least]
        exact (div_eq_iff (by positivity)).mpr hn
      have same : nearest x = x := by
        rw [nearest, whole, nearestEven_intCast, ← whole, div_mul_cancel₀ _ (by positivity)]
      rw [same, sub_self, abs_zero]
      positivity
    · have unit_abs : unit |x| = unit x := by rw [unit, abs_abs, unit]
      have digits := le_div_unit (abs_pos.mpr nonzero) (above.trans_eq unit_abs.symm)
      rw [unit_abs, le_div_iff₀ (by positivity)] at digits
      refine (abs_nearest_sub_le x).trans ?_
      rw [div_le_div_iff₀ two_pos (by positivity)]
      linarith

/-! ### What rounds to a number -/

/-- What is at most one half away from an integer rounds to it, and at one half if it is even. -/
theorem nearestEven_eq {z : ℚ} {n : ℤ} (near : |z - n| ≤ 1 / 2)
    (tie : |z - n| = 1 / 2 → n % 2 = 0) : nearestEven z = n := by
  obtain ⟨lower, upper⟩ := abs_le.mp near
  have split := Int.floor_add_fract z
  by_cases above : (n : ℚ) ≤ z
  · have floor_eq : ⌊z⌋ = n := Int.floor_eq_iff.mpr ⟨above, by linarith⟩
    rw [floor_eq] at split
    rw [abs_of_nonneg (sub_nonneg.mpr above)] at tie
    unfold nearestEven
    rw [floor_eq]
    split_ifs with below beyond
    · rfl
    · linarith
    · rw [tie (by linarith), add_zero]
  · have floor_eq : ⌊z⌋ = n - 1 := by
      refine Int.floor_eq_iff.mpr ⟨?_, ?_⟩ <;> push_cast <;> linarith
    rw [floor_eq] at split
    rw [abs_of_neg (sub_neg.mpr (not_le.mp above))] at tie
    push_cast at split
    unfold nearestEven
    rw [floor_eq]
    split_ifs with below beyond
    · linarith
    · omega
    · have even := tie (by linarith)
      omega

/-- The unit of a number of 53 digits. -/
theorem unit_eq {y : ℚ} {e : ℤ} (pos : 0 < y) (lt : y < 2 ^ 53 * 2 ^ e) (he : -1074 ≤ e)
    (full : -1074 < e → 2 ^ 52 * 2 ^ e ≤ y) : unit y = e := by
  have shifted : ∀ k : ℕ, (2 : ℚ) ^ k * 2 ^ e = (2 : ℕ) ^ (e + k) := by
    intro k
    rw [Nat.cast_ofNat, zpow_add₀ two_ne_zero, zpow_natCast, mul_comm]
  rw [shifted] at lt full
  have at_most : unit y ≤ e := unit_le_of_abs_lt pos.ne' ((abs_of_pos pos).trans_lt lt) he
  rcases he.eq_or_lt with least | above
  · exact le_antisymm at_most (least ▸ le_unit y)
  · have log_ge := (Int.zpow_le_iff_le_log one_lt_two pos).mp (full above)
    refine le_antisymm at_most (le_max_of_le_left ?_)
    rw [abs_of_pos pos]
    omega

/-- What is at most half a unit away from a number of its unit rounds to it. -/
theorem nearest_eq {y : ℚ} {m e : ℤ} (unit_eq : unit y = e) (near : |y - m * 2 ^ e| ≤ 2 ^ e / 2)
    (tie : |y - m * 2 ^ e| = 2 ^ e / 2 → m % 2 = 0) : nearest y = m * 2 ^ e := by
  have pos : (0 : ℚ) < 2 ^ e := by positivity
  have scaled : |y / 2 ^ e - m| = |y - m * 2 ^ e| / 2 ^ e := by
    rw [← abs_of_pos pos, ← abs_div, abs_of_pos pos, sub_div, mul_div_cancel_right₀ _ pos.ne']
  rw [nearest, unit_eq, nearestEven_eq]
  · rw [scaled, div_le_iff₀ pos]
    linarith
  · intro at_half
    rw [scaled, div_eq_iff pos.ne'] at at_half
    exact tie (by linarith)

/-- Below a power of two the unit is half as large, so what rounds to the power is closer to
it. -/
theorem nearest_below_power {y : ℚ} {e : ℤ} (he : -1074 < e)
    (close : (2 ^ 52 - 1 / 4) * 2 ^ e ≤ y) (below : y < 2 ^ 52 * 2 ^ e) :
    nearest y = 2 ^ 52 * 2 ^ e := by
  have pos : (0 : ℚ) < 2 ^ e := by positivity
  have half : (2 : ℚ) ^ (e - 1) = 2 ^ e / 2 := by
    rw [zpow_sub_one₀ two_ne_zero, div_eq_mul_inv]
  have unit_eq : unit y = e - 1 := by
    refine unit_eq (lt_of_lt_of_le (mul_pos (by norm_num) pos) close) ?_ (by omega) fun _ => ?_
    · rw [half]
      linarith
    · rw [half]
      linarith
  have doubled : ((2 ^ 53 : ℤ) : ℚ) * 2 ^ (e - 1) = 2 ^ 52 * 2 ^ e := by
    rw [half]
    push_cast
    ring
  rw [← doubled]
  refine nearest_eq unit_eq ?_ fun _ => by norm_num
  rw [doubled, half, abs_le]
  constructor <;> linarith

/-! ### Floats -/

theorem rounded_eq_nearest {x : ℚ} (h : |rounded x| < limit) : rounded x = nearest x := by
  obtain ⟨lower, upper⟩ := abs_lt.mp h
  rw [rounded, clamp] at lower upper ⊢
  have not_above : nearest x < limit := by
    by_contra beyond
    rw [min_eq_right (not_lt.mp beyond)] at upper
    exact (le_max_right _ _).not_gt upper
  rw [min_eq_left not_above.le] at lower ⊢
  exact max_eq_right ((lt_max_iff.mp lower).resolve_left (lt_irrefl _)).le

/-- Rounding moves a number below a power of two by at most half a unit of that power. -/
theorem abs_rounded_sub_le {x : ℚ} {k : ℤ} (h : |x| < 2 ^ (k + 53)) (hk : -1074 ≤ k)
    (hk' : k ≤ 970) : |rounded x - x| ≤ 2 ^ k / 2 := by
  have moved := abs_nearest_sub_le_of_lt h hk
  have in_range : |nearest x| ≤ limit := by
    have unit_le : (2 : ℚ) ^ k / 2 ≤ 2 ^ (k + 53) := by
      rw [zpow_add₀ two_ne_zero]
      have pos : (0 : ℚ) < 2 ^ k := by positivity
      norm_num
      linarith
    calc |nearest x| ≤ |x| + |nearest x - x| := by
          rw [← sub_le_iff_le_add']
          exact abs_sub_abs_le_abs_sub _ _
      _ ≤ 2 ^ (k + 53) + 2 ^ (k + 53) := add_le_add h.le (moved.trans unit_le)
      _ = 2 ^ (k + 54) := by
          rw [← two_mul, mul_comm, ← zpow_add_one₀ two_ne_zero, add_assoc]
          norm_num
      _ ≤ limit := by
          rw [limit, ← zpow_natCast]
          exact zpow_le_zpow_right₀ one_le_two (by push_cast; omega)
  rw [rounded, clamp_eq_self in_range]
  exact moved

/-- A finite result that is measured by the smallest unit is off by at most a part in `2 ^ 53`. -/
theorem Yields.near {x : Float} {exact : ℚ} (h : Yields x exact) (finite : x.isFinite = true)
    (multiple : ∃ n : ℤ, exact = n * 2 ^ (-1074 : ℤ)) :
    |value x - exact| ≤ |exact| / 2 ^ 53 := by
  rw [h.value_eq, rounded_eq_nearest (h.isFinite_iff.mp finite)]
  exact abs_nearest_sub_le_of_multiple multiple

theorem exists_value_sub_eq (x y : Float) :
    ∃ n : ℤ, value x - value y = n * 2 ^ (-1074 : ℤ) := by
  obtain ⟨n, hn⟩ := exists_value_eq x
  obtain ⟨k, hk⟩ := exists_value_eq y
  exact ⟨n - k, by rw [hn, hk, Int.cast_sub, sub_mul]⟩

theorem exists_natCast_mul_value_eq (n : ℕ) (x : Float) :
    ∃ k : ℤ, n * value x = k * 2 ^ (-1074 : ℤ) := by
  obtain ⟨k, hk⟩ := exists_value_eq x
  exact ⟨n * k, by rw [hk, Int.cast_mul, Int.cast_natCast, mul_assoc]⟩

end Binary64

end Downhill
