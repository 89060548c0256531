/-
The ticks along an interval, and its upper end.

How many ticks there are is read off a quotient, the width of the interval in spacings, and
where they are is computed from their numbers.  The two agree only up to rounding, and the
quotient is increased by a tolerance for that reason.

With at most ten million ticks, all that is rounded on the way to the count amounts to less than
a hundred-millionth of a spacing.  So only the last tick can lie beyond the upper end, and not by
more than that, before it is itself rounded (`tick_mem`).

In the other direction the tolerance is needed.  If the multiple of the spacing that leads to the
upper end is, as it is computed, no greater than the width as it is computed, then the quotient
falls short of a whole number by no more than the tolerance makes up for (`lt_count_of_fits`).
The width of an interval far from zero may be rounded down by more than that.
-/
import Downhill.Sampling.Grid
import Downhill.Proofs.Float.Division
import Downhill.Proofs.Float.Error
import Downhill.Proofs.Float.Integers
import Downhill.Proofs.Sampling.Intervals

namespace Downhill

open Binary64

/-! ### Spacings -/

/-- A finite and positive number. -/
structure IsSpacing (x : Float) : Prop where
  finite : x.isFinite = true
  pos : 0 < value x

/-- What passes the test of a grid is finite and positive. -/
theorem isSpacing_iff {x : Float} : (x.isFinite && !(decide (x ≤ 0))) = true ↔ IsSpacing x := by
  rw [Bool.and_eq_true, Bool.not_eq_true', decide_eq_false_iff_not]
  constructor
  · rintro ⟨finite, not_le⟩
    refine ⟨finite, ?_⟩
    by_contra nonpos
    exact not_le (le_iff.mpr ⟨(isFinite_iff.mp finite).1, rfl, not_lt.mp nonpos⟩)
  · rintro ⟨finite, pos⟩
    exact ⟨finite, fun le => pos.not_ge (le_iff.mp le).2.2⟩

theorem isSpacing_of_lt {x : Float} (finite : x.isFinite = true) (positive : 0 < x) :
    IsSpacing x :=
  ⟨finite, (lt_iff.mp positive).2.2⟩

/-- The tolerance is a little more than half of `2 ^ -29`. -/
theorem value_tolerance :
    (1e-9 : Float).isNaN = false ∧ 1 / 2 ^ 30 < value (1e-9 : Float) ∧
      value (1e-9 : Float) < 10000001 / 10 ^ 16 := by
  have unpacked : (1e-9 : Float).toModel.unpack =
      .finite .positive 4835703278458517 (-82) (by norm_num) := rfl
  have value_eq : value (1e-9 : Float) = 4835703278458517 / 2 ^ 82 := by
    rw [value, unpacked, valueOf, factor, magnitude, one_mul, zpow_neg, ← div_eq_mul_inv]
    norm_num
  refine ⟨by decide +kernel, ?_, ?_⟩ <;> rw [value_eq] <;> norm_num

theorem value_tolerance_nonneg : 0 ≤ value (1e-9 : Float) :=
  (lt_trans (by positivity) value_tolerance.2.1).le

/-- A number below ten million is hardly moved by rounding. -/
theorem abs_rounded_sub_le_of_lt_maxPoints {x : ℚ} (nonneg : 0 ≤ x) (below : x < Grid.maxPoints) :
    |rounded x - x| ≤ 1 / 2 ^ 30 := by
  have small : |x| < 2 ^ (-29 + 53 : ℤ) := by
    rw [abs_of_nonneg nonneg]
    refine below.trans ?_
    rw [Grid.maxPoints]
    norm_num
  refine (abs_rounded_sub_le small (by norm_num) (by norm_num)).trans_eq ?_
  norm_num

/-- A number close below a whole number of 24 binary digits is rounded up to it, because no float
lies between them. -/
theorem natCast_le_rounded {n : ℕ} {x : ℚ} (big : 2 ^ 23 < n) (few : n ≤ 2 ^ 24)
    (close : (n : ℚ) - 1 / 2 ^ 30 < x) : n ≤ rounded x := by
  have short : n < 2 ^ 53 := few.trans_lt (by norm_num)
  by_cases above : (n : ℚ) ≤ x
  · rw [← rounded_natCast short]
    exact rounded_mono above
  have lower : 2 ^ 52 * 2 ^ (-29 : ℤ) ≤ x := by
    have big' : (8388609 : ℚ) ≤ n := by exact_mod_cast big
    norm_num
    linarith
  have upper : x < 2 ^ 53 * 2 ^ (-29 : ℤ) := by
    have few' : (n : ℚ) ≤ 16777216 := by exact_mod_cast few
    norm_num
    linarith
  have pos : 0 < x := lt_of_lt_of_le (by positivity) lower
  have unit_eq : unit x = -29 := unit_eq pos upper (by norm_num) fun _ => lower
  have scaled : (n : ℚ) = (n * 2 ^ 29 : ℤ) * 2 ^ unit x := by
    rw [unit_eq, zpow_neg]
    push_cast
    exact (mul_inv_cancel_right₀ (by positivity) _).symm
  have nearest_ge : (n : ℚ) ≤ nearest x := by
    rw [scaled]
    refine le_nearest ?_
    rw [unit_eq]
    push_cast
    norm_num at close ⊢
    linarith
  calc (n : ℚ) = clamp n := (clamp_eq_self (abs_natCast_lt_limit short).le).symm
    _ ≤ rounded x := clamp_mono nearest_ge

namespace Interval

/-- The width in spacings as it is computed, with the tolerance added. -/
def steps (i : Interval) (spacing : Float) : Float := (i.upper - i.lower) / spacing + 1e-9

section

variable (i : Interval)

/-- The width is off by less than a part in `2 ^ 52` of what it is computed as. -/
theorem value_width_le :
    value (i.upper - i.lower) ≤
      value i.upper - value i.lower + value (i.upper - i.lower) / 2 ^ 52 := by
  have nonneg := sub_nonneg.mpr i.value_lower_le
  have near := i.yields_width.near i.isFinite_width (exists_value_sub_eq i.upper i.lower)
  rw [abs_of_nonneg nonneg] at near
  obtain ⟨lower, upper⟩ := abs_le.mp near
  linarith

end

variable {i : Interval} {spacing : Float} (hs : IsSpacing spacing)
include hs

theorem yields_quotient (i : Interval) :
    Yields ((i.upper - i.lower) / spacing) (value (i.upper - i.lower) / value spacing) :=
  yields_div i.isFinite_width hs.finite hs.pos.ne'

theorem value_quotient_nonneg (i : Interval) : 0 ≤ value ((i.upper - i.lower) / spacing) :=
  (yields_quotient hs i).nonneg (div_nonneg i.value_width_nonneg hs.pos.le)

/-- The number of steps is a number, even where it overflows. -/
theorem yields_steps (i : Interval) :
    Yields (i.steps spacing)
      (value ((i.upper - i.lower) / spacing) + value (1e-9 : Float)) :=
  yields_add_of_nonneg (yields_quotient hs i).not_nan value_tolerance.1
    (value_quotient_nonneg hs i) value_tolerance_nonneg

theorem value_steps_nonneg (i : Interval) : 0 ≤ value (i.steps spacing) :=
  (yields_steps hs i).nonneg (add_nonneg (value_quotient_nonneg hs i) value_tolerance_nonneg)

/-! ### Counting -/

theorem steps_lt_iff (i : Interval) :
    i.steps spacing < Float.ofNat Grid.maxPoints ↔ value (i.steps spacing) < Grid.maxPoints := by
  have short : Grid.maxPoints < 2 ^ 53 := by decide
  rw [lt_iff, value_ofNat short]
  exact ⟨fun h => h.2.2,
    fun h => ⟨(yields_steps hs i).not_nan, (isFinite_iff.mp (isFinite_ofNat short)).1, h⟩⟩

/-- **There are no ticks to count where there would be ten million steps or more**, or the number
of steps overflows. -/
theorem tickCount?_eq_none_iff (i : Interval) :
    i.tickCount? spacing = none ↔ Float.ofNat Grid.maxPoints ≤ i.steps spacing := by
  have short : Grid.maxPoints < 2 ^ 53 := by decide
  have le_iff_not_lt : Float.ofNat Grid.maxPoints ≤ i.steps spacing ↔
      ¬ i.steps spacing < Float.ofNat Grid.maxPoints := by
    rw [steps_lt_iff hs, le_iff, value_ofNat short, not_lt]
    exact ⟨fun h => h.2.2,
      fun h => ⟨(isFinite_iff.mp (isFinite_ofNat short)).1, (yields_steps hs i).not_nan, h⟩⟩
  rw [le_iff_not_lt]
  show (if i.steps spacing < Float.ofNat Grid.maxPoints then
    some ((i.steps spacing).toUInt64.toNat + 1) else none) = none ↔ _
  split
  · rename_i below
    exact ⟨nofun, fun not_below => absurd below not_below⟩
  · rename_i not_below
    exact ⟨fun _ => not_below, fun _ => rfl⟩

/-- **The ticks are counted by the whole steps**, and one more. -/
theorem tickCount?_eq_some_iff {i : Interval} {count : ℕ} :
    i.tickCount? spacing = some count ↔
      value (i.steps spacing) < Grid.maxPoints ∧ count = ⌊value (i.steps spacing)⌋₊ + 1 := by
  show (if i.steps spacing < Float.ofNat Grid.maxPoints then
    some ((i.steps spacing).toUInt64.toNat + 1) else none) = some count ↔ _
  rw [← steps_lt_iff hs]
  split
  · rename_i below
    have in_range : value (i.steps spacing) < 2 ^ 64 :=
      ((steps_lt_iff hs i).mp below).trans (by rw [Grid.maxPoints]; norm_num)
    rw [toNat_toUInt64 (value_steps_nonneg hs i) in_range, Option.some_inj, eq_comm]
    exact ⟨fun h => ⟨below, h⟩, And.right⟩
  · rename_i not_below
    exact ⟨nofun, fun h => absurd h.1 not_below⟩

variable {count : ℕ} (counted : i.tickCount? spacing = some count)
include counted

theorem tickCount?_bounds : 0 < count ∧ count ≤ Grid.maxPoints := by
  obtain ⟨below, rfl⟩ := (tickCount?_eq_some_iff hs).mp counted
  exact ⟨Nat.succ_pos _, (Nat.floor_lt (value_steps_nonneg hs i)).mpr below⟩

theorem lt_two_pow_of_lt_count {t : ℕ} (inside : t < count) : t < 2 ^ 53 :=
  inside.trans_le ((tickCount?_bounds hs counted).2.trans (by decide))

theorem lt_count_iff {t : ℕ} : t < count ↔ (t : ℚ) ≤ value (i.steps spacing) := by
  obtain ⟨-, rfl⟩ := (tickCount?_eq_some_iff hs).mp counted
  rw [Nat.lt_succ_iff, Nat.le_floor_iff (value_steps_nonneg hs i)]

/-! ### No more ticks than fit -/

/-- **The steps that are counted are hardly more than fit.**  Three roundings and the tolerance
go into this. -/
theorem value_steps_mul_le :
    value (i.steps spacing) * value spacing ≤
      value i.upper - value i.lower + 7 / 10 ^ 9 * value spacing := by
  obtain ⟨below, -⟩ := (tickCount?_eq_some_iff hs).mp counted
  obtain ⟨-, tolerance_gt, tolerance_lt⟩ := value_tolerance
  have short : Grid.maxPoints < 2 ^ 53 := by decide
  have width_nonneg := i.value_width_nonneg
  have width_le := i.value_width_le
  have quotient := yields_quotient hs i
  have quotient_nonneg := value_quotient_nonneg hs i
  have pos := hs.pos
  rw [(yields_steps hs i).value_eq] at below ⊢
  have sum_lt := lt_of_rounded_lt short below
  generalize value (1e-9 : Float) = tolerance at *
  have tolerance_pos : 0 < tolerance := lt_trans (by positivity) tolerance_gt
  have sum_near := (abs_le.mp (abs_rounded_sub_le_of_lt_maxPoints
    (add_nonneg quotient_nonneg tolerance_pos.le) sum_lt)).2
  have exact_lt : value (i.upper - i.lower) / value spacing < Grid.maxPoints :=
    lt_of_rounded_lt short (by linarith [quotient.value_eq])
  have quotient_near := (abs_le.mp (abs_rounded_sub_le_of_lt_maxPoints
    (div_nonneg width_nonneg pos.le) exact_lt)).2
  rw [← quotient.value_eq] at quotient_near
  have width_lt : value (i.upper - i.lower) < 10 ^ 7 * value spacing := by
    rw [div_lt_iff₀ pos] at exact_lt
    exact_mod_cast exact_lt
  calc rounded (value ((i.upper - i.lower) / spacing) + tolerance) * value spacing
      ≤ (value (i.upper - i.lower) / value spacing + 1 / 2 ^ 30 + tolerance + 1 / 2 ^ 30) *
          value spacing := by
        gcongr
        linarith
    _ = value (i.upper - i.lower) + (2 / 2 ^ 30 + tolerance) * value spacing := by
        field_simp
        ring
    _ ≤ value i.upper - value i.lower + 7 / 10 ^ 9 * value spacing := by
        nlinarith

omit counted in
theorem yields_multiple {t : ℕ} (short : t < 2 ^ 53) :
    Yields (Float.ofNat t * spacing) (t * value spacing) := by
  have product := yields_mul (isFinite_ofNat short) hs.finite
  rwa [value_ofNat short] at product

omit counted in
theorem value_multiple_nonneg {t : ℕ} (short : t < 2 ^ 53) :
    0 ≤ value (Float.ofNat t * spacing) :=
  (yields_multiple hs short).nonneg (mul_nonneg (Nat.cast_nonneg t) hs.pos.le)

/-- A multiple of the spacing is off by little of a spacing. -/
theorem value_multiple_le {t : ℕ} (inside : t < count)
    (finite : (Float.ofNat t * spacing).isFinite = true) :
    value (Float.ofNat t * spacing) ≤ t * value spacing + 2 / 10 ^ 9 * value spacing := by
  have few : t < 10 ^ 7 := inside.trans_le (tickCount?_bounds hs counted).2
  have pos := hs.pos
  have near := (yields_multiple hs (lt_two_pow_of_lt_count hs counted inside)).near finite
    (exists_natCast_mul_value_eq t spacing)
  rw [abs_of_nonneg (mul_nonneg (Nat.cast_nonneg t) pos.le)] at near
  have product_le : t * value spacing ≤ 10 ^ 7 * value spacing := by
    gcongr
    exact_mod_cast few.le
  linarith [(abs_le.mp near).2]

omit counted in
/-- No tick is NaN or below the lower end. -/
theorem lower_le_tick {t : ℕ} (short : t < 2 ^ 53) :
    i.lower ≤ i.lower + Float.ofNat t * spacing := by
  obtain ⟨not_nan_lower, in_range⟩ := isFinite_iff.mp i.finite.1
  have nonneg := value_multiple_nonneg hs short
  by_cases finite : (Float.ofNat t * spacing).isFinite = true
  · have tick := yields_add i.finite.1 finite
    exact le_iff.mpr ⟨not_nan_lower, tick.not_nan, tick.le_value (le_add_of_nonneg_right nonneg)⟩
  · obtain ⟨not_nan, tick_eq⟩ :=
      add_of_infinite i.finite.1 (yields_multiple hs short).not_nan nonneg finite
    refine le_iff.mpr ⟨not_nan_lower, not_nan, ?_⟩
    rw [tick_eq]
    exact (le_abs_self _).trans in_range.le

/-- Every tick but the last lies in the interval. -/
theorem contains_tick {t : ℕ} (inside : t + 1 < count) :
    i.contains (i.lower + Float.ofNat t * spacing) = true := by
  have here : t < count := (Nat.lt_succ_self t).trans inside
  have short := lt_two_pow_of_lt_count hs counted here
  have pos := hs.pos
  -- The next tick hardly lies beyond the upper end, so this one is almost a spacing before it.
  have next := (lt_count_iff hs counted).mp inside
  have before : t * value spacing ≤
      value i.upper - value i.lower - (1 - 7 / 10 ^ 9) * value spacing := by
    have fits := value_steps_mul_le hs counted
    have next_le := mul_le_mul_of_nonneg_right next pos.le
    push_cast at next_le
    linarith
  have multiple := yields_multiple hs short
  have finite : (Float.ofNat t * spacing).isFinite = true := by
    rw [multiple.isFinite_iff, abs_of_nonneg (multiple.value_eq ▸ value_multiple_nonneg hs short)]
    refine (rounded_mono (before.trans (sub_le_self _ ?_))).trans_lt ?_
    · exact mul_nonneg (by norm_num) pos.le
    · rw [← i.yields_width.value_eq]
      exact (le_abs_self _).trans_lt (isFinite_iff.mp i.isFinite_width).2
  have multiple_le := value_multiple_le hs counted here finite
  have tick := yields_add i.finite.1 finite
  have above : value i.lower ≤ value (i.lower + Float.ofNat t * spacing) :=
    (le_iff.mp (lower_le_tick hs short)).2.2
  exact i.contains_iff.mpr ⟨tick.not_nan, above, tick.value_le (by linarith)⟩

/-- **The last tick is beyond the upper end by a hundred-millionth of the spacing at most**,
before it is rounded. -/
theorem value_tick_le {t : ℕ} (inside : t < count)
    (finite : (i.lower + Float.ofNat t * spacing).isFinite = true) :
    value (i.lower + Float.ofNat t * spacing) ≤
      rounded (value i.upper + value spacing / 10 ^ 8) := by
  have pos := hs.pos
  obtain ⟨-, finite_multiple⟩ := isFinite_of_add finite
  have multiple_le := value_multiple_le hs counted inside finite_multiple
  have fits := value_steps_mul_le hs counted
  have steps_ge := mul_le_mul_of_nonneg_right ((lt_count_iff hs counted).mp inside) pos.le
  rw [(yields_add i.finite.1 finite_multiple).value_eq]
  exact rounded_mono (by linarith)

/-! ### No fewer ticks than fit -/

section

variable {n : ℕ} (fits : Float.ofNat n * spacing ≤ i.upper - i.lower)
include fits

omit counted in
/-- The quotient falls short of a whole number that fits by at most one unit of its last digit. -/
theorem sub_le_value_quotient {j : ℕ} (hn : 0 < n) (short : n < 2 ^ 53)
    (digits : n * 2 ^ j ≤ 2 ^ 53) (hj : j ≤ 1074) :
    (n : ℚ) - 1 / 2 ^ j ≤ value ((i.upper - i.lower) / spacing) := by
  have pos := hs.pos
  obtain ⟨not_nan, -, product_le⟩ := le_iff.mp fits
  have finite : (Float.ofNat n * spacing).isFinite = true :=
    finite_of_abs_le not_nan i.isFinite_width
      (by rwa [abs_of_nonneg (value_multiple_nonneg hs short)])
  have near := (yields_multiple hs short).near finite (exists_natCast_mul_value_eq n spacing)
  rw [abs_of_nonneg (mul_nonneg (Nat.cast_nonneg n) pos.le)] at near
  have exact_ge : (n : ℚ) - 1 / 2 ^ j ≤ value (i.upper - i.lower) / value spacing := by
    have digits' : (n : ℚ) / 2 ^ 53 ≤ 1 / 2 ^ j := by
      rw [div_le_div_iff₀ (by positivity) (by positivity), one_mul]
      exact_mod_cast digits
    rw [le_div_iff₀ pos]
    calc ((n : ℚ) - 1 / 2 ^ j) * value spacing ≤ (n - n / 2 ^ 53) * value spacing := by gcongr
      _ = n * value spacing - n * value spacing / 2 ^ 53 := by ring
      _ ≤ value (i.upper - i.lower) := by linarith [(abs_le.mp near).1]
  have representable : rounded ((n : ℚ) - 1 / 2 ^ j) = n - 1 / 2 ^ j := by
    have one_le : 1 ≤ n * 2 ^ j := Nat.mul_pos hn (Nat.two_pow_pos j)
    have mantissa : |((n * 2 ^ j : ℕ) - 1 : ℤ)| < 2 ^ 53 := by
      rw [abs_of_nonneg (by omega)]
      omega
    have exact := rounded_eq_self mantissa (by omega : (-1074 : ℤ) ≤ -j) (by omega)
    have scaled : ((((n * 2 ^ j : ℕ) - 1 : ℤ) : ℚ) * 2 ^ (-j : ℤ)) = n - 1 / 2 ^ j := by
      rw [zpow_neg, zpow_natCast]
      push_cast
      field_simp
    rw [scaled] at exact
    exact exact
  rw [(yields_quotient hs i).value_eq, ← representable]
  exact rounded_mono exact_ge

omit counted in
/-- **A whole number of steps that fits is not lost.**  The tolerance is more than half a unit of
the last digit of a number below ten million, and what is less than that short is rounded up. -/
theorem natCast_le_steps (hn : 0 < n) (few : n ≤ Grid.maxPoints) :
    (n : ℚ) ≤ value (i.steps spacing) := by
  obtain ⟨-, tolerance_gt, -⟩ := value_tolerance
  have short : n < 2 ^ 53 := few.trans_lt (by decide)
  rw [(yields_steps hs i).value_eq]
  generalize value (1e-9 : Float) = tolerance at tolerance_gt
  by_cases small : n ≤ 2 ^ 23
  · have quotient_ge := sub_le_value_quotient hs fits (j := 30) hn short (by omega) (by norm_num)
    rw [← rounded_natCast short]
    exact rounded_mono (by linarith)
  · have quotient_ge := sub_le_value_quotient hs fits (j := 29) hn short
      (by rw [Grid.maxPoints] at few; omega) (by norm_num)
    refine natCast_le_rounded (not_le.mp small) (few.trans (by decide)) ?_
    norm_num at quotient_ge tolerance_gt ⊢
    linarith

end

/-- **One tick more would not fit.** -/
theorem not_fits_count : ¬ Float.ofNat count * spacing ≤ i.upper - i.lower := by
  intro fits
  obtain ⟨positive, few⟩ := tickCount?_bounds hs counted
  exact ((lt_count_iff hs counted).mpr (natCast_le_steps hs fits positive few)).false

/-- What bounds the multiple of the spacing that is one too many is less than the width. -/
theorem fits_count_of_le {x : ℚ} (le : count * value spacing ≤ x)
    (fits : rounded x ≤ value (i.upper - i.lower)) :
    Float.ofNat count * spacing ≤ i.upper - i.lower := by
  have short : count < 2 ^ 53 := (tickCount?_bounds hs counted).2.trans_lt (by decide)
  have multiple := yields_multiple hs short
  refine le_iff.mpr ⟨multiple.not_nan, i.yields_width.not_nan, ?_⟩
  rw [multiple.value_eq]
  exact (rounded_mono le).trans fits

/-- A tick whose distance from the lower end is, as it is computed, no greater than the width as
it is computed is counted. -/
theorem lt_count_of_fits {n : ℕ} (finite : (Float.ofNat n * spacing).isFinite = true)
    (fits : Float.ofNat n * spacing ≤ i.upper - i.lower) : n < count := by
  by_contra beyond
  have short : count < 2 ^ 53 := (tickCount?_bounds hs counted).2.trans_lt (by decide)
  have product := yields_mul (isFinite_of_mul finite).1 hs.finite
  have count_le : (count : ℚ) ≤ value (Float.ofNat n) := by
    rw [(yields_ofNat n).value_eq, ← rounded_natCast short]
    exact rounded_mono (by exact_mod_cast not_lt.mp beyond)
  refine not_fits_count hs counted (fits_count_of_le hs counted
    (mul_le_mul_of_nonneg_right count_le hs.pos.le) ?_)
  rw [← product.value_eq]
  exact (le_iff.mp fits).2.2

/-- A tick that does not lie beyond the upper end, were it not rounded, is counted. -/
theorem lt_count_of_le {n : ℕ} (le : value i.lower + n * value spacing ≤ value i.upper) :
    n < count := by
  by_contra beyond
  have count_le : (count : ℚ) ≤ n := by exact_mod_cast not_lt.mp beyond
  refine not_fits_count hs counted (fits_count_of_le hs counted
    (mul_le_mul_of_nonneg_right count_le hs.pos.le) ?_)
  rw [i.yields_width.value_eq]
  exact rounded_mono (by linarith)

end Interval

end Downhill
