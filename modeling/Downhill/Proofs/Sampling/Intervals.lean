/-
Intervals and the numbers in them.

An interval carries that its ends are finite and in order, and that its width is finite with some
room to spare.  Here these facts are turned into facts about the numbers that the ends stand for,
which is the form in which sampling needs them.
-/
import Downhill.Proofs.Float.Subtraction
import Downhill.Sampling.Region

namespace Downhill

open Binary64

namespace Interval

variable (i : Interval)

theorem not_nan_lower : i.lower.isNaN = false := (isFinite_iff.mp i.finite.1).1

theorem not_nan_upper : i.upper.isNaN = false := (isFinite_iff.mp i.finite.2).1

theorem value_lower_le : value i.lower ≤ value i.upper := by
  by_contra inverted
  exact i.ordered (lt_iff.mpr ⟨i.not_nan_upper, i.not_nan_lower, not_le.mp inverted⟩)

theorem contains_iff {x : Float} :
    i.contains x = true ↔ x.isNaN = false ∧ value i.lower ≤ value x ∧ value x ≤ value i.upper := by
  rw [contains, Bool.and_eq_true, decide_eq_true_iff, decide_eq_true_iff, le_iff, le_iff]
  constructor
  · rintro ⟨⟨-, not_nan, above⟩, -, -, below⟩
    exact ⟨not_nan, above, below⟩
  · rintro ⟨not_nan, above, below⟩
    exact ⟨⟨i.not_nan_lower, not_nan, above⟩, not_nan, i.not_nan_upper, below⟩

/-! ### The width -/

theorem yields_width : Yields (i.upper - i.lower) (value i.upper - value i.lower) :=
  yields_sub i.finite.2 i.finite.1

theorem isFinite_width : (i.upper - i.lower).isFinite = true :=
  (isFinite_of_mul i.bounded).1

theorem value_width_nonneg : 0 ≤ value (i.upper - i.lower) :=
  i.yields_width.nonneg (sub_nonneg.mpr i.value_lower_le)

/-- The headroom is two units in the last place of one. -/
theorem value_headroom : value headroom = 1 + 1 / 2 ^ 51 := by
  have unpacked : headroom.toModel.unpack =
      .finite .positive (2 ^ 52 + 2) (-52) (by norm_num) := rfl
  rw [value, unpacked, valueOf, factor, magnitude, one_mul, zpow_neg, ← div_eq_mul_inv]
  norm_num

/-- With the headroom, the width is still within the range of the floats. -/
theorem rounded_width_mul_lt :
    rounded (value (i.upper - i.lower) * (1 + 1 / 2 ^ 51)) < limit := by
  have product := yields_mul i.isFinite_width (isFinite_of_mul i.bounded).2
  rw [value_headroom] at product
  exact (le_abs_self _).trans_lt (product.isFinite_iff.mp i.bounded)

end Interval

end Downhill
