/-
Negation and differences of floats.

Negation is exact, and subtracting is adding the negation (`sub_eq`), so a difference of
finite floats is rounded like a sum.  It cannot vanish in the rounding: all floats are
multiples of the smallest one above zero, and so are their differences.  Hence a difference
is zero only for equal numbers, `sub_beq_zero_iff`, and its sign tells which of two numbers
is larger, `sub_neg_of_lt`, and this holds of infinities, too, unless the difference is NaN.
-/
import Downhill.Proofs.Float.Arithmetic

namespace Downhill

namespace Binary64

open Float.Model Float.Model.UnpackedFloat

/-! ### Negation -/

theorem stored_neg {u : UnpackedFloat} (h : Stored u) : Stored u.neg := by
  cases u with
  | finite => exact h
  | _ => trivial

theorem unpack_neg (x : Float) : (-x).toModel.unpack = x.toModel.unpack.neg :=
  repack_of_stored (stored_neg (stored x))

theorem factor_neg (s : Sign) : factor (-s) = -factor s := by
  cases s
  · exact (neg_neg (1 : ℚ)).symm
  · rfl

theorem value_neg (x : Float) : value (-x) = -value x := by
  rw [value, unpack_neg, value]
  cases x.toModel.unpack with
  | notANumber | zero => exact neg_zero.symm
  | infinity s | finite s => rw [UnpackedFloat.neg, valueOf, valueOf, factor_neg, neg_mul]

theorem isNaN_neg (x : Float) : (-x).isNaN = x.isNaN := by
  show (-x).toModel.unpack.isNaN = x.toModel.unpack.isNaN
  rw [unpack_neg]
  cases x.toModel.unpack <;> rfl

theorem isFinite_neg (x : Float) : (-x).isFinite = x.isFinite := by
  show (-x).toModel.unpack.isFinite = x.toModel.unpack.isFinite
  rw [unpack_neg]
  cases x.toModel.unpack <;> rfl

/-! ### Differences -/

theorem unpacked_sub_eq (a b : UnpackedFloat) :
    UnpackedFloat.sub Format.binary64 a b = UnpackedFloat.add Format.binary64 a b.neg := by
  have apply_neg : ∀ (t : Sign) (n : ℤ), (-t).apply n = -t.apply n := by
    intro t n
    cases t
    · exact (neg_neg n).symm
    · rfl
  cases a with
  | finite s m e hm =>
      cases b with
      | finite t n f hn =>
          simp only [UnpackedFloat.sub, UnpackedFloat.add, UnpackedFloat.neg, apply_neg]
          rfl
      | _ => rfl
  | _ => cases b <;> rfl

/-- **Subtracting is adding the negation.** -/
theorem sub_eq (x y : Float) : x - y = x + -y := by
  show (⟨Float.Model.pack (UnpackedFloat.sub Format.binary64 x.toModel.unpack y.toModel.unpack)⟩ :
      Float) =
    ⟨Float.Model.pack (UnpackedFloat.add Format.binary64 x.toModel.unpack (-y).toModel.unpack)⟩
  rw [unpacked_sub_eq, unpack_neg]

/-- NaN spreads through differences. -/
theorem not_nan_of_sub {x y : Float} (h : (x - y).isNaN = false) :
    x.isNaN = false ∧ y.isNaN = false := by
  rw [sub_eq] at h
  obtain ⟨not_nan_x, not_nan_neg⟩ := not_nan_of_add h
  exact ⟨not_nan_x, (isNaN_neg y).symm.trans not_nan_neg⟩

theorem yields_sub {x y : Float} (hx : x.isFinite = true) (hy : y.isFinite = true) :
    Yields (x - y) (value x - value y) := by
  have sum := yields_add hx ((isFinite_neg y).trans hy)
  rwa [← sub_eq, value_neg, ← sub_eq_add_neg] at sum

theorem limit_eq_magnitude : limit = magnitude 1 1024 := by
  rw [limit, magnitude, Nat.cast_one, one_mul]
  exact (zpow_natCast (2 : ℚ) 1024).symm

theorem exists_factor_mul_eq (s : Sign) (m : ℕ) {e : ℤ} (he : -1074 ≤ e) :
    ∃ n : ℤ, factor s * magnitude m e = n * 2 ^ (-1074 : ℤ) := by
  obtain ⟨k, rfl⟩ := Int.le.dest he
  refine ⟨s.apply (m * 2 ^ k : ℕ), ?_⟩
  rw [sign_apply_eq, magnitude, mul_assoc, add_comm, zpow_add₀ two_ne_zero, zpow_natCast]
  generalize (2 : ℚ) ^ (-1074 : ℤ) = step
  push_cast
  ring

/-- The smallest number above zero measures all floats. -/
theorem exists_value_eq (x : Float) : ∃ n : ℤ, value x = n * 2 ^ (-1074 : ℤ) := by
  have in_range := stored x
  rw [value]
  cases h : x.toModel.unpack with
  | notANumber | zero => exact ⟨0, by rw [valueOf, Int.cast_zero, zero_mul]⟩
  | infinity s =>
      rw [valueOf, limit_eq_magnitude]
      exact exists_factor_mul_eq s 1 (by omega)
  | finite s m e hm =>
      rw [h] at in_range
      exact exists_factor_mul_eq s m in_range.1.le_exponent

/-- A difference does not vanish by rounding. -/
theorem rounded_sub_neg {x y : Float} (h : value x < value y) :
    rounded (value x - value y) < 0 := by
  obtain ⟨n, hn⟩ := exists_value_eq x
  obtain ⟨k, hk⟩ := exists_value_eq y
  have pow_pos : (0 : ℚ) < 2 ^ (-1074 : ℤ) := by positivity
  have below : n - k ≤ -1 := by
    rw [hn, hk] at h
    have less : n < k := by exact_mod_cast lt_of_mul_lt_mul_right h pow_pos.le
    omega
  have difference : value x - value y = (n - k : ℤ) * 2 ^ (-1074 : ℤ) := by
    rw [hn, hk, Int.cast_sub, sub_mul]
  have least : nearest ((-1 : ℤ) * 2 ^ (-1074 : ℤ)) = (-1 : ℤ) * 2 ^ (-1074 : ℤ) :=
    nearest_eq_self (by norm_num) le_rfl
  have at_most : nearest (value x - value y) < 0 := by
    calc nearest (value x - value y) ≤ nearest ((-1 : ℤ) * 2 ^ (-1074 : ℤ)) := by
          rw [difference]
          refine nearest_mono ?_
          gcongr
      _ < 0 := by
          rw [least, Int.cast_neg, Int.cast_one, neg_one_mul]
          exact neg_neg_of_pos pow_pos
  have range := limit_pos
  rw [rounded, clamp]
  exact max_lt (neg_neg_of_pos range) (min_lt_of_left_lt at_most)

/-- **The difference of finite floats is zero exactly if they are equal.** -/
theorem sub_beq_zero_iff {x y : Float} (hx : x.isFinite = true) (hy : y.isFinite = true) :
    ((x - y) == 0) = true ↔ (x == y) = true := by
  have difference := yields_sub hx hy
  have not_nan_x := (isFinite_iff.mp hx).1
  have not_nan_y := (isFinite_iff.mp hy).1
  have vanishes_iff : rounded (value x - value y) = 0 ↔ value x = value y := by
    constructor
    · intro vanishes
      rcases lt_trichotomy (value x) (value y) with less | equal | greater
      · exact absurd vanishes (rounded_sub_neg less).ne
      · exact equal
      · rw [← neg_sub, rounded_neg, neg_eq_zero] at vanishes
        exact absurd vanishes (rounded_sub_neg greater).ne
    · intro equal
      rw [equal, sub_self, rounded_zero]
  constructor
  · intro zero
    have vanishes := (beq_iff.mp zero).2.2
    rw [difference.value_eq] at vanishes
    exact beq_iff.mpr ⟨not_nan_x, not_nan_y, vanishes_iff.mp vanishes⟩
  · intro equal
    have vanishes := vanishes_iff.mpr (beq_iff.mp equal).2.2
    exact beq_iff.mpr ⟨difference.not_nan, rfl, difference.value_eq.trans vanishes⟩

theorem value_pack_infinity (s : Sign) :
    value ⟨Float.Model.pack (.infinity s)⟩ = factor s * limit :=
  congrArg valueOf (repack_infinity s)

/-- Where a smaller number and a larger one are not both finite, their difference is not either. -/
theorem unpacked_sub_eq_infinity {a b : UnpackedFloat} (ha : Stored a) (hb : Stored b)
    (not_nan_a : a.isNaN = false) (not_nan_b : b.isNaN = false) (h : valueOf a < valueOf b)
    (infinite : ¬ (a.isFinite = true ∧ b.isFinite = true)) :
    UnpackedFloat.sub Format.binary64 a b = .infinity .negative := by
  have range_a := abs_le.mp ha.abs_valueOf_le
  have range_b := abs_le.mp hb.abs_valueOf_le
  cases a with
  | notANumber => cases not_nan_a
  | infinity s =>
      cases s with
      | positive =>
          rw [valueOf, factor, one_mul] at h
          exact absurd range_b.2 h.not_ge
      | negative =>
          cases b with
          | notANumber => cases not_nan_b
          | infinity t =>
              cases t with
              | positive => rfl
              | negative => exact absurd h (lt_irrefl _)
          | zero t | finite t => rfl
  | zero s | finite s =>
      cases b with
      | notANumber => cases not_nan_b
      | infinity t =>
          cases t with
          | positive => rfl
          | negative =>
              have bottom : valueOf (.infinity .negative) = -limit := neg_one_mul limit
              rw [bottom] at h
              exact absurd range_a.1 h.not_ge
      | zero t | finite t => exact absurd ⟨rfl, rfl⟩ infinite

/-- **A number less a larger one is less than zero**, even where there are infinities. -/
theorem sub_neg_of_lt {x y : Float} (not_nan_x : x.isNaN = false) (not_nan_y : y.isNaN = false)
    (h : value x < value y) : (x - y).isNaN = false ∧ value (x - y) < 0 := by
  by_cases finite : x.isFinite = true ∧ y.isFinite = true
  · have difference := yields_sub finite.1 finite.2
    refine ⟨difference.not_nan, ?_⟩
    rw [difference.value_eq]
    exact rounded_sub_neg h
  · have infinite : x - y = ⟨Float.Model.pack (.infinity .negative)⟩ :=
      congrArg (fun u => (⟨Float.Model.pack u⟩ : Float))
        (unpacked_sub_eq_infinity (stored x) (stored y) not_nan_x not_nan_y h finite)
    rw [infinite]
    refine ⟨congrArg UnpackedFloat.isNaN (repack_infinity .negative), ?_⟩
    rw [value_pack_infinity]
    show -1 * limit < 0
    rw [neg_one_mul]
    exact neg_neg_of_pos limit_pos

end Binary64

end Downhill
