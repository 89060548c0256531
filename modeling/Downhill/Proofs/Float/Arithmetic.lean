/-
The arithmetic of floats, as arithmetic of the numbers that they stand for.

`value` reads a float as a rational.  Floats that are not NaN compare as their values
do (`le_iff`), and the sum and the product of finite floats have the exact sum and
product for values, `rounded`.  As rounding is monotone and leaves values alone, an
inequality between floats is proved by proving it for exact numbers first.

Infinities take part in this only as far as their values permit.  NaN has no value to
speak of, and spreads: an operation with an operand that is NaN is NaN.
-/
import Downhill.Bindings.Lemmas
import Downhill.Point
import Downhill.Proofs.Float.Packing

namespace Downhill

namespace Binary64

open Float.Model Float.Model.UnpackedFloat

/-! ### Values -/

/-- The number that a float stands for: none for NaN, for which this is zero, and the
end of the range for an infinity. -/
def value (x : Float) : ℚ := valueOf x.toModel.unpack

/-- The value of the float that is nearest to a number. -/
def rounded (x : ℚ) : ℚ := clamp (nearest x)

theorem stored (x : Float) : Stored x.toModel.unpack := stored_unpack _

theorem rounded_mono {x y : ℚ} (h : x ≤ y) : rounded x ≤ rounded y :=
  clamp_mono (nearest_mono h)

theorem nearest_limit : nearest limit = limit := by
  have := nearest_eq_self (m := 1) (e := 1024) (by norm_num) (by norm_num)
  rwa [Int.cast_one, one_mul] at this

theorem nearest_valueOf {u : UnpackedFloat} (h : Rounded u) : nearest (valueOf u) = valueOf u := by
  cases u with
  | notANumber | zero => exact nearest_zero
  | infinity s => rw [valueOf, nearest_factor_mul, nearest_limit]
  | finite s m e hm =>
      have small : |(m : ℤ)| < 2 ^ 53 := by
        rw [Nat.abs_cast]
        exact_mod_cast h.mantissa_lt
      have exact := nearest_eq_self small h.le_exponent
      rw [Int.cast_natCast] at exact
      rw [valueOf, nearest_factor_mul, magnitude, exact]

theorem Stored.rounded {u : UnpackedFloat} (h : Stored u) : Rounded u := by
  cases u with
  | finite => exact h.1
  | _ => trivial

/-- **Values are not rounded.** -/
theorem rounded_value (x : Float) : rounded (value x) = value x := by
  rw [rounded, value, nearest_valueOf (stored x).rounded, clamp_eq_self (stored x).abs_valueOf_le]

theorem rounded_zero : rounded 0 = 0 := by
  rw [rounded, nearest_zero, clamp_eq_self (abs_zero.trans_le limit_pos.le)]

theorem rounded_neg (x : ℚ) : rounded (-x) = -rounded x := by
  rw [rounded, nearest_neg, clamp_neg, rounded]

theorem rounded_of_limit_le {x : ℚ} (h : limit ≤ x) : rounded x = limit := by
  have := clamp_factor_mul .positive (nearest_limit.symm.trans_le (nearest_mono h))
  rwa [factor, one_mul, one_mul] at this

/-- A float is finite when its value lies within the range, unless it is NaN. -/
theorem isFinite_iff {x : Float} :
    x.isFinite = true ↔ x.isNaN = false ∧ |value x| < limit := by
  have range := limit_pos
  have in_range := stored x
  show x.toModel.unpack.isFinite = true ↔
    x.toModel.unpack.isNaN = false ∧ |valueOf x.toModel.unpack| < limit
  cases h : x.toModel.unpack with
  | notANumber => simp [UnpackedFloat.isFinite, UnpackedFloat.isNaN]
  | zero s => simp [UnpackedFloat.isFinite, UnpackedFloat.isNaN, range]
  | infinity s =>
      rw [valueOf, abs_factor_mul s range.le]
      simp [UnpackedFloat.isFinite]
  | finite s m e hm =>
      rw [h] at in_range
      rw [valueOf, abs_factor_mul s (magnitude_pos hm e).le]
      simp [UnpackedFloat.isFinite, UnpackedFloat.isNaN, in_range.1.magnitude_lt_limit in_range.2]

/-- What is not larger than something finite is finite. -/
theorem finite_of_abs_le {x y : Float} (not_nan : x.isNaN = false) (hy : y.isFinite = true)
    (le : |value x| ≤ value y) : x.isFinite = true :=
  isFinite_iff.mpr ⟨not_nan, le.trans_lt ((le_abs_self _).trans_lt (isFinite_iff.mp hy).2)⟩

theorem value_zero : value (Zero.zero : Float) = 0 := rfl

theorem value_one : value (One.one : Float) = 1 := by
  have unpacked : (One.one : Float).toModel.unpack =
      .finite .positive (2 ^ 52) (-52) (by norm_num) := rfl
  rw [value, unpacked, valueOf, factor, magnitude]
  norm_num

theorem isFinite_zero : (Zero.zero : Float).isFinite = true := rfl

theorem isFinite_one : (One.one : Float).isFinite = true := rfl

/-! ### Order -/

/-- Only NaN is not compared. -/
theorem compare_any_iff {a b : UnpackedFloat} (ha : Stored a) (hb : Stored b)
    (test : Ordering → Bool) :
    (a.compare b).any test = true ↔
      a.isNaN = false ∧ b.isNaN = false ∧ test (compare (valueOf a) (valueOf b)) = true := by
  by_cases nan_a : a.isNaN = true
  · rw [isNaN_iff.mp nan_a]
    simp [UnpackedFloat.compare, UnpackedFloat.isNaN]
  by_cases nan_b : b.isNaN = true
  · rw [isNaN_iff.mp nan_b]
    cases a <;> simp [UnpackedFloat.compare, UnpackedFloat.isNaN]
  rw [Bool.not_eq_true] at nan_a nan_b
  rw [compare_eq ha hb nan_a nan_b, nan_a, nan_b]
  simp

/-- **Floats are ordered as their values are, unless one is NaN.** -/
theorem le_iff {x y : Float} :
    x ≤ y ↔ x.isNaN = false ∧ y.isNaN = false ∧ value x ≤ value y := by
  have compared : x ≤ y ↔ (x.toModel.unpack.compare y.toModel.unpack).any (·.isLE) = true :=
    decide_eq_true_iff
  have isLE_iff : (compare (value x) (value y)).isLE = true ↔ value x ≤ value y :=
    Ordering.ne_gt_iff_isLE.symm.trans compare_le_iff_le
  rw [compared, compare_any_iff (stored x) (stored y), ← isLE_iff]
  rfl

theorem le_of_le_of_value_le {x y z : Float} (h : x ≤ y) (not_nan : z.isNaN = false)
    (h' : value y ≤ value z) : x ≤ z :=
  have ⟨not_nan_x, _, le⟩ := le_iff.mp h
  le_iff.mpr ⟨not_nan_x, not_nan, le.trans h'⟩

/-- **Floats are equal when their values are, unless one is NaN.** -/
theorem beq_iff {x y : Float} :
    (x == y) = true ↔ x.isNaN = false ∧ y.isNaN = false ∧ value x = value y := by
  have compared : (x == y) = true ↔
      (x.toModel.unpack.compare y.toModel.unpack).any (· == .eq) = true := by
    show (x.toModel.unpack.compare y.toModel.unpack == some .eq) = true ↔ _
    cases x.toModel.unpack.compare y.toModel.unpack <;> simp
  rw [compared, compare_any_iff (stored x) (stored y), beq_iff_eq, compare_eq_iff_eq]
  rfl

/-- The zeros of either sign are equal to zero, and nothing else is. -/
theorem beq_zero_iff {x : Float} : (x == 0) = true ↔ x.isNaN = false ∧ value x = 0 := by
  rw [beq_iff]
  exact ⟨fun h => ⟨h.1, h.2.2.trans value_zero⟩, fun h => ⟨h.1, rfl, h.2.trans value_zero.symm⟩⟩

/-- **A float is below another when its value is, unless one is NaN.** -/
theorem lt_iff {x y : Float} :
    x < y ↔ x.isNaN = false ∧ y.isNaN = false ∧ value x < value y := by
  have compared : x < y ↔ (x.toModel.unpack.compare y.toModel.unpack).any (· == .lt) = true := by
    show decide ((x.toModel.unpack.compare y.toModel.unpack == some .lt) = true) = true ↔ _
    cases x.toModel.unpack.compare y.toModel.unpack <;> simp
  rw [compared, compare_any_iff (stored x) (stored y), beq_iff_eq, compare_lt_iff_lt]
  rfl

/-- NaN is less than nothing. -/
theorem not_lt_of_isNaN {x y : Float} (h : x.isNaN = true) : ¬ x < y := by
  intro less
  obtain ⟨not_nan, -, -⟩ := lt_iff.mp less
  exact Bool.false_ne_true (not_nan.symm.trans h)

/-- What lies between zero and one is finite. -/
theorem finite_of_unit_range {x : Float} (h : Zero.zero < x ∧ x ≤ One.one) :
    x.isFinite = true ∧ 0 ≤ value x ∧ value x ≤ 1 := by
  obtain ⟨-, not_nan, pos⟩ := lt_iff.mp h.1
  obtain ⟨-, -, le⟩ := le_iff.mp h.2
  rw [value_zero] at pos
  have finite : x.isFinite = true :=
    finite_of_abs_le not_nan isFinite_one (by rwa [abs_of_pos pos])
  exact ⟨finite, pos.le, le.trans_eq value_one⟩

/-! ### NaN -/

/-- An operation through which NaN spreads from either side gives a number only for two
numbers. -/
theorem not_nan_of_repack (op : UnpackedFloat → UnpackedFloat → UnpackedFloat)
    (left : ∀ b, op .notANumber b = .notANumber) (right : ∀ a, op a .notANumber = .notANumber)
    {a b : UnpackedFloat} (h : (repack (op a b)).isNaN = false) :
    a.isNaN = false ∧ b.isNaN = false := by
  constructor
  · by_contra nan
    rw [Bool.not_eq_false, isNaN_iff] at nan
    rw [nan, left, repack_notANumber] at h
    cases h
  · by_contra nan
    rw [Bool.not_eq_false, isNaN_iff] at nan
    rw [nan, right, repack_notANumber] at h
    cases h

/-! ### Sums -/

/-- **Core adds finite numbers exactly, and then rounds.** -/
theorem rounds_add {a b : UnpackedFloat} (ha : Stored a) (hb : Stored b)
    (finite_a : a.isFinite = true) (finite_b : b.isFinite = true) :
    Rounds (valueOf a + valueOf b) (UnpackedFloat.add Format.binary64 a b) := by
  cases a with
  | notANumber | infinity => cases finite_a
  | zero s =>
      rw [valueOf_zero, zero_add]
      cases b with
      | notANumber | infinity => cases finite_b
      | zero t => cases s <;> cases t <;> exact ⟨trivial, rfl, nearest_zero.symm⟩
      | finite t n f hn => exact ⟨hb.1, rfl, (nearest_valueOf hb.rounded).symm⟩
  | finite s m e hm =>
      cases b with
      | notANumber | infinity => cases finite_b
      | zero t =>
          rw [valueOf_zero, add_zero]
          exact ⟨ha.1, rfl, (nearest_valueOf ha.rounded).symm⟩
      | finite t n f hn =>
          have exact : valueOf (.finite s m e hm) + valueOf (.finite t n f hn) =
              ((s.apply (decreaseExponent m e (min e f)).1 +
                t.apply (decreaseExponent n f (min e f)).1 : ℤ) : ℚ) * 2 ^ min e f := by
            rw [valueOf, valueOf, magnitude_eq_lowered m (min_le_left e f),
              magnitude_eq_lowered n (min_le_right e f), Int.cast_add, sign_apply_eq,
              sign_apply_eq]
            ring
          rw [exact]
          exact rounds_normalize _ _ _

/-- A float is what rounding a number to a float gives. -/
structure Yields (x : Float) (exact : ℚ) : Prop where
  not_nan : x.isNaN = false
  value_eq : value x = rounded exact

section

variable {x y : Float} {exact : ℚ}

/-- Rounding does not carry a number past a float. -/
theorem Yields.value_le (h : Yields x exact) (le : exact ≤ value y) : value x ≤ value y := by
  rw [h.value_eq, ← rounded_value y]
  exact rounded_mono le

theorem Yields.le_value (h : Yields x exact) (le : value y ≤ exact) : value y ≤ value x := by
  rw [h.value_eq, ← rounded_value y]
  exact rounded_mono le

theorem Yields.nonneg (h : Yields x exact) (le : 0 ≤ exact) : 0 ≤ value x :=
  h.le_value (y := Zero.zero) le

theorem Yields.nonpos (h : Yields x exact) (le : exact ≤ 0) : value x ≤ 0 :=
  h.value_le (y := Zero.zero) le

theorem Yields.abs_value_le (h : Yields x exact) (le : |exact| ≤ value y) :
    |value x| ≤ value y := by
  obtain ⟨lower, upper⟩ := abs_le.mp le
  have below : -value y ≤ value x := by
    rw [h.value_eq, ← rounded_value y, ← rounded_neg]
    exact rounded_mono lower
  exact abs_le.mpr ⟨below, h.value_le upper⟩

theorem Yields.isFinite_iff (h : Yields x exact) :
    x.isFinite = true ↔ |rounded exact| < limit := by
  rw [Binary64.isFinite_iff, h.value_eq]
  exact and_iff_right h.not_nan

/-- A result is finite if the exact one is no larger than some finite float. -/
theorem Yields.finite (h : Yields x exact) (hy : y.isFinite = true) (le : |exact| ≤ value y) :
    x.isFinite = true :=
  finite_of_abs_le h.not_nan hy (h.abs_value_le le)

end

theorem Rounds.yields {exact : ℚ} {u : UnpackedFloat} (h : Rounds exact u) :
    Yields ⟨Float.Model.pack u⟩ exact := by
  refine ⟨(isNaN_repack h.canonical).trans h.not_nan, ?_⟩
  rw [rounded, ← h.value_eq]
  exact valueOf_repack h.canonical

theorem yields_add {x y : Float} (hx : x.isFinite = true) (hy : y.isFinite = true) :
    Yields (x + y) (value x + value y) :=
  (rounds_add (stored x) (stored y) hx hy).yields

theorem limit_le_valueOf_infinity {s : Sign} (h : 0 ≤ valueOf (.infinity s)) :
    s = .positive ∧ limit ≤ valueOf (.infinity s) := by
  have := limit_pos
  cases s
  · rw [valueOf, factor] at h
    linarith
  · rw [valueOf, factor, one_mul]
    exact ⟨rfl, le_rfl⟩

/-- Among numbers that are not negative, infinity takes over a sum. -/
theorem add_eq_infinity {a b : UnpackedFloat} (not_nan_a : a.isNaN = false)
    (not_nan_b : b.isNaN = false) (ha : 0 ≤ valueOf a) (hb : 0 ≤ valueOf b)
    (h : ¬ (a.isFinite = true ∧ b.isFinite = true)) :
    UnpackedFloat.add Format.binary64 a b = .infinity .positive ∧
      limit ≤ valueOf a + valueOf b := by
  cases a with
  | notANumber => cases not_nan_a
  | infinity s =>
      obtain ⟨rfl, beyond⟩ := limit_le_valueOf_infinity ha
      refine ⟨?_, le_add_of_le_of_nonneg beyond hb⟩
      cases b with
      | notANumber => cases not_nan_b
      | infinity t =>
          obtain ⟨rfl, -⟩ := limit_le_valueOf_infinity hb
          rfl
      | zero t | finite t => rfl
  | zero s | finite s =>
      cases b with
      | notANumber => cases not_nan_b
      | infinity t =>
          obtain ⟨rfl, beyond⟩ := limit_le_valueOf_infinity hb
          exact ⟨rfl, le_add_of_nonneg_of_le ha beyond⟩
      | zero t | finite t => exact absurd ⟨rfl, rfl⟩ h

/-- An infinite result is right where the exact one is beyond the range. -/
theorem yields_of_eq_infinity {exact : ℚ} {u : UnpackedFloat} (hu : u = .infinity .positive)
    (beyond : limit ≤ exact) : Yields ⟨Float.Model.pack u⟩ exact := by
  have stays : repack u = .infinity .positive := by
    rw [hu, repack_infinity]
  refine ⟨congrArg UnpackedFloat.isNaN stays, ?_⟩
  rw [rounded_of_limit_le beyond]
  refine (congrArg valueOf stays).trans ?_
  rw [valueOf, factor, one_mul]

/-- **Sums of numbers that are not negative are rounded sums**, even where they overflow. -/
theorem yields_add_of_nonneg {x y : Float} (not_nan_x : x.isNaN = false)
    (not_nan_y : y.isNaN = false) (hx : 0 ≤ value x) (hy : 0 ≤ value y) :
    Yields (x + y) (value x + value y) := by
  by_cases finite : x.isFinite = true ∧ y.isFinite = true
  · exact yields_add finite.1 finite.2
  · obtain ⟨sum_eq, beyond⟩ := add_eq_infinity not_nan_x not_nan_y hx hy finite
    exact yields_of_eq_infinity sum_eq beyond

/-- NaN spreads through sums. -/
theorem not_nan_of_add {x y : Float} (h : (x + y).isNaN = false) :
    x.isNaN = false ∧ y.isNaN = false := by
  refine not_nan_of_repack (UnpackedFloat.add Format.binary64) ?_ ?_ h
  · intro b
    rfl
  · intro a
    cases a <;> rfl

/-- A sum of two numbers that are not negative is at least each of them. -/
theorem le_value_add {x y : Float} (not_nan : (x + y).isNaN = false) (hx : 0 ≤ value x)
    (hy : 0 ≤ value y) : value x ≤ value (x + y) ∧ value y ≤ value (x + y) := by
  obtain ⟨not_nan_x, not_nan_y⟩ := not_nan_of_add not_nan
  rw [(yields_add_of_nonneg not_nan_x not_nan_y hx hy).value_eq]
  constructor
  · calc value x = rounded (value x) := (rounded_value x).symm
      _ ≤ rounded (value x + value y) := rounded_mono (le_add_of_nonneg_right hy)
  · calc value y = rounded (value y) := (rounded_value y).symm
      _ ≤ rounded (value x + value y) := rounded_mono (le_add_of_nonneg_left hx)

/-! ### Products -/

/-- The product of two canonical mantissas has digits to drop, or its exponent is small. -/
theorem Canonical.add_le_unit {m n : ℕ} {e f : ℤ} (h : Canonical m e) (h' : Canonical n f)
    (hm : 0 < m) (hn : 0 < n) : e + f ≤ unit (magnitude (m * n) (e + f)) := by
  have pos := Nat.mul_pos hm hn
  rw [unit, abs_of_pos (magnitude_pos pos _), log_magnitude pos]
  by_cases smallest : e = -1074 ∧ f = -1074
  · exact le_max_of_le_right (by omega)
  · have full : 2 ^ 52 ≤ m * n := by
      have lower := h.le_exponent
      have lower' := h'.le_exponent
      by_cases above : -1074 < e
      · exact (h.full above).trans (Nat.le_mul_of_pos_right m hn)
      · exact (h'.full (by omega)).trans (Nat.le_mul_of_pos_left n hm)
    have digits := (Nat.le_log2 pos.ne').mpr full
    exact le_max_of_le_left (by omega)

/-- **Core multiplies finite numbers exactly, and then rounds.** -/
theorem rounds_mul {a b : UnpackedFloat} (ha : Stored a) (hb : Stored b)
    (finite_a : a.isFinite = true) (finite_b : b.isFinite = true) :
    Rounds (valueOf a * valueOf b) (UnpackedFloat.mul Format.binary64 a b) := by
  cases a with
  | notANumber | infinity => cases finite_a
  | zero s =>
      rw [valueOf_zero, zero_mul]
      cases b with
      | notANumber | infinity => cases finite_b
      | zero t | finite t => exact ⟨trivial, rfl, nearest_zero.symm⟩
  | finite s m e hm =>
      cases b with
      | notANumber | infinity => cases finite_b
      | zero t =>
          rw [valueOf_zero, mul_zero]
          exact ⟨trivial, rfl, nearest_zero.symm⟩
      | finite t n f hn =>
          have exact : valueOf (.finite s m e hm) * valueOf (.finite t n f hn) =
              factor (s * t) * magnitude (m * n) (e + f) := by
            rw [valueOf, valueOf, factor_mul, magnitude, magnitude, magnitude, Nat.cast_mul,
              zpow_add₀ two_ne_zero]
            ring
          rw [exact]
          exact rounds_roundWithAccuracy (s * t) (Nat.mul_pos hm hn)
            (ha.1.add_le_unit hb.1 hm hn)

theorem yields_mul {x y : Float} (hx : x.isFinite = true) (hy : y.isFinite = true) :
    Yields (x * y) (value x * value y) :=
  (rounds_mul (stored x) (stored y) hx hy).yields

theorem exists_eq_infinity {u : UnpackedFloat} (not_nan : u.isNaN = false)
    (h : ¬ u.isFinite = true) : ∃ s, u = .infinity s := by
  cases u with
  | notANumber => cases not_nan
  | infinity s => exact ⟨s, rfl⟩
  | zero | finite => exact absurd rfl h

theorem isFinite_of_not_isInf {x : Float} (not_nan : x.isNaN = false) (h : ¬ x.isInf = true) :
    x.isFinite = true := by
  by_contra infinite
  obtain ⟨s, unpacked⟩ := exists_eq_infinity not_nan infinite
  refine h ?_
  show x.toModel.unpack.isInf = true
  rw [unpacked]
  rfl

theorem abs_value_of_isInf {x : Float} (h : x.isInf = true) : |value x| = limit := by
  change x.toModel.unpack.isInf = true at h
  rw [value]
  generalize x.toModel.unpack = u at h ⊢
  cases u with
  | infinity s => exact abs_factor_mul s limit_pos.le
  | _ => cases h

/-- **Squares are rounded squares**, even where they overflow. -/
theorem yields_square {x : Float} (h : x.isNaN = false) : Yields (x * x) (value x * value x) := by
  by_cases finite : x.isFinite = true
  · exact yields_mul finite finite
  · obtain ⟨s, infinite⟩ := exists_eq_infinity h finite
    have product_eq : UnpackedFloat.mul Format.binary64 x.toModel.unpack x.toModel.unpack =
        .infinity .positive := by
      rw [infinite]
      cases s <;> rfl
    have beyond : limit ≤ value x * value x := by
      have size : |value x| = limit := by
        rw [value, infinite, valueOf, abs_factor_mul s limit_pos.le]
      have one_le : 1 ≤ limit := one_le_pow₀ one_le_two
      rw [← abs_mul_abs_self, size]
      exact le_mul_of_one_le_left limit_pos.le one_le
    exact yields_of_eq_infinity product_eq beyond

/-- A square is not negative. -/
theorem value_square_nonneg {x : Float} (h : x.isNaN = false) : 0 ≤ value (x * x) := by
  rw [(yields_square h).value_eq, ← rounded_zero]
  exact rounded_mono (mul_self_nonneg (value x))

/-- NaN spreads through products. -/
theorem not_nan_of_mul {x y : Float} (h : (x * y).isNaN = false) :
    x.isNaN = false ∧ y.isNaN = false := by
  refine not_nan_of_repack (UnpackedFloat.mul Format.binary64) ?_ ?_ h
  · intro b
    rfl
  · intro a
    cases a <;> rfl

/-! ### Infinite operands -/

/-- Packing does not make a finite number of one that is not. -/
theorem isFinite_of_repack {u : UnpackedFloat} (h : (repack u).isFinite = true) :
    u.isFinite = true := by
  cases u with
  | notANumber =>
      rw [repack_notANumber] at h
      exact h
  | infinity s =>
      rw [repack_infinity] at h
      exact h
  | zero | finite => rfl

/-- An operation that is finite only on finite numbers is so on floats, too. -/
theorem finite_operands_of_repack (op : UnpackedFloat → UnpackedFloat → UnpackedFloat)
    (operands : ∀ a b, (op a b).isFinite = true → a.isFinite = true ∧ b.isFinite = true)
    {x y : Float} (h : (repack (op x.toModel.unpack y.toModel.unpack)).isFinite = true) :
    x.isFinite = true ∧ y.isFinite = true :=
  operands _ _ (isFinite_of_repack h)

/-- A sum is finite only if both operands are. -/
theorem isFinite_of_add {x y : Float} (h : (x + y).isFinite = true) :
    x.isFinite = true ∧ y.isFinite = true := by
  refine finite_operands_of_repack (UnpackedFloat.add Format.binary64) ?_ h
  intro a b finite
  cases a with
  | notANumber => cases finite
  | infinity s => cases b with
    | infinity t => cases s <;> cases t <;> cases finite
    | _ => cases finite
  | zero | finite => cases b with
    | notANumber | infinity => cases finite
    | zero | finite => exact ⟨rfl, rfl⟩

/-- A product is finite only if both operands are. -/
theorem isFinite_of_mul {x y : Float} (h : (x * y).isFinite = true) :
    x.isFinite = true ∧ y.isFinite = true := by
  refine finite_operands_of_repack (UnpackedFloat.mul Format.binary64) ?_ h
  intro a b finite
  cases a with
  | notANumber | infinity => cases b <;> cases finite
  | zero | finite => cases b with
    | notANumber | infinity => cases finite
    | zero | finite => exact ⟨rfl, rfl⟩

/-- A finite number and an infinity that is not negative add up to that infinity. -/
theorem add_of_infinite {x y : Float} (hx : x.isFinite = true) (not_nan : y.isNaN = false)
    (nonneg : 0 ≤ value y) (infinite : ¬ y.isFinite = true) :
    (x + y).isNaN = false ∧ value (x + y) = limit := by
  obtain ⟨s, hs⟩ := exists_eq_infinity not_nan infinite
  rw [value, hs] at nonneg
  obtain ⟨rfl, -⟩ := limit_le_valueOf_infinity nonneg
  have sum_eq : UnpackedFloat.add Format.binary64 x.toModel.unpack y.toModel.unpack =
      .infinity .positive := by
    change x.toModel.unpack.isFinite = true at hx
    rw [hs]
    generalize x.toModel.unpack = a at hx ⊢
    cases a with
    | notANumber | infinity => cases hx
    | zero | finite => rfl
  have unpacked : (x + y).toModel.unpack = .infinity .positive := by
    rw [← repack_infinity, ← sum_eq]
    rfl
  refine ⟨congrArg UnpackedFloat.isNaN unpacked, ?_⟩
  rw [value, unpacked, valueOf, factor, one_mul]

/-! ### Absolute values -/

theorem stored_abs {u : UnpackedFloat} (h : Stored u) : Stored u.abs := by
  cases u with
  | finite => exact h
  | _ => trivial

theorem isNaN_abs (x : Float) : x.abs.isNaN = x.isNaN := by
  have unpacked : x.abs.isNaN = (repack x.toModel.unpack.abs).isNaN := rfl
  rw [unpacked, isNaN_repack (stored_abs (stored x)).rounded]
  show x.toModel.unpack.abs.isNaN = x.toModel.unpack.isNaN
  cases x.toModel.unpack <;> rfl

theorem value_abs (x : Float) : value x.abs = |value x| := by
  have unpacked : value x.abs = valueOf (repack x.toModel.unpack.abs) := rfl
  have stays := stored_abs (stored x)
  rw [unpacked, valueOf_repack stays.rounded, clamp_eq_self stays.abs_valueOf_le, value]
  cases x.toModel.unpack with
  | notANumber | zero => exact abs_zero.symm
  | infinity s =>
      rw [valueOf, abs_factor_mul s limit_pos.le]
      exact one_mul limit
  | finite s m e hm =>
      rw [valueOf, abs_factor_mul s (magnitude_pos hm e).le]
      exact one_mul (magnitude m e)

theorem isFinite_abs {x : Float} (h : x.isFinite = true) : x.abs.isFinite = true := by
  obtain ⟨not_nan, in_range⟩ := isFinite_iff.mp h
  exact isFinite_iff.mpr ⟨(isNaN_abs x).trans not_nan, by rwa [value_abs, abs_abs]⟩

end Binary64

/-- The coordinates of a finite point are numbers. -/
theorem Point.not_nan_of_get? {p : Point Float} (finite : p.isFinite = true) {name : String}
    {x : Float} (found : p.get? name = some x) : x.isNaN = false :=
  (Binary64.isFinite_iff.mp (Bindings.all_eq_true_iff.mp finite name x found)).1

end Downhill
