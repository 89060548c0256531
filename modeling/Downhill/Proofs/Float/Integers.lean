/-
Whole numbers as floats, and floats as whole numbers.

A natural number of 53 digits becomes the float with that value, and a longer one is rounded
like any other number (`yields_ofNat`).  In the other direction core drops the digits after the
point (`toNat_toUInt64`), so a count that is read off a float is the floor of its value.
-/
import Downhill.Proofs.Float.Arithmetic

namespace Downhill

namespace Binary64

open Float.Model Float.Model.UnpackedFloat

/-! ### From natural numbers -/

theorem two_pow_le_limit {k : ℕ} (h : k ≤ 1024) : (2 : ℚ) ^ k ≤ limit :=
  pow_le_pow_right₀ one_le_two h

/-- **What 53 digits can hold is not rounded**, and not cut off below the end of the range. -/
theorem rounded_eq_self {m e : ℤ} (hm : |m| < 2 ^ 53) (he : -1074 ≤ e) (he' : e ≤ 971) :
    rounded (m * 2 ^ e) = m * 2 ^ e := by
  rw [rounded, nearest_eq_self hm he, clamp_eq_self]
  have power_pos : (0 : ℚ) < 2 ^ e := by positivity
  calc |(m : ℚ) * 2 ^ e| = |(m : ℚ)| * 2 ^ e := by rw [abs_mul, abs_of_pos power_pos]
    _ ≤ 2 ^ 53 * 2 ^ e := by
        gcongr
        exact_mod_cast hm.le
    _ ≤ limit := by
        rw [limit, ← zpow_natCast, ← zpow_natCast, ← zpow_add₀ two_ne_zero]
        exact zpow_le_zpow_right₀ one_le_two (by push_cast; omega)

/-- Natural numbers of 53 digits are not rounded. -/
theorem rounded_natCast {n : ℕ} (h : n < 2 ^ 53) : rounded n = n := by
  have exact := rounded_eq_self (m := n) (e := 0) (by rw [Nat.abs_cast]; exact_mod_cast h)
    (by norm_num) (by norm_num)
  rwa [zpow_zero, mul_one, Int.cast_natCast] at exact

/-- What is rounded to less than a whole number is less than it. -/
theorem lt_of_rounded_lt {x : ℚ} {n : ℕ} (short : n < 2 ^ 53) (h : rounded x < n) : x < n := by
  by_contra not_less
  have := rounded_mono (not_lt.mp not_less)
  rw [rounded_natCast short] at this
  exact this.not_gt h

/-- Natural numbers of 53 digits are in range. -/
theorem abs_natCast_lt_limit {n : ℕ} (h : n < 2 ^ 53) : |(n : ℚ)| < limit := by
  rw [Nat.abs_cast]
  exact lt_of_lt_of_le (by exact_mod_cast h) (two_pow_le_limit (by norm_num : 53 ≤ 1024))

theorem yields_toFloat (n : UInt64) : Yields n.toFloat n.toNat := by
  have rounds := (rounds_normalize n.toNat 0 .positive).yields
  rwa [zpow_zero, mul_one, Int.cast_natCast] at rounds

/-- A mantissa that is followed by zeros is not too short to be rounded. -/
theorem rounds_mul_one {n : ℕ} (hn : 0 < n) :
    Rounds n (UnpackedFloat.ofScientific Format.binary64 n 0) := by
  have shifted_pos : 0 < (n <<< 53) * 10 ^ 0 := by
    rw [pow_zero, mul_one, Nat.shiftLeft_eq]
    positivity
  have same : magnitude ((n <<< 53) * 10 ^ 0) (-53 + 0) = n := by
    rw [magnitude, pow_zero, mul_one, Nat.shiftLeft_eq, add_zero, zpow_neg, zpow_ofNat]
    push_cast
    exact mul_inv_cancel_right₀ (by positivity) _
  have visible : (-53 + 0 : ℤ) ≤ unit (magnitude ((n <<< 53) * 10 ^ 0) (-53 + 0)) := by
    have one_le : (1 : ℚ) ≤ n := by exact_mod_cast hn
    have digits := (Int.zpow_le_iff_le_log (b := 2) one_lt_two (zero_lt_one.trans_le one_le)).mp
      (show ((2 : ℕ) : ℚ) ^ (0 : ℤ) ≤ n by rwa [zpow_zero])
    rw [same, unit, abs_of_pos (zero_lt_one.trans_le one_le)]
    omega
  have rounds := rounds_roundWithAccuracy .positive shifted_pos visible
  rw [same, factor, one_mul] at rounds
  have product_eq : UnpackedFloat.ofScientific Format.binary64 n 0 =
      roundWithAccuracy Format.binary64 .positive ((n <<< 53) * 10 ^ 0) (-53 + 0) .exact := by
    have range : (0 : ℤ) < 2 ^ Format.binary64.exponentBits := by positivity
    rw [UnpackedFloat.ofScientific, dif_neg hn.ne', if_neg range.le.not_gt, if_neg (by omega),
      if_pos le_rfl]
    rfl
  rwa [product_eq]

/-- **A natural number becomes the nearest float.** -/
theorem yields_ofNat (n : ℕ) : Yields (Float.ofNat n) n := by
  by_cases short : n < 2 ^ 53
  · have product_eq : Float.ofNat n = n.toUInt64.toFloat * One.one := by
      show (if h : n < 2 ^ 53 ∧ 0 ≤ 22 then _ else _) = _
      rw [dif_pos ⟨short, Nat.zero_le 22⟩]
      rfl
    have word_eq : n.toUInt64.toNat = n :=
      Nat.mod_eq_of_lt (short.trans (by norm_num))
    have whole := yields_toFloat n.toUInt64
    rw [word_eq] at whole
    have finite : n.toUInt64.toFloat.isFinite = true := by
      rw [whole.isFinite_iff, rounded_natCast short]
      exact abs_natCast_lt_limit short
    have product := yields_mul finite isFinite_one
    rw [whole.value_eq, rounded_natCast short, value_one, mul_one] at product
    rwa [product_eq]
  · have scientific_eq : Float.ofNat n =
        ⟨Float.Model.pack (UnpackedFloat.ofScientific Format.binary64 n 0)⟩ := by
      show (if h : n < 2 ^ 53 ∧ 0 ≤ 22 then _ else _) = _
      rw [dif_neg fun h => short h.1]
      rfl
    rw [scientific_eq]
    exact (rounds_mul_one (Nat.zero_lt_of_lt (not_lt.mp short))).yields

/-- A natural number of 53 digits becomes a float with its value. -/
theorem value_ofNat {n : ℕ} (h : n < 2 ^ 53) : value (Float.ofNat n) = n :=
  (yields_ofNat n).value_eq.trans (rounded_natCast h)

theorem isFinite_ofNat {n : ℕ} (h : n < 2 ^ 53) : (Float.ofNat n).isFinite = true := by
  rw [(yields_ofNat n).isFinite_iff, rounded_natCast h]
  exact abs_natCast_lt_limit h

/-! ### To natural numbers -/

theorem toNat_ofNatClamp {n : ℕ} (h : n < UInt64.size) : (UInt64.ofNatClamp n).toNat = n := by
  rw [UInt64.ofNatClamp, dif_pos h, UInt64.toNat_ofNatLT]

/-- Core drops the digits of a positive number that come after the point. -/
theorem roundToInt_positive (m : ℕ) (e : ℤ) :
    (roundToInt .positive m e).toNat = ⌊magnitude m e⌋₊ := by
  have same := magnitude_decreaseExponent m e 0
  have lowered : (decreaseExponent m e 0).2 ≤ 0 := by
    rw [decreaseExponent]
    dsimp only
    omega
  rw [roundToInt]
  generalize decreaseExponent m e 0 = shifted at same lowered
  obtain ⟨m', e'⟩ := shifted
  dsimp only at same lowered ⊢
  obtain ⟨k, rfl⟩ : ∃ k : ℕ, e' = -k := ⟨(-e').toNat, by omega⟩
  have dropped := ((dropped_exact m').shiftRight one_pos k).mantissa_eq
  rw [one_mul] at dropped
  have shift_eq : (shiftToExponent m' (-k) .exact 0).1.mantissa = m' / 2 ^ k := by
    rw [← dropped, shiftToExponent, zero_sub, neg_neg, Int.toNat_natCast]
  rw [shift_eq, ← same, magnitude, zpow_neg, zpow_natCast, ← div_eq_mul_inv]
  show m' / 2 ^ k = ⌊(m' / 2 ^ k : ℚ)⌋₊
  exact_mod_cast (Nat.floor_div_eq_div (K := ℚ) m' (2 ^ k)).symm

theorem toNat_toInt {u : UnpackedFloat} (nonneg : 0 ≤ valueOf u) (lt : valueOf u < 2 ^ 64)
    (bottom top : ℤ) : (u.toInt bottom top).toNat = ⌊valueOf u⌋₊ := by
  cases u with
  | notANumber | zero => exact Nat.floor_zero.symm
  | infinity s =>
      obtain ⟨rfl, beyond⟩ := limit_le_valueOf_infinity nonneg
      exact absurd ((two_pow_le_limit (by norm_num)).trans beyond) lt.not_ge
  | finite s m e hm =>
      cases s with
      | negative =>
          rw [valueOf, factor, neg_one_mul] at nonneg
          exact absurd (neg_nonneg.mp nonneg) (magnitude_pos hm e).not_ge
      | positive =>
          rw [valueOf, factor, one_mul, UnpackedFloat.toInt, roundToInt_positive]

/-- **The whole number that core makes of a float is its floor.** -/
theorem toNat_toUInt64 {x : Float} (nonneg : 0 ≤ value x) (lt : value x < 2 ^ 64) :
    x.toUInt64.toNat = ⌊value x⌋₊ := by
  have floor_lt : ⌊value x⌋₊ < UInt64.size := (Nat.floor_lt nonneg).mpr lt
  rw [← toNat_ofNatClamp floor_lt, value, ← toNat_toInt nonneg lt]
  rfl

end Binary64

end Downhill
