/-
Core rounds to the nearest.

Core rounds a mantissa by dropping digits one at a time, and remembers of the dropped
ones the first and whether any other was not zero.  Of a quotient it has only the whole
part from the beginning, and the same two bits about the rest.  `Dropped` says what these
bits know, which is exactly on which side of the middle the dropped part is.  So rounding
the whole part up or down is `nearestEven`, and the exponent that core aims for is `unit`.

`Rounds x u` puts together what the arithmetic on unpacked floats promises: the result
`u` stands for the number nearest to the exact one, `x`, and it is in canonical form.
-/
import Downhill.Proofs.Float.Nearest
import Downhill.Proofs.Float.Unpacked

namespace Downhill

namespace Binary64

open Float.Model Float.Model.UnpackedFloat

/-! ### Dropping digits -/

/-- What is known of the quotient `n / d` when only its whole part is kept. -/
structure Dropped (n d : ℕ) (em : ExtendedMantissa) : Prop where
  mantissa_eq : em.mantissa = n / d
  roundBit_eq : em.roundBit = decide (d ≤ 2 * (n % d))
  stickyBit_eq : em.stickyBit = decide (n % d ≠ 0 ∧ 2 * (n % d) ≠ d)

theorem Dropped.shiftRightOne {n d : ℕ} {em : ExtendedMantissa} (hd : 0 < d)
    (h : Dropped n d em) : Dropped n (d * 2) em.shiftRightOne := by
  have rest : n % (d * 2) = n % d + d * (n / d % 2) := Nat.mod_mul
  have rest_lt : n % d < d := Nat.mod_lt n hd
  have halved : n / (d * 2) = n / d / 2 := (Nat.div_div_eq_div_mul n d 2).symm
  refine ⟨?_, ?_, ?_⟩
  · rw [ExtendedMantissa.shiftRightOne, h.mantissa_eq, halved]
  · rw [ExtendedMantissa.shiftRightOne, h.mantissa_eq, rest]
    rcases Nat.mod_two_eq_zero_or_one (n / d) with digit | digit <;> simp [digit] <;> omega
  · rw [ExtendedMantissa.shiftRightOne, h.roundBit_eq, h.stickyBit_eq, rest]
    rcases Nat.mod_two_eq_zero_or_one (n / d) with digit | digit <;> simp only [digit] <;> grind

/-- Each shift drops one more digit. -/
theorem Dropped.shiftRight {n d : ℕ} {em : ExtendedMantissa} (hd : 0 < d) (h : Dropped n d em)
    (k : ℕ) : Dropped n (d * 2 ^ k) (em >>> k) := by
  induction k with
  | zero =>
      rw [pow_zero, mul_one]
      exact h
  | succ k ih =>
      rw [pow_succ, ← mul_assoc]
      exact ih.shiftRightOne (Nat.mul_pos hd (Nat.two_pow_pos k))

theorem dropped_exact (m : ℕ) : Dropped m 1 (ExtendedMantissa.ofMantissaAndAccuracy m .exact) := by
  show Dropped m 1 ⟨m, false, false⟩
  exact ⟨by simp, by simp [Nat.mod_one], by simp [Nat.mod_one]⟩

/-- **The dropped digits decide to which side to round.** -/
theorem Dropped.roundedMantissa_eq {n d : ℕ} {em : ExtendedMantissa} (hd : 0 < d)
    (h : Dropped n d em) : (em.roundedMantissa : ℤ) = nearestEven (n / d) := by
  have floor_eq : ⌊(n / d : ℚ)⌋ = (n / d : ℕ) := by
    exact_mod_cast Rat.floor_natCast_div_natCast n d
  have fract_eq : Int.fract (n / d : ℚ) = (n % d : ℕ) / (d : ℕ) := by
    exact Int.fract_div_natCast_eq_div_natCast_mod
  have pos : (0 : ℚ) < d := by exact_mod_cast hd
  have below : Int.fract (n / d : ℚ) < 1 / 2 ↔ 2 * (n % d) < d := by
    rw [fract_eq, div_lt_div_iff₀ pos two_pos, one_mul, mul_comm]
    exact_mod_cast Iff.rfl
  have above : 1 / 2 < Int.fract (n / d : ℚ) ↔ d < 2 * (n % d) := by
    rw [fract_eq, div_lt_div_iff₀ two_pos pos, one_mul, mul_comm _ (2 : ℚ)]
    exact_mod_cast Iff.rfl
  obtain ⟨q, roundBit, stickyBit⟩ := em
  obtain ⟨mantissa_eq, roundBit_eq, stickyBit_eq⟩ := h
  dsimp only at mantissa_eq roundBit_eq stickyBit_eq
  rw [nearestEven, floor_eq, ← mantissa_eq]
  simp only [below, above]
  cases roundBit <;> cases stickyBit <;>
    simp only [ExtendedMantissa.roundedMantissa, ExtendedMantissa.accuracy,
      Accuracy.roundToNearestEven] <;> grind

/-! ### The exponent to aim for -/

theorem log_quotient {n d : ℕ} (hq : 0 < n / d) (e : ℤ) :
    Int.log 2 ((n / d : ℚ) * 2 ^ e) = (n / d).log2 + e := by
  have hd : 0 < d := by
    rcases Nat.eq_zero_or_pos d with rfl | pos
    · simp at hq
    · exact pos
  have pos : (0 : ℚ) < d := by exact_mod_cast hd
  have whole_le : ((n / d : ℕ) : ℚ) ≤ n / d := Nat.cast_div_le
  have lt_next : (n / d : ℚ) < (n / d : ℕ) + 1 := by
    rw [div_lt_iff₀' pos]
    exact_mod_cast Nat.lt_mul_div_succ n hd
  have below : (n / d : ℚ) * 2 ^ e < 2 ^ ((n / d).log2 + e + 1) := by
    rw [add_right_comm, zpow_add₀ two_ne_zero]
    gcongr
    refine lt_next.trans_le ?_
    exact_mod_cast Nat.lt_log2_self (n := n / d)
  have above : 2 ^ ((n / d).log2 + e) ≤ (n / d : ℚ) * 2 ^ e := by
    rw [zpow_add₀ two_ne_zero]
    gcongr
    refine le_trans ?_ whole_le
    exact_mod_cast Nat.log2_self_le hq.ne'
  have scaled_pos : (0 : ℚ) < (n / d : ℚ) * 2 ^ e := lt_of_lt_of_le (by positivity) above
  have lt := (Int.lt_zpow_iff_log_lt (b := 2) one_lt_two scaled_pos).mp (by exact_mod_cast below)
  have le := (Int.zpow_le_iff_le_log (b := 2) one_lt_two scaled_pos).mp (by exact_mod_cast above)
  omega

theorem log_magnitude {m : ℕ} (hm : 0 < m) (e : ℤ) :
    Int.log 2 (magnitude m e) = m.log2 + e := by
  have quotient := log_quotient (n := m) (d := 1) (by rwa [Nat.div_one]) e
  rwa [Nat.cast_one, div_one, Nat.div_one] at quotient

theorem targetExponent_eq_max (m : ℕ) (e : ℤ) :
    Format.binary64.targetExponent (totalExponent m e) = max (m.log2 + e - 52) (-1074) := by
  simp only [Format.targetExponent, totalExponent, Format.mantissaBits, Format.minExponent]
  norm_num
  omega

/-- Core aims for the exponent of the last digit, although it sees only the whole part of a
quotient. -/
theorem targetExponent_quotient {n d : ℕ} (hn : 0 < n) (hd : 0 < d) {e : ℤ}
    (visible : 0 < n / d ∨ e ≤ -1074) :
    Format.binary64.targetExponent (totalExponent (n / d) e) = unit ((n / d : ℚ) * 2 ^ e) := by
  have pos : (0 : ℚ) < (n / d : ℚ) * 2 ^ e := by positivity
  rw [targetExponent_eq_max, unit, abs_of_pos pos]
  rcases Nat.eq_zero_or_pos (n / d) with zero | hq
  · -- Nothing of the quotient is left, but then it is too small for its digits to matter.
    have fraction : (n / d : ℚ) < 1 := by
      rw [div_lt_one (by exact_mod_cast hd)]
      exact_mod_cast (Nat.div_eq_zero_iff_lt hd).mp zero
    have small : (n / d : ℚ) * 2 ^ e < 2 ^ e := mul_lt_of_lt_one_left (by positivity) fraction
    have log_lt := (Int.lt_zpow_iff_log_lt (b := 2) one_lt_two pos).mp (by exact_mod_cast small)
    have low : e ≤ -1074 := visible.resolve_left (by omega)
    rw [zero, Nat.log2_zero]
    omega
  · rw [log_quotient hq]

theorem targetExponent_eq {m : ℕ} (hm : 0 < m) (e : ℤ) :
    Format.binary64.targetExponent (totalExponent m e) = unit (magnitude m e) := by
  rw [targetExponent_eq_max, unit, abs_of_pos (magnitude_pos hm e), log_magnitude hm]

/-- Shifting drops the digits below the exponent that is aimed for. -/
theorem shiftToTargetExponent_eq (m : ℕ) (e : ℤ) (accuracy : Accuracy) {t : ℤ} {k : ℕ}
    (target : Format.binary64.targetExponent (totalExponent m e) = t) (hk : (t - e).toNat = k) :
    shiftToTargetExponent Format.binary64 m e accuracy =
      (ExtendedMantissa.ofMantissaAndAccuracy m accuracy >>> k, e + k) := by
  rw [shiftToTargetExponent, target, shiftToExponent, hk]

/-- Rounding up can need a digit too many, which is then a zero and dropped as well. -/
theorem exists_carry {m : ℕ} {e : ℤ} (hm : m ≤ 2 ^ 53) (he : -1074 ≤ e)
    (full : -1074 < e → 2 ^ 52 ≤ m) :
    ∃ em f, shiftToTargetExponent Format.binary64 m e .exact = (em, f) ∧
      Canonical em.mantissa f ∧ magnitude em.mantissa f = magnitude m e := by
  rcases hm.lt_or_eq with lt | rfl
  · have digits : m.log2 ≤ 52 := by
      rcases Nat.eq_zero_or_pos m with rfl | pos
      · decide
      · have := (Nat.log2_lt pos.ne').mpr lt
        omega
    have stays : (Format.binary64.targetExponent (totalExponent m e) - e).toNat = 0 := by
      rw [targetExponent_eq_max]
      omega
    have mantissa_eq := ((dropped_exact m).shiftRight one_pos 0).mantissa_eq
    rw [pow_zero, mul_one, Nat.div_one] at mantissa_eq
    refine ⟨_, _, shiftToTargetExponent_eq m e .exact rfl stays, ?_, ?_⟩ <;>
      rw [mantissa_eq, Nat.cast_zero, add_zero]
    exact ⟨lt, he, full⟩
  · have carries : (Format.binary64.targetExponent (totalExponent (2 ^ 53) e) - e).toNat = 1 := by
      rw [targetExponent_eq_max, Nat.log2_two_pow]
      omega
    have mantissa_eq := ((dropped_exact (2 ^ 53)).shiftRight one_pos 1).mantissa_eq
    refine ⟨_, _, shiftToTargetExponent_eq (2 ^ 53) e .exact rfl carries, ?_, ?_⟩ <;>
      rw [mantissa_eq, Nat.cast_one]
    · exact ⟨by norm_num, by omega, fun _ => by norm_num⟩
    · rw [magnitude, magnitude, zpow_add₀ two_ne_zero]
      norm_num
      ring

/-! ### Rounding -/

/-- An unpacked float is what a number rounds to. -/
structure Rounds (x : ℚ) (u : UnpackedFloat) : Prop where
  canonical : Rounded u
  not_nan : u.isNaN = false
  value_eq : valueOf u = nearest x

theorem nearest_factor_mul (s : Sign) (x : ℚ) : nearest (factor s * x) = factor s * nearest x := by
  cases s
  · rw [factor, neg_one_mul, neg_one_mul, nearest_neg]
  · rw [factor, one_mul, one_mul]

/-- **Core rounds a quotient to the nearest number**, if there are digits to drop.  It has the
whole part of the quotient, and of the rest only on which side of the middle it is. -/
theorem rounds_quotient (s : Sign) {n d : ℕ} (hn : 0 < n) (hd : 0 < d) {accuracy : Accuracy}
    (known : Dropped n d (ExtendedMantissa.ofMantissaAndAccuracy (n / d) accuracy)) {e : ℤ}
    (visible : 0 < n / d ∨ e ≤ -1074) (he : e ≤ unit ((n / d : ℚ) * 2 ^ e)) :
    Rounds (factor s * ((n / d : ℚ) * 2 ^ e))
      (roundWithAccuracy Format.binary64 s (n / d) e accuracy) := by
  have pos : (0 : ℚ) < (n / d : ℚ) * 2 ^ e := by positivity
  have target := targetExponent_quotient hn hd visible
  have at_most := digits_le pos
  have at_least := le_digits pos
  have least := le_unit ((n / d : ℚ) * 2 ^ e)
  obtain ⟨k, hk⟩ := Int.le.dest he
  have shift : (unit ((n / d : ℚ) * 2 ^ e) - e).toNat = k := by omega
  have first := shiftToTargetExponent_eq (n / d) e accuracy target shift
  have dropped := (known.shiftRight hd k).roundedMantissa_eq (Nat.mul_pos hd (Nat.two_pow_pos k))
  generalize ExtendedMantissa.ofMantissaAndAccuracy (n / d) accuracy >>> k = em at first dropped
  have scaled : (n / (d * 2 ^ k : ℕ) : ℚ) =
      (n / d : ℚ) * 2 ^ e / 2 ^ unit ((n / d : ℚ) * 2 ^ e) := by
    have pow_ne : (2 : ℚ) ^ e ≠ 0 := by positivity
    rw [← hk, zpow_add₀ two_ne_zero, zpow_natCast, mul_comm (n / d : ℚ),
      mul_div_mul_left _ _ pow_ne, div_div]
    push_cast
    rfl
  rw [scaled] at dropped
  rw [← dropped] at at_most at_least
  obtain ⟨em', f, second, canonical, same⟩ := exists_carry (m := em.roundedMantissa)
    (by exact_mod_cast at_most) least (by exact_mod_cast at_least)
  have value_eq : magnitude em'.mantissa f = nearest ((n / d : ℚ) * 2 ^ e) := by
    rw [same, nearest, ← dropped, magnitude]
    push_cast
    rfl
  rw [hk] at first
  simp only [roundWithAccuracy, first, second]
  split
  · rename_i zero
    refine ⟨trivial, rfl, ?_⟩
    rw [nearest_factor_mul, ← value_eq, zero, magnitude, Nat.cast_zero, zero_mul, mul_zero]
    rfl
  · refine ⟨canonical, rfl, ?_⟩
    rw [nearest_factor_mul, ← value_eq]
    rfl

/-- **Core rounds to the nearest number**, if there are digits to drop. -/
theorem rounds_roundWithAccuracy (s : Sign) {m : ℕ} (hm : 0 < m) {e : ℤ}
    (he : e ≤ unit (magnitude m e)) :
    Rounds (factor s * magnitude m e) (roundWithAccuracy Format.binary64 s m e .exact) := by
  have whole : (m / (1 : ℕ) : ℚ) * 2 ^ e = magnitude m e := by
    rw [Nat.cast_one, div_one, magnitude]
  have known : Dropped m 1 (ExtendedMantissa.ofMantissaAndAccuracy (m / 1) .exact) := by
    rw [Nat.div_one]
    exact dropped_exact m
  have rounds := rounds_quotient s hm one_pos known (e := e) (.inl (by rwa [Nat.div_one]))
    (by rwa [whole])
  rwa [whole, Nat.div_one] at rounds

/-- Appending zeros to a mantissa does not change the number. -/
theorem magnitude_decreaseExponent (m : ℕ) (e t : ℤ) :
    magnitude (decreaseExponent m e t).1 (decreaseExponent m e t).2 = magnitude m e := by
  rw [decreaseExponent, magnitude, magnitude, Nat.shiftLeft_eq]
  push_cast
  rw [← zpow_natCast, mul_assoc, ← zpow_add₀ two_ne_zero, add_sub_cancel]

/-- What a mantissa becomes when its exponent is lowered to that of the other operand. -/
theorem magnitude_eq_lowered (m : ℕ) {e t : ℤ} (h : t ≤ e) :
    magnitude m e = (decreaseExponent m e t).1 * 2 ^ t := by
  have lowered : (decreaseExponent m e t).2 = t := by
    rw [decreaseExponent]
    dsimp only
    omega
  rw [← magnitude_decreaseExponent m e t, magnitude, lowered]

/-- **Core rounds every positive number to the nearest.** -/
theorem rounds_round (s : Sign) {m : ℕ} (hm : 0 < m) (e : ℤ) :
    Rounds (factor s * magnitude m e) (UnpackedFloat.round Format.binary64 s m e) := by
  have same := magnitude_decreaseExponent m e (unit (magnitude m e))
  have lowered : (decreaseExponent m e (unit (magnitude m e))).2 ≤ unit (magnitude m e) := by
    rw [decreaseExponent]
    dsimp only
    omega
  have pos : 0 < (decreaseExponent m e (unit (magnitude m e))).1 := by
    rw [decreaseExponent, Nat.shiftLeft_eq]
    positivity
  simp only [UnpackedFloat.round, targetExponent_eq hm]
  generalize decreaseExponent m e (unit (magnitude m e)) = shifted at same lowered pos
  rw [← same] at lowered
  have rounds := rounds_roundWithAccuracy s pos lowered
  rwa [same] at rounds

/-- **Core rounds every number to the nearest.** -/
theorem rounds_normalize (m e : ℤ) (zeroSign : Sign) :
    Rounds (m * 2 ^ e) (UnpackedFloat.normalize Format.binary64 m e zeroSign) := by
  unfold UnpackedFloat.normalize
  rcases lt_trichotomy m 0 with neg | rfl | pos
  · rw [compare_lt_iff_lt.mpr neg]
    obtain ⟨n, rfl⟩ : ∃ n : ℕ, m = -n := ⟨m.natAbs, by omega⟩
    rw [neg_neg, Int.toNat_natCast]
    have := rounds_round .negative (by omega : 0 < n) e
    rwa [factor, magnitude, neg_one_mul, ← neg_mul, ← Int.cast_natCast, ← Int.cast_neg] at this
  · rw [compare_eq_iff_eq.mpr rfl]
    refine ⟨trivial, rfl, ?_⟩
    rw [Int.cast_zero, zero_mul, nearest_zero]
    rfl
  · rw [compare_gt_iff_gt.mpr pos]
    obtain ⟨n, rfl⟩ : ∃ n : ℕ, m = n := ⟨m.natAbs, by omega⟩
    rw [Int.toNat_natCast]
    have := rounds_round .positive (by omega : 0 < n) e
    rwa [factor, one_mul, magnitude, ← Int.cast_natCast] at this

end Binary64

end Downhill
