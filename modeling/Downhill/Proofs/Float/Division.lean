/-
Quotients of floats.

Core divides mantissas as natural numbers, after it has appended so many zeros to the
dividend that the whole part of the quotient has all the digits a float can hold.  Of the
rest it keeps only on which side of one half it is, which is all that rounding asks for
(`dropped_quotient`).  So a quotient is rounded once, and correctly: `yields_div`.

Infinities divide as zero divides: a number over an infinity is zero, and an infinity over
an infinity is NaN.
-/
import Downhill.Proofs.Float.Arithmetic

namespace Downhill

namespace Binary64

open Float.Model Float.Model.UnpackedFloat

/-! ### Quotients of mantissas -/

theorem factor_div (s t : Sign) : factor (s / t) = factor s / factor t := by
  cases s <;> cases t
  · exact (div_self (neg_ne_zero.mpr one_ne_zero)).symm
  · exact (div_one (-1 : ℚ)).symm
  · exact one_div_neg_one_eq_neg_one.symm
  · exact (div_one (1 : ℚ)).symm

/-- The accuracy of a division is what is known of the rest. -/
theorem dropped_quotient (n : ℕ) {d : ℕ} (hd : 0 < d) :
    Dropped n d
      (ExtendedMantissa.ofMantissaAndAccuracy (n / d) (accuracyOfFraction (n % d) d)) := by
  unfold accuracyOfFraction
  split
  · rename_i whole
    exact ⟨rfl, by simp [ExtendedMantissa.ofMantissaAndAccuracy, whole, hd.ne'],
      by simp [ExtendedMantissa.ofMantissaAndAccuracy, whole]⟩
  · rename_i rest
    rcases lt_trichotomy (2 * (n % d)) d with lt | eq | gt
    · rw [compare_lt_iff_lt.mpr lt]
      exact ⟨rfl, by simp [ExtendedMantissa.ofMantissaAndAccuracy, lt],
        by simp [ExtendedMantissa.ofMantissaAndAccuracy, rest, lt.ne]⟩
    · rw [compare_eq_iff_eq.mpr eq]
      exact ⟨rfl, by simp [ExtendedMantissa.ofMantissaAndAccuracy, eq],
        by simp [ExtendedMantissa.ofMantissaAndAccuracy, eq]⟩
    · rw [compare_gt_iff_gt.mpr gt]
      exact ⟨rfl, by simp [ExtendedMantissa.ofMantissaAndAccuracy, gt.le],
        by simp [ExtendedMantissa.ofMantissaAndAccuracy, rest, gt.ne']⟩

section

variable {m n : ℕ} {e f : ℤ}

/-- A quotient has at most one binary digit less than those of its operands suggest. -/
theorem le_log_div (hm : 0 < m) (hn : 0 < n) :
    (m.log2 : ℤ) + e - (n.log2 + f) ≤ Int.log 2 (magnitude m e / magnitude n f) + 1 := by
  have lower : (2 : ℚ) ^ ((m.log2 : ℤ) + e) ≤ magnitude m e := by
    rw [← log_magnitude hm e]
    exact Int.zpow_log_le_self one_lt_two (magnitude_pos hm e)
  have upper : magnitude n f < 2 ^ ((n.log2 : ℤ) + f + 1) := by
    rw [← log_magnitude hn f]
    exact Int.lt_zpow_succ_log_self one_lt_two _
  have pos := magnitude_pos hn f
  have bound : (2 : ℚ) ^ ((m.log2 : ℤ) + e - (n.log2 + f + 1)) ≤ magnitude m e / magnitude n f := by
    rw [le_div_iff₀ pos, zpow_sub₀ two_ne_zero, div_mul_eq_mul_div, div_le_iff₀ (by positivity)]
    have nonneg := (magnitude_pos hm e).le
    gcongr
  have := (Int.zpow_le_iff_le_log (b := 2) one_lt_two
    (div_pos (magnitude_pos hm e) pos)).mp (by exact_mod_cast bound)
  omega

/-- **Core divides positive numbers exactly, and then rounds.**  It lowers the exponent of the
dividend until the quotient has all the digits that count. -/
theorem rounds_divCore (s : Sign) (hm : 0 < m) (hn : 0 < n) (e f : ℤ) :
    Rounds (factor s * (magnitude m e / magnitude n f))
      (roundWithAccuracy Format.binary64 s (divCore Format.binary64 m e n f).1
        (divCore Format.binary64 m e n f).2.1 (divCore Format.binary64 m e n f).2.2) := by
  have target_eq : Format.binary64.targetExponent (totalExponent m e - totalExponent n f) =
      max ((m.log2 : ℤ) + e - (n.log2 + f) - 53) (-1074) := by
    simp only [Format.targetExponent, totalExponent, Format.mantissaBits, Format.minExponent]
    norm_num
    omega
  have log_le := le_log_div (e := e) (f := f) hm hn
  rw [divCore, target_eq]
  dsimp only
  generalize ht : min (e - f) (max ((m.log2 : ℤ) + e - (n.log2 + f) - 53) (-1074)) = t
  obtain ⟨k, hk⟩ : ∃ k : ℕ, e - f = t + k := ⟨(e - f - t).toNat, by omega⟩
  have shift : (e - f - t).toNat = k := by omega
  rw [shift, Nat.shiftLeft_eq]
  have exact : (magnitude m e / magnitude n f) = ((m * 2 ^ k : ℕ) / n : ℚ) * 2 ^ t := by
    have split : (2 : ℚ) ^ e = 2 ^ k * 2 ^ t * 2 ^ f := by
      rw [← zpow_natCast, ← zpow_add₀ two_ne_zero, ← zpow_add₀ two_ne_zero]
      congr 1
      omega
    have pow_ne : (2 : ℚ) ^ f ≠ 0 := by positivity
    rw [magnitude, magnitude, split, ← mul_assoc, mul_div_mul_right _ _ pow_ne]
    push_cast
    ring
  rw [exact] at log_le ⊢
  have pos : (0 : ℚ) < ((m * 2 ^ k : ℕ) / n : ℚ) * 2 ^ t := by positivity
  refine rounds_quotient s (Nat.mul_pos hm (Nat.two_pow_pos k)) hn (dropped_quotient _ hn) ?_ ?_
  · rcases le_or_gt t (-1074) with low | high
    · exact .inr low
    · have one_le : (1 : ℚ) ≤ (m * 2 ^ k : ℕ) / n := by
        have digits := (Int.zpow_le_iff_le_log (b := 2) one_lt_two pos).mpr
          (by omega : t ≤ Int.log 2 _)
        exact le_of_mul_le_mul_right (by rwa [one_mul]) (by positivity : (0 : ℚ) < 2 ^ t)
      rw [one_le_div (by exact_mod_cast hn)] at one_le
      exact .inl (Nat.div_pos (by exact_mod_cast one_le) hn)
  · rw [unit, abs_of_pos pos]
    omega

end

/-- **Core divides finite numbers exactly, and then rounds.** -/
theorem rounds_div {a b : UnpackedFloat} (finite_a : a.isFinite = true)
    (finite_b : b.isFinite = true) (nonzero : valueOf b ≠ 0) :
    Rounds (valueOf a / valueOf b) (UnpackedFloat.div Format.binary64 a b) := by
  cases b with
  | notANumber | infinity => cases finite_b
  | zero t => exact absurd rfl nonzero
  | finite t n f hn =>
      cases a with
      | notANumber | infinity => cases finite_a
      | zero s =>
          rw [valueOf_zero, zero_div]
          exact ⟨trivial, rfl, nearest_zero.symm⟩
      | finite s m e hm =>
          have exact : valueOf (.finite s m e hm) / valueOf (.finite t n f hn) =
              factor (s / t) * (magnitude m e / magnitude n f) := by
            rw [valueOf, valueOf, factor_div, mul_div_mul_comm]
          rw [exact]
          exact rounds_divCore (s / t) hm hn e f

theorem yields_div {x y : Float} (hx : x.isFinite = true) (hy : y.isFinite = true)
    (nonzero : value y ≠ 0) : Yields (x / y) (value x / value y) :=
  (rounds_div hx hy nonzero).yields

/-- NaN spreads through quotients. -/
theorem not_nan_of_div {x y : Float} (h : (x / y).isNaN = false) :
    x.isNaN = false ∧ y.isNaN = false := by
  refine not_nan_of_repack (UnpackedFloat.div Format.binary64) ?_ ?_ h
  · intro b
    rfl
  · intro a
    cases a <;> rfl

theorem unpacked_div_infinity (a : UnpackedFloat) (t : Sign) :
    (a.isFinite = true ∧ ∃ s, UnpackedFloat.div Format.binary64 a (.infinity t) = .zero s) ∨
      UnpackedFloat.div Format.binary64 a (.infinity t) = .notANumber := by
  cases a with
  | notANumber | infinity s => exact .inr rfl
  | zero s | finite s => exact .inl ⟨rfl, _, rfl⟩

/-- A finite number over an infinity is zero, and nothing else is a number. -/
theorem div_infinity {x y : Float} (infinite : ¬ y.isFinite = true)
    (not_nan : (x / y).isNaN = false) : x.isFinite = true ∧ value (x / y) = 0 := by
  obtain ⟨-, not_nan_y⟩ := not_nan_of_div not_nan
  obtain ⟨t, ht⟩ := exists_eq_infinity not_nan_y infinite
  have quotient_eq : (x / y).toModel.unpack =
      repack (UnpackedFloat.div Format.binary64 x.toModel.unpack (.infinity t)) := by
    rw [← ht]
    rfl
  rcases unpacked_div_infinity x.toModel.unpack t with ⟨finite, s, zero⟩ | nan
  · rw [zero, repack_zero] at quotient_eq
    exact ⟨finite, by rw [value, quotient_eq, valueOf_zero]⟩
  · rw [nan, repack_notANumber] at quotient_eq
    change (x / y).toModel.unpack.isNaN = false at not_nan
    rw [quotient_eq] at not_nan
    cases not_nan

end Binary64

end Downhill
