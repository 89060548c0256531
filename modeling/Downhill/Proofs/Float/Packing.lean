/-
What survives being stored in 64 bits.

Every result of core's arithmetic is packed into a word, and unpacked again when it is
used.  Unpacking gives canonical numbers (`stored_unpack`).  A canonical number that is
in range comes back as it was, and one that is out of range comes back as an infinity;
so packing cuts the numbers off at `limit` (`valueOf_repack`) and does nothing else.
-/
import Downhill.Proofs.Float.Rounding

namespace Downhill

namespace Binary64

open Float.Model Float.Model.UnpackedFloat

/-! ### The fields of a word -/

theorem exponentBias_eq : Format.binary64.exponentBias = 1023 := rfl

theorem mantissaBits_eq : Format.binary64.mantissaBits = 53 := rfl

theorem toNat_one_append (m : BitVec 52) : (1#1 ++ m).toNat = 2 ^ 52 + m.toNat := by
  rw [BitVec.toNat_append, ← Nat.shiftLeft_add_eq_or_of_lt m.isLt]
  rfl

/-- **What is unpacked is canonical and in range.** -/
theorem stored_unpack (b : BitVec Format.binary64.numBits) : Stored (unpack Format.binary64 b) := by
  have mantissa_lt : (unpackMantissa b).toNat < 2 ^ 52 := (unpackMantissa b).isLt
  have exponent_lt : (unpackExponent b).toNat < 2 ^ 11 := (unpackExponent b).isLt
  simp only [UnpackedFloat.unpack, exponentBias_eq]
  split
  · split <;> trivial
  rename_i exponent_ne
  have exponent_ne_max : (unpackExponent b).toNat ≠ 2047 := by
    intro h
    exact exponent_ne (BitVec.eq_of_toNat_eq h)
  split
  · rename_i exponent_zero
    split
    · trivial
    · rw [exponent_zero]
      exact ⟨⟨by omega, by norm_num, by norm_num⟩, by norm_num⟩
  · rename_i exponent_ne_zero
    have exponent_pos : (unpackExponent b).toNat ≠ 0 := by
      intro h
      exact exponent_ne_zero (BitVec.eq_of_toNat_eq h)
    have full := toNat_one_append (unpackMantissa b)
    refine ⟨⟨?_, ?_, fun _ => ?_⟩, ?_⟩
    · omega
    · push_cast
      omega
    · omega
    · push_cast
      omega

/-! ### There and back -/

/-- What comes out of packing an unpacked float. -/
def repack (u : UnpackedFloat) : UnpackedFloat := (Float.Model.pack u).unpack

theorem repack_notANumber : repack .notANumber = .notANumber := rfl

theorem repack_infinity (s : Sign) : repack (.infinity s) = .infinity s := by
  cases s <;> rfl

theorem repack_zero (s : Sign) : repack (.zero s) = .zero s := by
  cases s <;> rfl

section

variable (s : Sign)

theorem unpack_normal {e : BitVec 11} (m : BitVec 52) (he : e.toNat ≠ 0) (he' : e.toNat ≠ 2047) :
    UnpackedFloat.unpack Format.binary64 (packComponents Format.binary64 s e m) =
      .finite s (2 ^ 52 + m.toNat) (e.toNat - 1075) (Nat.add_pos_left (Nat.two_pow_pos 52) _) := by
  have not_special : e ≠ 2047#11 := by
    intro h
    exact he' (congrArg BitVec.toNat h)
  have not_zero : e ≠ 0#11 := by
    intro h
    exact he (congrArg BitVec.toNat h)
  simp [UnpackedFloat.unpack, not_special, not_zero, toNat_one_append, exponentBias_eq]

theorem unpack_subnormal {m : BitVec 52} (hm : 0 < m.toNat) :
    UnpackedFloat.unpack Format.binary64 (packComponents Format.binary64 s 0#11 m) =
      .finite s m.toNat (-1074) hm := by
  have not_zero : m ≠ 0#52 := by
    intro h
    exact hm.ne' (congrArg BitVec.toNat h)
  simp [UnpackedFloat.unpack, not_zero, exponentBias_eq]

variable {m : ℕ} {e : ℤ} (hm : 0 < m)

/-- A finite number that is in range comes back as it was. -/
theorem repack_finite (h : Canonical m e) (he : e ≤ 971) :
    repack (.finite s m e hm) = .finite s m e hm := by
  have in_range : ¬ 2 ^ 11 ≤ (e + (1023 : ℕ) + (52 : ℕ)).toNat + 1 := by omega
  simp only [repack, Float.Model.pack, Float.Model.unpack, UnpackedFloat.pack, exponentBias_eq,
    in_range, if_false]
  have lower := h.le_exponent
  have upper := h.mantissa_lt
  by_cases full : 2 ^ 52 ≤ m
  · have digits : m.log2 + 1 = Format.binary64.mantissaBits := by
      rw [mantissaBits_eq]
      have at_least := (Nat.le_log2 hm.ne').mpr full
      have at_most := (Nat.log2_lt hm.ne').mpr upper
      omega
    have exponent_eq : (BitVec.ofNat 11 (e + (1023 : ℕ) + (52 : ℕ)).toNat).toNat =
        (e + (1023 : ℕ) + (52 : ℕ)).toNat := Nat.mod_eq_of_lt (by omega)
    have mantissa_eq : (BitVec.ofNat 52 m).toNat = m % 2 ^ 52 := rfl
    rw [if_pos digits]
    refine (unpack_normal s (BitVec.ofNat 52 m) ?_ ?_).trans ?_
    · omega
    · omega
    · rw [UnpackedFloat.finite.injEq]
      exact ⟨rfl, by omega, by omega⟩
  · have digits : m.log2 + 1 ≠ Format.binary64.mantissaBits := by
      rw [mantissaBits_eq]
      have at_most := (Nat.log2_lt hm.ne').mpr (not_le.mp full)
      omega
    have mantissa_eq : (BitVec.ofNat 52 m).toNat = m := Nat.mod_eq_of_lt (not_le.mp full)
    have smallest : e = -1074 := by
      have := h.full
      omega
    rw [if_neg digits]
    refine (unpack_subnormal s (m := BitVec.ofNat 52 m) (mantissa_eq.symm ▸ hm)).trans ?_
    rw [UnpackedFloat.finite.injEq]
    exact ⟨rfl, mantissa_eq, smallest.symm⟩

/-- A finite number that is out of range comes back as an infinity. -/
theorem repack_overflow (he : 971 < e) : repack (.finite s m e hm) = .infinity s := by
  have too_large : 2 ^ 11 ≤ (e + (1023 : ℕ) + (52 : ℕ)).toNat + 1 := by omega
  rw [← repack_infinity]
  simp only [repack, Float.Model.pack, UnpackedFloat.pack, exponentBias_eq, too_large, if_true]

end

/-! ### Cutting off -/

/-- A number cut off where the floats end. -/
def clamp (x : ℚ) : ℚ := max (-limit) (min x limit)

theorem clamp_mono {x y : ℚ} (h : x ≤ y) : clamp x ≤ clamp y :=
  max_le_max le_rfl (min_le_min h le_rfl)

theorem clamp_eq_self {x : ℚ} (h : |x| ≤ limit) : clamp x = x := by
  obtain ⟨lower, upper⟩ := abs_le.mp h
  rw [clamp, min_eq_left upper, max_eq_right lower]

theorem clamp_neg (x : ℚ) : clamp (-x) = -clamp x := by
  have nonneg : -limit ≤ limit := (neg_nonpos.mpr limit_pos.le).trans limit_pos.le
  rw [clamp, clamp, ← min_neg_neg, neg_neg, ← max_neg_neg, max_min_distrib_left,
    max_eq_right nonneg, min_comm, max_comm]

theorem clamp_factor_mul (s : Sign) {x : ℚ} (h : limit ≤ x) :
    clamp (factor s * x) = factor s * limit := by
  have pos := limit_pos
  unfold clamp
  cases s
  · rw [factor, neg_one_mul, neg_one_mul, min_eq_left (by linarith), max_eq_left (by linarith)]
  · rw [factor, one_mul, one_mul, min_eq_right h, max_eq_right (by linarith)]

/-- Numbers in range are not cut off. -/
theorem Stored.abs_valueOf_le {u : UnpackedFloat} (h : Stored u) : |valueOf u| ≤ limit := by
  cases u with
  | notANumber | zero => exact abs_zero.trans_le limit_pos.le
  | infinity s => exact (abs_factor_mul s limit_pos.le).le
  | finite s m e hm =>
      rw [valueOf, abs_factor_mul s (magnitude_pos hm e).le]
      exact (h.1.magnitude_lt_limit h.2).le

/-- What is stored comes back as it was. -/
theorem repack_of_stored {u : UnpackedFloat} (h : Stored u) : repack u = u := by
  cases u with
  | notANumber => exact repack_notANumber
  | infinity s => exact repack_infinity s
  | zero s => exact repack_zero s
  | finite s m e hm => exact repack_finite s hm h.1 h.2

/-- **Packing cuts off what is out of range.** -/
theorem valueOf_repack {u : UnpackedFloat} (h : Rounded u) :
    valueOf (repack u) = clamp (valueOf u) := by
  by_cases in_range : Stored u
  · rw [clamp_eq_self in_range.abs_valueOf_le, repack_of_stored in_range]
  · cases u with
    | notANumber | infinity | zero => exact absurd trivial in_range
    | finite s m e hm =>
        have beyond : 971 < e := not_le.mp fun le => in_range ⟨h, le⟩
        rw [repack_overflow s hm beyond, valueOf, valueOf,
          clamp_factor_mul s (h.limit_le_magnitude beyond)]

theorem isNaN_repack {u : UnpackedFloat} (h : Rounded u) : (repack u).isNaN = u.isNaN := by
  cases u with
  | notANumber => rw [repack_notANumber]
  | infinity s => rw [repack_infinity]
  | zero s => rw [repack_zero]
  | finite s m e hm =>
      rcases le_or_gt e 971 with le | beyond
      · rw [repack_finite s hm h le]
      · rw [repack_overflow s hm beyond]
        rfl

end Binary64

end Downhill
