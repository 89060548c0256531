/-
Floats and their bit patterns.

A pattern of 64 bits is a sign, an exponent field of 11 bits and a fraction of 52 bits.  Read as
a natural number it is split into these by division: `fractionOf`, `exponentOf`, `signOf`.  The
fields determine the float (`Pattern`): a full exponent field stands for infinities and NaN, an
empty one for zeros and the numbers near zero, and any other says where the 53 digits of a number
stand.  So the patterns below that of infinity are the finite numbers from zero up
(`finite_ofBits`, `toBits_lt_of_pos`).

No two patterns stand for the same float, because core keeps a single NaN.  So a number is
determined by its sign and its size (`eq_of_abs_value_eq`).
-/
import Downhill.Proofs.Float.Zeros

namespace Downhill

namespace Binary64

open Float.Model Float.Model.UnpackedFloat

/-! ### Fields -/

/-- The digits of a number, without the first. -/
def fractionOf (bits : ℕ) : ℕ := bits % 2 ^ 52

/-- The exponent field. -/
def exponentOf (bits : ℕ) : ℕ := bits / 2 ^ 52 % 2 ^ 11

/-- The sign. -/
def signOf (bits : ℕ) : Sign := if bits / 2 ^ 63 = 1 then .negative else .positive

section

variable (b : BitVec Format.binary64.numBits)

theorem toNat_unpackMantissa : (unpackMantissa b).toNat = fractionOf b.toNat := by
  rw [unpackMantissa_def, BitVec.extractLsb'_toNat]
  rfl

theorem toNat_unpackExponent : (unpackExponent b).toNat = exponentOf b.toNat := by
  rw [unpackExponent_def, BitVec.extractLsb'_toNat, Nat.shiftRight_eq_div_pow]
  rfl

theorem ofBitVec_unpackSign : Sign.ofBitVec (unpackSign b) = signOf b.toNat := by
  have size : b.toNat < 2 ^ 64 := b.isLt
  have toNat_eq : (unpackSign b).toNat = b.toNat / 2 ^ 63 % 2 ^ 1 := by
    rw [unpackSign_def, BitVec.extractLsb'_toNat, Nat.shiftRight_eq_div_pow]
    rfl
  have positive_iff : unpackSign b = 0#1 ↔ b.toNat / 2 ^ 63 ≠ 1 := by
    rw [← BitVec.toNat_inj, toNat_eq, BitVec.toNat_ofNat]
    omega
  rw [Sign.ofBitVec, signOf]
  by_cases positive : unpackSign b = 0#1
  · rw [if_pos positive, if_neg (positive_iff.mp positive)]
  · rw [if_neg positive, if_pos (not_not.mp (positive_iff.not.mp positive))]

end

/-- What a bit pattern stands for. -/
inductive Pattern (bits : ℕ) : UnpackedFloat → Prop
  /-- A full exponent field leaves no digits. -/
  | notANumber (full : exponentOf bits = 2047) : Pattern bits .notANumber
  | infinity (full : exponentOf bits = 2047) : Pattern bits (.infinity (signOf bits))
  | zero (empty : exponentOf bits = 0) (no_digits : fractionOf bits = 0) :
      Pattern bits (.zero (signOf bits))
  /-- With an empty exponent field, the fraction is the number of smallest units. -/
  | subnormal (empty : exponentOf bits = 0) (hm : 0 < fractionOf bits) :
      Pattern bits (.finite (signOf bits) (fractionOf bits) (-1074) hm)
  /-- Otherwise the digit before the fraction is one. -/
  | normal (not_empty : exponentOf bits ≠ 0) (not_full : exponentOf bits ≠ 2047)
      (hm : 0 < 2 ^ 52 + fractionOf bits) :
      Pattern bits (.finite (signOf bits) (2 ^ 52 + fractionOf bits) (exponentOf bits - 1075) hm)

/-- **Unpacking a pattern reads its fields.** -/
theorem pattern_unpack (b : BitVec Format.binary64.numBits) :
    Pattern b.toNat (UnpackedFloat.unpack Format.binary64 b) := by
  have exponent_iff (e : BitVec 11) : unpackExponent b = e ↔ exponentOf b.toNat = e.toNat := by
    rw [← toNat_unpackExponent]
    exact BitVec.toNat_inj.symm
  have mantissa_iff : unpackMantissa b = 0#52 ↔ fractionOf b.toNat = 0 := by
    rw [← toNat_unpackMantissa]
    exact BitVec.toNat_inj.symm
  simp only [UnpackedFloat.unpack, exponentBias_eq, ofBitVec_unpackSign]
  split
  · rename_i full
    have exponent_eq := (exponent_iff _).mp full
    split
    · exact .infinity exponent_eq
    · exact .notANumber exponent_eq
  rename_i not_full
  have exponent_ne := (exponent_iff _).not.mp not_full
  split
  · rename_i empty
    have exponent_eq : exponentOf b.toNat = 0 := (exponent_iff _).mp empty
    split
    · rename_i no_digits
      exact .zero exponent_eq (mantissa_iff.mp no_digits)
    · rename_i digits
      have hm := Nat.pos_of_ne_zero (mantissa_iff.not.mp digits)
      have pattern := Pattern.subnormal exponent_eq hm
      convert pattern using 2
      · exact toNat_unpackMantissa b
      · rw [empty]
        rfl
  · rename_i not_empty
    have pattern := Pattern.normal ((exponent_iff _).not.mp not_empty) exponent_ne
      (Nat.add_pos_left (Nat.two_pow_pos 52) _)
    convert pattern using 2
    · rw [← toNat_unpackMantissa]
      exact toNat_one_append _
    · rw [toNat_unpackExponent]
      push_cast
      ring

/-! ### Patterns of floats -/

theorem pattern_toBits (x : Float) : Pattern x.toBits.toNat x.toModel.unpack :=
  pattern_unpack x.toBits.toBitVec

theorem pattern_ofBits (bits : UInt64) : Pattern bits.toNat (Float.ofBits bits).toModel.unpack := by
  have unpacked : (Float.ofBits bits).toModel.unpack =
      UnpackedFloat.unpack Format.binary64 bits.toBitVec := repack_of_stored (stored_unpack _)
  rw [unpacked]
  exact pattern_unpack bits.toBitVec

theorem signOf_eq_positive {bits : ℕ} (h : bits < 2 ^ 63) : signOf bits = .positive :=
  if_neg (by omega)

/-- **Below the pattern of infinity, patterns are those of finite numbers from zero up.** -/
theorem finite_ofBits {bits : UInt64} (h : bits.toNat < 2047 * 2 ^ 52) :
    (Float.ofBits bits).isFinite = true ∧ 0 ≤ value (Float.ofBits bits) := by
  have pattern := pattern_ofBits bits
  have positive : signOf bits.toNat = .positive := signOf_eq_positive (by omega)
  show (Float.ofBits bits).toModel.unpack.isFinite = true ∧
    0 ≤ valueOf (Float.ofBits bits).toModel.unpack
  generalize (Float.ofBits bits).toModel.unpack = u at pattern ⊢
  cases pattern with
  | notANumber full | infinity full =>
      rw [exponentOf] at full
      omega
  | zero => exact ⟨rfl, le_rfl⟩
  | subnormal _ hm | normal _ _ hm =>
      rw [positive, valueOf, factor, one_mul]
      exact ⟨rfl, (magnitude_pos hm _).le⟩

/-- The pattern of a positive number with all of its 53 digits. -/
theorem value_ofBits {bits : UInt64} {e f : ℕ} (he : e ≠ 0) (he' : e < 2047) (hf : f < 2 ^ 52)
    (h : bits.toNat = e * 2 ^ 52 + f) :
    value (Float.ofBits bits) = magnitude (2 ^ 52 + f) (e - 1075) := by
  have pattern := pattern_ofBits bits
  have exponent_eq : exponentOf bits.toNat = e := by
    rw [exponentOf]
    omega
  have fraction_eq : fractionOf bits.toNat = f := by
    rw [fractionOf]
    omega
  have positive : signOf bits.toNat = .positive := signOf_eq_positive (by omega)
  rw [value]
  generalize (Float.ofBits bits).toModel.unpack = u at pattern ⊢
  cases pattern with
  | notANumber full | infinity full => omega
  | zero empty | subnormal empty => omega
  | normal => rw [valueOf, positive, factor, one_mul, fraction_eq, exponent_eq]

/-- **A positive finite number has a pattern below that of infinity.** -/
theorem toBits_lt_of_pos {x : Float} (finite : x.isFinite = true) (pos : 0 < value x) :
    x.toBits.toNat < 2047 * 2 ^ 52 := by
  have pattern := pattern_toBits x
  have size : x.toBits.toNat < 2 ^ 64 := x.toBits.toNat_lt
  have positive_of : ∀ {m : ℕ} {e : ℤ},
      0 < factor (signOf x.toBits.toNat) * magnitude m e → x.toBits.toNat / 2 ^ 63 ≠ 1 := by
    intro m e pos negative
    rw [signOf, if_pos negative, factor, neg_one_mul, neg_pos, magnitude] at pos
    exact pos.not_ge (by positivity)
  change x.toModel.unpack.isFinite = true at finite
  change 0 < valueOf x.toModel.unpack at pos
  generalize x.toModel.unpack = u at pattern finite pos
  cases pattern with
  | notANumber | infinity => cases finite
  | zero => exact absurd pos (lt_irrefl 0)
  | subnormal empty =>
      have not_negative := positive_of pos
      rw [exponentOf] at empty
      omega
  | normal _ not_full =>
      have not_negative := positive_of pos
      rw [exponentOf] at not_full
      omega

/-! ### Signs and sizes -/

/-- The sign of a float is the sign of its number. -/
theorem value_eq_factor_mul (x : Float) :
    value x = factor (signOf x.toBits.toNat) * |value x| := by
  have pattern := pattern_toBits x
  rw [value]
  generalize x.toModel.unpack = u at pattern ⊢
  cases pattern with
  | notANumber | zero => rw [valueOf, abs_zero, mul_zero]
  | infinity => rw [valueOf, abs_factor_mul _ limit_pos.le]
  | subnormal _ hm | normal _ _ hm => rw [valueOf, abs_factor_mul _ (magnitude_pos hm _).le]

theorem eq_of_unpack_eq {x y : Float} (h : x.toModel.unpack = y.toModel.unpack) : x = y := by
  have same_bits := (unpack_inj_of_valid x.toModel.valid y.toModel.valid).mp h
  exact Float.toBits_inj.mp (UInt64.toBitVec_inj.mp same_bits)

/-- **A number is determined by its sign and its size.** -/
theorem eq_of_abs_value_eq {x y : Float} (not_nan_x : x.isNaN = false) (not_nan_y : y.isNaN = false)
    (sign_eq : signOf x.toBits.toNat = signOf y.toBits.toNat) (abs_eq : |value x| = |value y|) :
    x = y := by
  have value_eq : value x = value y := by
    rw [value_eq_factor_mul x, value_eq_factor_mul y, sign_eq, abs_eq]
  have alike : AlikeUnpacked x.toModel.unpack y.toModel.unpack :=
    alike_of_beq (beq_iff.mpr ⟨not_nan_x, not_nan_y, value_eq⟩)
  refine eq_of_unpack_eq ?_
  have pattern_x := pattern_toBits x
  have pattern_y := pattern_toBits y
  generalize x.toModel.unpack = u at pattern_x alike ⊢
  generalize y.toModel.unpack = v at pattern_y alike ⊢
  cases alike with
  | refl => rfl
  | zeros s t =>
      cases pattern_x
      cases pattern_y
      rw [sign_eq]

end Binary64

end Downhill
