/-
The shortest decimal of a number reads back as it.

Two things are needed for this.  What lies in the cell of a number rounds to the number
(`nearest_of_holds`): below a power of two the numbers lie twice as close, and there the cell is
narrower for that.  And the search for the shortest decimal ends in the cell
(`contains_shortest`), because seventeen digits make a grid that is finer than any cell: the
leading digit stands no higher than the number (`ten_pow_leading_le`), and a number of 53 binary
digits is less than `10 ^ 16` of its units.
-/
import Downhill.Decimal.Shortest
import Downhill.Proofs.Float.Bits
import Downhill.Proofs.Float.Error

namespace Downhill

namespace Decimal

open Binary64

/-- A power with a whole exponent is a fraction, one part of which is one. -/
theorem pow_toNat_div (b : ℕ) (hb : b ≠ 0) (e : ℤ) :
    ((b ^ e.toNat : ℕ) : ℚ) / (b ^ (-e).toNat : ℕ) = b ^ e := by
  have base : (b : ℚ) ≠ 0 := Nat.cast_ne_zero.mpr hb
  push_cast
  rw [← zpow_natCast, ← zpow_natCast, ← zpow_sub₀ base, Int.toNat_sub_toNat_neg]

/-- The number that a decimal stands for. -/
def Scaled.value (x : Scaled) : ℚ := x.coefficient * 10 ^ x.exponent

namespace Cell

/-- The numbers of a cell. -/
def Holds (c : Cell) (y : ℚ) : Prop :=
  if c.closed = true then (c.lower : ℚ) / c.scale ≤ y ∧ y ≤ c.upper / c.scale
  else (c.lower : ℚ) / c.scale < y ∧ y < c.upper / c.scale

section

variable {c : Cell} {y : ℚ}

theorem holds_of_lt (lower : (c.lower : ℚ) / c.scale < y) (upper : y < c.upper / c.scale) :
    c.Holds y := by
  unfold Holds
  split
  · exact ⟨lower.le, upper.le⟩
  · exact ⟨lower, upper⟩

theorem Holds.bounds (h : c.Holds y) : (c.lower : ℚ) / c.scale ≤ y ∧ y ≤ c.upper / c.scale := by
  unfold Holds at h
  split at h
  · exact h
  · exact ⟨h.1.le, h.2.le⟩

theorem Holds.closed_of_end (h : c.Holds y)
    (at_end : y = c.lower / c.scale ∨ y = c.upper / c.scale) : c.closed = true := by
  unfold Holds at h
  split at h
  · assumption
  · rcases at_end with rfl | rfl
    · exact absurd h.1 (lt_irrefl _)
    · exact absurd h.2 (lt_irrefl _)

/-- **The test of a decimal is that of its number.** -/
theorem contains_iff (hs : 0 < c.scale) (x : Scaled) : c.contains x = true ↔ c.Holds x.value := by
  have scale_pos : (0 : ℚ) < c.scale := by exact_mod_cast hs
  have down_pos : (0 : ℚ) < (10 ^ (-x.exponent).toNat : ℕ) := by positivity
  have value_eq : x.value =
      (x.coefficient * 10 ^ x.exponent.toNat : ℕ) / (10 ^ (-x.exponent).toNat : ℕ) := by
    have power := pow_toNat_div 10 (by norm_num) x.exponent
    rw [Scaled.value, Nat.cast_mul, mul_div_assoc, power, Nat.cast_ofNat]
  rw [contains, Holds, value_eq]
  split
  · rw [Bool.and_eq_true, decide_eq_true_iff, decide_eq_true_iff,
      div_le_div_iff₀ scale_pos down_pos, div_le_div_iff₀ down_pos scale_pos]
    norm_cast
  · rw [Bool.and_eq_true, decide_eq_true_iff, decide_eq_true_iff,
      div_lt_div_iff₀ scale_pos down_pos, div_lt_div_iff₀ down_pos scale_pos]
    norm_cast

end

/-! ### The search -/

section

variable {c : Cell} {e : ℤ} {x : Scaled}

theorem steps_bounds (hs : 0 < c.scale) (e : ℤ) :
    (c.steps e : ℚ) * 10 ^ e ≤ c.centre / c.scale ∧
      (c.centre : ℚ) / c.scale < (c.steps e + 1 : ℕ) * 10 ^ e := by
  have scale_pos : (0 : ℚ) < c.scale := by exact_mod_cast hs
  have down_pos : (0 : ℚ) < (10 ^ (-e).toNat : ℕ) := by positivity
  have power := pow_toNat_div 10 (by norm_num) e
  rw [Nat.cast_ofNat] at power
  rw [← power, mul_div_assoc', mul_div_assoc', div_le_div_iff₀ down_pos scale_pos,
    div_lt_div_iff₀ scale_pos down_pos]
  have below := Nat.div_mul_le_self (c.centre * 10 ^ (-e).toNat) (c.scale * 10 ^ e.toNat)
  have above := Nat.lt_mul_div_succ (c.centre * 10 ^ (-e).toNat)
    (Nat.mul_pos hs (Nat.pow_pos (n := e.toNat) (by norm_num : 0 < 10)))
  have steps_eq : c.steps e = c.centre * 10 ^ (-e).toNat / (c.scale * 10 ^ e.toNat) := rfl
  rw [← steps_eq] at below above
  constructor
  · exact_mod_cast (by linarith : c.steps e * 10 ^ e.toNat * c.scale ≤ c.centre * 10 ^ (-e).toNat)
  · exact_mod_cast (by linarith :
      c.centre * 10 ^ (-e).toNat < (c.steps e + 1) * 10 ^ e.toNat * c.scale)

/-- What is found on a grid lies in the cell. -/
theorem contains_of_onGrid? (h : c.onGrid? e = some x) : c.contains x = true := by
  rw [onGrid?] at h
  split at h
  · rename_i below above
    cases h
    split
    · exact below
    · exact above
  · rename_i below _
    cases h
    exact below
  · rename_i _ above
    cases h
    exact above
  · cases h

/-- **On a grid that is finer than the cell is wide, one of the two points next to the number lies
in the cell.** -/
theorem exists_onGrid? (hs : 0 < c.scale)
    (inside : (c.lower : ℚ) / c.scale < c.centre / c.scale ∧
      (c.centre : ℚ) / c.scale < c.upper / c.scale)
    (fine : 10 ^ e < (c.upper : ℚ) / c.scale - c.lower / c.scale) :
    ∃ x, c.onGrid? e = some x := by
  obtain ⟨below, above⟩ := steps_bounds hs e
  have hit : c.contains ⟨c.steps e, e⟩ = true ∨ c.contains ⟨c.steps e + 1, e⟩ = true := by
    rw [contains_iff hs, contains_iff hs]
    by_cases low : (c.lower : ℚ) / c.scale < c.steps e * 10 ^ e
    · exact .inl (holds_of_lt low (below.trans_lt inside.2))
    · refine .inr (holds_of_lt (inside.1.trans above) ?_)
      rw [Scaled.value]
      push_cast
      linarith [not_lt.mp low]
  rw [onGrid?]
  rcases hit with hit | hit
  · rw [hit]
    cases c.contains ⟨c.steps e + 1, e⟩ <;> exact ⟨_, rfl⟩
  · rw [hit]
    cases c.contains ⟨c.steps e, e⟩ <;> exact ⟨_, rfl⟩

/-- A search that passes a grid with a hit ends in the cell. -/
theorem contains_firstHit {finer k : ℕ} (hk : k < finer) (hit : ∃ x, c.onGrid? (e - k) = some x) :
    c.contains (c.firstHit e finer) = true := by
  induction finer generalizing e k with
  | zero => exact absurd hk (Nat.not_lt_zero k)
  | succ finer ih =>
      rw [firstHit]
      split
      · rename_i found
        exact contains_of_onGrid? found
      · rename_i missed
        cases k with
        | zero =>
            obtain ⟨x, found⟩ := hit
            rw [Nat.cast_zero, sub_zero, missed] at found
            cases found
        | succ k =>
            refine ih (Nat.lt_of_succ_lt_succ hk) ?_
            rw [Nat.cast_succ, add_comm, ← sub_sub] at hit
            exact hit

/-- **The leading digit stands no higher than the number.** -/
theorem ten_pow_leading_le (hs : 0 < c.scale) (hc : 0 < c.centre) :
    (10 : ℚ) ^ c.leading ≤ c.centre / c.scale := by
  rw [leading]
  generalize guess_eq :
    ((Nat.toDigits 10 c.centre).length : ℤ) - (Nat.toDigits 10 c.scale).length = guess
  split
  · have scale_lt : c.scale < 10 ^ (Nat.toDigits 10 c.scale).length :=
      (Nat.length_toDigits_le_iff (by norm_num) Nat.length_toDigits_pos).mp le_rfl
    have le_centre : 10 ^ ((Nat.toDigits 10 c.centre).length - 1) ≤ c.centre := by
      rcases Nat.eq_zero_or_pos ((Nat.toDigits 10 c.centre).length - 1) with single | several
      · rwa [single, pow_zero]
      · by_contra small
        have short := (Nat.length_toDigits_le_iff (by norm_num) several).mpr (not_le.mp small)
        omega
    have digits_pos : 0 < (Nat.toDigits 10 c.centre).length := Nat.length_toDigits_pos
    have exponent_eq : guess - 1 = (((Nat.toDigits 10 c.centre).length - 1 : ℕ) : ℤ) -
        ((Nat.toDigits 10 c.scale).length : ℕ) := by omega
    rw [exponent_eq, zpow_sub₀ (by norm_num), zpow_natCast, zpow_natCast]
    refine div_le_div₀ (Nat.cast_nonneg _) ?_ (by exact_mod_cast hs) ?_
    · exact_mod_cast le_centre
    · exact_mod_cast scale_lt.le
  · rename_i some_steps
    have one_le : (1 : ℚ) ≤ c.steps guess := by
      exact_mod_cast Nat.one_le_iff_ne_zero.mpr some_steps
    exact (le_mul_of_one_le_left (by positivity) one_le).trans (steps_bounds hs guess).1

end

/-! ### Cells of floats -/

section

variable {m : ℕ} {e : ℤ} {narrow : Bool}

theorem scale_ofBinary_pos (m : ℕ) (e : ℤ) (narrow : Bool) :
    0 < (ofBinary m e narrow).scale := Nat.pow_pos (by norm_num)

/-- The ends of the cell of a number, and the number itself. -/
theorem ofBinary_ends (e : ℤ) (narrow : Bool) (hm : 0 < m) :
    ((ofBinary m e narrow).lower : ℚ) / (ofBinary m e narrow).scale =
        (m - if narrow = true then 1 / 4 else 1 / 2) * 2 ^ e ∧
      ((ofBinary m e narrow).centre : ℚ) / (ofBinary m e narrow).scale = magnitude m e ∧
      ((ofBinary m e narrow).upper : ℚ) / (ofBinary m e narrow).scale = (m + 1 / 2) * 2 ^ e := by
  have quarters : ∀ k : ℕ, ((k * 2 ^ (e - 2).toNat : ℕ) : ℚ) / (2 ^ (2 - e).toNat : ℕ) =
      k / 4 * 2 ^ e := by
    intro k
    have power := pow_toNat_div 2 (by norm_num) (e - 2)
    rw [neg_sub, Nat.cast_ofNat] at power
    rw [Nat.cast_mul, mul_div_assoc, power, zpow_sub₀ (by norm_num)]
    ring
  refine ⟨(quarters _).trans ?_, (quarters _).trans ?_, (quarters _).trans ?_⟩
  · split
    · rw [Nat.cast_sub (by omega)]
      push_cast
      ring
    · rw [Nat.cast_sub (by omega)]
      push_cast
      ring
  · rw [magnitude]
    push_cast
    ring
  · push_cast
    ring

variable (hm : 0 < m)
include hm

/-- The ends of a cell are halfway to the neighbours, unless the cell is narrow. -/
theorem even_of_tie {y : ℚ} (h : (ofBinary m e narrow).Holds y)
    (tie : |y - m * 2 ^ e| = 2 ^ e / 2) : m % 2 = 0 := by
  obtain ⟨lower_eq, -, upper_eq⟩ := ofBinary_ends e narrow hm
  have bounds := h.bounds
  have closed_of_end := h.closed_of_end
  rw [lower_eq, upper_eq] at bounds closed_of_end
  have pos : (0 : ℚ) < 2 ^ e := by positivity
  have at_end : y = (m - if narrow = true then 1 / 4 else 1 / 2) * 2 ^ e ∨
      y = (m + 1 / 2) * 2 ^ e := by
    rcases abs_eq_abs.mp (tie.trans (abs_of_pos (half_pos pos)).symm) with above | below
    · exact .inr (by linarith)
    · refine .inl (le_antisymm ?_ bounds.1)
      have wide : narrow ≠ true := by
        rintro rfl
        rw [if_pos rfl] at bounds
        linarith [bounds.1]
      rw [if_neg wide]
      linarith
  have even : decide (m % 2 = 0) = true := closed_of_end at_end
  exact of_decide_eq_true even

variable (canonical : Canonical m e) (narrow_iff : narrow = true ↔ m = 2 ^ 52 ∧ -1074 < e)
include canonical narrow_iff

/-- **What lies in the cell of a number rounds to the number.** -/
theorem nearest_of_holds {y : ℚ} (h : (ofBinary m e narrow).Holds y) :
    nearest y = magnitude m e := by
  obtain ⟨lower_eq, -, upper_eq⟩ := ofBinary_ends e narrow hm
  obtain ⟨close, upper⟩ := h.bounds
  rw [lower_eq] at close
  rw [upper_eq] at upper
  have pos : (0 : ℚ) < 2 ^ e := by positivity
  have one_le : (1 : ℚ) ≤ m := by exact_mod_cast hm
  have m_le : (m : ℚ) + 1 ≤ 2 ^ 53 := by exact_mod_cast canonical.mantissa_lt
  have lower : (m - 1 / 2) * 2 ^ e ≤ y := by
    refine le_trans (mul_le_mul_of_nonneg_right ?_ pos.le) close
    split <;> linarith
  by_cases full : -1074 < e → 2 ^ 52 * 2 ^ e ≤ y
  · have y_lt : y < 2 ^ 53 * 2 ^ e :=
      upper.trans_lt (mul_lt_mul_of_pos_right (by linarith) pos)
    have y_pos : 0 < y := lt_of_lt_of_le (mul_pos (by linarith) pos) lower
    have near : |y - (m : ℤ) * 2 ^ e| ≤ 2 ^ e / 2 := by
      rw [Int.cast_natCast, abs_le]
      constructor <;> linarith
    refine nearest_eq (unit_eq y_pos y_lt canonical.le_exponent full) near fun tie => ?_
    rw [Int.cast_natCast] at tie
    exact_mod_cast even_of_tie hm h tie
  · push Not at full
    obtain ⟨above, below⟩ := full
    have power : m = 2 ^ 52 := by
      refine le_antisymm (not_lt.mp fun greater => ?_) (canonical.full above)
      have greater' : (2 : ℚ) ^ 52 + 1 ≤ m := by exact_mod_cast greater
      have := lt_of_mul_lt_mul_right (lower.trans_lt below) pos.le
      linarith
    rw [if_pos (narrow_iff.mpr ⟨power, above⟩), power] at close
    push_cast at close
    rw [nearest_below_power above close below, power, magnitude]
    push_cast
    rfl

/-- **The search ends in the cell.**  A number has fewer than `2 ^ 53` of its units, and this is
less than `10 ^ 16`, so the last grid is finer than the cell. -/
theorem contains_shortest :
    (ofBinary m e narrow).contains (ofBinary m e narrow).shortest = true := by
  obtain ⟨lower_eq, centre_eq, upper_eq⟩ := ofBinary_ends e narrow hm
  have hs := scale_ofBinary_pos m e narrow
  have pos : (0 : ℚ) < 2 ^ e := by positivity
  have centre_pos : 0 < (ofBinary m e narrow).centre :=
    Nat.mul_pos (Nat.mul_pos (by norm_num) hm) (Nat.pow_pos (by norm_num))
  have leading_le := ten_pow_leading_le hs centre_pos
  have m_lt : (m : ℚ) < 2 ^ 53 := by exact_mod_cast canonical.mantissa_lt
  refine contains_firstHit (k := 16) (by norm_num) (exists_onGrid? hs ?_ ?_)
  · rw [lower_eq, centre_eq, upper_eq, magnitude]
    constructor
    · refine mul_lt_mul_of_pos_right ?_ pos
      split <;> linarith
    · exact mul_lt_mul_of_pos_right (by linarith) pos
  · rw [centre_eq, magnitude] at leading_le
    rw [lower_eq, upper_eq, ← sub_mul, zpow_sub₀ (by norm_num), div_lt_iff₀ (by positivity)]
    refine leading_le.trans_lt ?_
    rw [mul_right_comm]
    refine mul_lt_mul_of_pos_right ?_ pos
    by_cases hn : narrow = true
    · rw [if_pos hn, (narrow_iff.mp hn).1]
      norm_num
    · rw [if_neg hn]
      norm_num at m_lt ⊢
      linarith

end

theorem ofFloat_eq (x : Float) :
    ofFloat x =
      if exponentOf x.toBits.toNat = 0 then ofBinary (fractionOf x.toBits.toNat) (-1074) false
      else ofBinary (2 ^ 52 + fractionOf x.toBits.toNat) (exponentOf x.toBits.toNat - 1075)
        (fractionOf x.toBits.toNat == 0 && exponentOf x.toBits.toNat != 1) := rfl

/-- The cell of a float other than zero. -/
theorem exists_ofFloat {x : Float} (finite : x.isFinite = true) (nonzero : value x ≠ 0) :
    ∃ m e narrow, 0 < m ∧ Canonical m e ∧ (narrow = true ↔ m = 2 ^ 52 ∧ -1074 < e) ∧
      |value x| = magnitude m e ∧ ofFloat x = ofBinary m e narrow := by
  have pattern := pattern_toBits x
  have canonical := stored x
  rw [ofFloat_eq, value]
  change x.toModel.unpack.isFinite = true at finite
  change valueOf x.toModel.unpack ≠ 0 at nonzero
  generalize x.toModel.unpack = u at pattern canonical finite nonzero ⊢
  cases pattern with
  | notANumber | infinity => cases finite
  | zero => exact absurd rfl nonzero
  | subnormal empty hm =>
      refine ⟨_, _, false, hm, canonical.1, ?_, abs_factor_mul _ (magnitude_pos hm _).le,
        if_pos empty⟩
      exact ⟨fun h => absurd h Bool.false_ne_true, fun full => absurd full.2 (lt_irrefl _)⟩
  | normal not_empty _ hm =>
      refine ⟨_, _, _, hm, canonical.1, ?_, abs_factor_mul _ (magnitude_pos hm _).le,
        if_neg not_empty⟩
      rw [Bool.and_eq_true, beq_iff_eq, bne_iff_ne]
      omega

/-- **The shortest decimal of a number reads back as it**, but for the sign. -/
theorem nearest_shortest {x : Float} (finite : x.isFinite = true) (nonzero : value x ≠ 0) :
    nearest (ofFloat x).shortest.value = |value x| := by
  obtain ⟨m, e, narrow, hm, canonical, narrow_iff, abs_eq, cell_eq⟩ := exists_ofFloat finite nonzero
  rw [abs_eq, cell_eq]
  have inside := contains_shortest hm canonical narrow_iff
  rw [contains_iff (scale_ofBinary_pos m e narrow)] at inside
  exact nearest_of_holds hm canonical narrow_iff inside

end Cell

end Decimal

end Downhill
