/-
A scatter stays inside its region.

A word becomes a number `u` from zero up to `maxUnit`, and a coordinate is `u * scale + lower` as
it is computed.  Both operations are monotone, roundings included, so the coordinate is at least
`lower`, which zero leads to, and at most what `maxUnit` leads to (`Fits.contains`).  The scale
is lowered until that is not beyond the upper end.  This ends, because the scale goes down through
the patterns of the finite numbers to zero, which leads to the lower end (`fits_settle`).

That the first scale is finite is what the headroom of an interval is for.  The scale is the
width divided by `1 - 2 ^ -52`, the headroom asks that the width times `1 + 2 ^ -51` be finite,
and the quotient is the smaller of the two (`isFinite_scale`).
-/
import Downhill.Proofs.Float.Bits
import Downhill.Proofs.Float.Division
import Downhill.Proofs.Float.Integers
import Downhill.Proofs.Sampling.Intervals
import Downhill.Sampling.Scatter

namespace Downhill

open Binary64

namespace Interval

/-! ### Words -/

theorem value_maxUnit : value maxUnit = 1 - 1 / 2 ^ 52 := by
  have unpacked : maxUnit.toModel.unpack =
      .finite .positive (2 ^ 53 - 2) (-53) (by norm_num) := rfl
  rw [value, unpacked, valueOf, factor, magnitude, one_mul, zpow_neg, ← div_eq_mul_inv]
  norm_num

theorem isFinite_maxUnit : maxUnit.isFinite = true := by decide

/-- The upper bits of a word become the fraction of a number from one up to two. -/
theorem toNat_unitBits (word : UInt64) :
    ((1023 : UInt64) <<< 52 ||| word >>> 12).toNat = 1023 * 2 ^ 52 + word.toNat / 2 ^ 12 := by
  have size : word.toNat < 2 ^ 64 := word.toNat_lt
  have fraction_eq : (word >>> 12).toNat = word.toNat / 2 ^ 12 := by
    rw [UInt64.toNat_shiftRight]
    exact Nat.shiftRight_eq_div_pow word.toNat 12
  have fraction_lt : word.toNat / 2 ^ 12 < 2 ^ 52 := by omega
  rw [UInt64.toNat_or, fraction_eq]
  exact (Nat.shiftLeft_add_eq_or_of_lt fraction_lt 1023).symm

/-- **A word becomes a number of parts in `2 ^ 52`**, exactly. -/
theorem value_unit (word : UInt64) :
    (unit word).isNaN = false ∧ value (unit word) = (word.toNat / 2 ^ 12 : ℕ) / 2 ^ 52 := by
  have size : word.toNat < 2 ^ 64 := word.toNat_lt
  have fraction_lt : word.toNat / 2 ^ 12 < 2 ^ 52 := by omega
  have bits_eq := toNat_unitBits word
  have finite := (finite_ofBits (bits_eq.trans_lt (by omega))).1
  have shifted := value_ofBits (by omega) (by omega) fraction_lt bits_eq
  have difference := yields_sub finite isFinite_one
  rw [shifted, value_one] at difference
  refine ⟨difference.not_nan, difference.value_eq.trans ?_⟩
  generalize word.toNat / 2 ^ 12 = n at fraction_lt ⊢
  have exact : magnitude (2 ^ 52 + n) ((1023 : ℕ) - 1075) - 1 = (n : ℤ) * 2 ^ (-52 : ℤ) := by
    rw [magnitude]
    push_cast
    norm_num
    ring
  have whole : |(n : ℤ)| < 2 ^ 53 := by
    rw [Nat.abs_cast]
    omega
  rw [exact, rounded_eq_self whole (by norm_num) (by norm_num), zpow_neg, ← div_eq_mul_inv,
    Int.cast_natCast, zpow_ofNat]

/-- A word becomes a number from zero up to the greatest one. -/
theorem unit_bounds (word : UInt64) :
    (unit word).isNaN = false ∧ 0 ≤ value (unit word) ∧ value (unit word) ≤ value maxUnit := by
  obtain ⟨not_nan, value_eq⟩ := value_unit word
  have size : word.toNat < 2 ^ 64 := word.toNat_lt
  have at_most : ((word.toNat / 2 ^ 12 : ℕ) : ℚ) ≤ 2 ^ 52 - 1 := by
    have : word.toNat / 2 ^ 12 + 1 ≤ 2 ^ 52 := by omega
    have cast : ((word.toNat / 2 ^ 12 : ℕ) : ℚ) + 1 ≤ 2 ^ 52 := by exact_mod_cast this
    linarith
  rw [value_eq, value_maxUnit]
  refine ⟨not_nan, by positivity, ?_⟩
  rw [div_le_iff₀ (by positivity)]
  linarith

/-! ### Scales -/

/-- A scale that does not carry `maxUnit` beyond the upper end. -/
structure Fits (i : Interval) (scale : Float) : Prop where
  finite : scale.isFinite = true
  nonneg : 0 ≤ value scale
  inside : ¬ i.upper < scale * maxUnit + i.lower

variable {i : Interval} {scale : Float}

/-- What a scale carries `maxUnit` to, before the lower end is added. -/
theorem yields_stretch (finite : scale.isFinite = true) :
    Yields (scale * maxUnit) (value scale * value maxUnit) :=
  yields_mul finite isFinite_maxUnit

/-- A scale of zero leads to the lower end. -/
theorem fits_of_value_eq_zero (i : Interval) (finite : scale.isFinite = true)
    (zero : value scale = 0) : i.Fits scale := by
  have stretch := yields_stretch finite
  have stretch_eq : value (scale * maxUnit) = 0 := by
    rw [stretch.value_eq, zero, zero_mul, rounded_zero]
  have finite_stretch : (scale * maxUnit).isFinite = true :=
    isFinite_iff.mpr ⟨stretch.not_nan, by rw [stretch_eq, abs_zero]; exact limit_pos⟩
  refine ⟨finite, zero.ge, fun beyond => ?_⟩
  have upper_lt := (lt_iff.mp beyond).2.2
  rw [(yields_add finite_stretch i.finite.1).value_eq, stretch_eq, zero_add,
    rounded_value] at upper_lt
  exact upper_lt.not_ge i.value_lower_le

/-- A scale that does not lead beyond the upper end is not lowered. -/
theorem settle_eq_self (inside : ¬ i.upper < scale * maxUnit + i.lower) :
    i.settle scale.toBits.toNat = scale := by
  have same : Float.ofBits scale.toBits.toNat.toUInt64 = scale := by
    rw [Nat.toUInt64_eq, UInt64.ofNat_toNat, Float.ofBits_toBits]
  cases bits : scale.toBits.toNat with
  | zero =>
      rw [bits] at same
      exact same
  | succ bits =>
      rw [bits] at same
      rw [settle, same]
      exact if_neg inside

/-- **The descent of the scale ends at one that fits.** -/
theorem fits_settle (i : Interval) (bits : ℕ) (h : bits < 2047 * 2 ^ 52) :
    i.Fits (i.settle bits) := by
  induction bits with
  | zero => exact i.fits_of_value_eq_zero isFinite_zero value_zero
  | succ bits ih =>
      have toNat_eq : (bits + 1).toUInt64.toNat = bits + 1 :=
        UInt64.toNat_ofNat_of_lt' (h.trans (by decide))
      obtain ⟨finite, nonneg⟩ := finite_ofBits (toNat_eq.trans_lt h)
      rw [settle]
      split
      · exact ih (Nat.lt_of_succ_lt h)
      · rename_i inside
        exact ⟨finite, nonneg, inside⟩

theorem yields_scale (i : Interval) :
    Yields ((i.upper - i.lower) / maxUnit) (value (i.upper - i.lower) / (1 - 1 / 2 ^ 52)) := by
  have quotient := yields_div i.isFinite_width isFinite_maxUnit
    (by rw [value_maxUnit]; norm_num)
  rwa [value_maxUnit] at quotient

/-- **The first scale is finite.** -/
theorem isFinite_scale (i : Interval) : ((i.upper - i.lower) / maxUnit).isFinite = true := by
  have nonneg := i.value_width_nonneg
  have quotient := i.yields_scale
  have quotient_le : value (i.upper - i.lower) / (1 - 1 / 2 ^ 52) ≤
      value (i.upper - i.lower) * (1 + 1 / 2 ^ 51) := by
    rw [div_le_iff₀ (by norm_num), mul_assoc]
    exact le_mul_of_one_le_right nonneg (by norm_num)
  have scale_nonneg := quotient.nonneg (div_nonneg nonneg (by norm_num))
  rw [isFinite_iff, abs_of_nonneg scale_nonneg, quotient.value_eq]
  exact ⟨quotient.not_nan, (rounded_mono quotient_le).trans_lt i.rounded_width_mul_lt⟩

/-- **An interval has a scale, and it fits.** -/
theorem exists_scale (i : Interval) : ∃ scale, i.scale? = some scale ∧ i.Fits scale := by
  have finite := i.isFinite_scale
  refine ⟨i.settle ((i.upper - i.lower) / maxUnit).toBits.toNat, if_pos finite, ?_⟩
  have nonneg := i.yields_scale.nonneg (div_nonneg i.value_width_nonneg (by norm_num))
  rcases nonneg.eq_or_lt with zero | pos
  · -- The pattern of a negative zero is not below that of infinity.
    have fits := i.fits_of_value_eq_zero finite zero.symm
    rwa [settle_eq_self fits.inside]
  · exact i.fits_settle _ (toBits_lt_of_pos finite pos)

/-- **A scale that fits carries the whole unit interval into the interval.** -/
theorem Fits.contains (fits : i.Fits scale) {u : Float} (not_nan : u.isNaN = false)
    (nonneg : 0 ≤ value u) (le : value u ≤ value maxUnit) :
    i.contains (u * scale + i.lower) = true := by
  have max_le_one : value maxUnit ≤ 1 := by
    rw [value_maxUnit]
    norm_num
  have finite_u := finite_of_abs_le not_nan isFinite_maxUnit ((abs_of_nonneg nonneg).trans_le le)
  have product := yields_mul finite_u fits.finite
  have stretch := yields_stretch fits.finite
  have product_nonneg := product.nonneg (mul_nonneg nonneg fits.nonneg)
  have product_le : value (u * scale) ≤ value (scale * maxUnit) := by
    rw [product.value_eq, stretch.value_eq, mul_comm]
    exact rounded_mono (mul_le_mul_of_nonneg_left le fits.nonneg)
  have stretch_le : value (scale * maxUnit) ≤ value scale :=
    stretch.value_le (mul_le_of_le_one_right fits.nonneg max_le_one)
  have finite_stretch := finite_of_abs_le stretch.not_nan fits.finite
    ((abs_of_nonneg (product_nonneg.trans product_le)).trans_le stretch_le)
  have finite_product := finite_of_abs_le product.not_nan finite_stretch
    ((abs_of_nonneg product_nonneg).trans_le product_le)
  have sum := yields_add finite_product i.finite.1
  have greatest := yields_add finite_stretch i.finite.1
  refine i.contains_iff.mpr ⟨sum.not_nan, sum.le_value (by linarith), ?_⟩
  calc value (u * scale + i.lower) ≤ value (scale * maxUnit + i.lower) := by
        rw [sum.value_eq, greatest.value_eq]
        exact rounded_mono (by linarith)
    _ ≤ value i.upper := not_lt.mp fun beyond =>
        fits.inside (lt_iff.mpr ⟨i.not_nan_upper, greatest.not_nan, beyond⟩)

/-- **Every word leads to a number of the interval.** -/
theorem exists_sample (i : Interval) (word : UInt64) :
    ∃ x, i.sample? word = some x ∧ i.contains x = true := by
  obtain ⟨scale, scaled, fits⟩ := i.exists_scale
  obtain ⟨not_nan, nonneg, le⟩ := unit_bounds word
  refine ⟨unit word * scale + i.lower, ?_, fits.contains not_nan nonneg le⟩
  rw [sample?, scaled]
  rfl

end Interval

/-! ### Regions -/

namespace Region

/-- **Every sequence of words leads to a point of the region.** -/
theorem exists_sample (r : Region) (words : ℕ → UInt64) :
    ∃ p, r.sample words = .ok p ∧ p.keys = r.keys ∧ r.contains p = true := by
  have drawn : ∀ name y, (r.mapIdx fun k _ i => i.sample? (words k)).get? name = some y →
      ∃ i x, r.get? name = some i ∧ y = some x ∧ i.contains x = true := by
    intro name y found
    obtain ⟨k, i, bounded, rfl⟩ := Bindings.exists_of_get?_mapIdx found
    obtain ⟨x, sampled, inside⟩ := i.exists_sample (words k)
    exact ⟨i, x, bounded, sampled, inside⟩
  obtain ⟨p, done⟩ : ∃ p, r.sample words = .ok p := by
    refine Bindings.exists_traverse_eq_ok fun name y found => ?_
    obtain ⟨-, x, -, rfl, -⟩ := drawn name y found
    exact ⟨x, rfl⟩
  refine ⟨p, done, (Bindings.keys_traverse done).trans (Bindings.keys_mapIdx _ r),
    Bindings.all_eq_true_iff.mpr fun name i bounded => ?_⟩
  have named := Bindings.mem_keys_iff.mpr ⟨i, bounded⟩
  rw [← Bindings.keys_mapIdx fun k _ i => i.sample? (words k)] at named
  obtain ⟨y, found⟩ := Bindings.mem_keys_iff.mp named
  obtain ⟨i', x, bounded', rfl, inside⟩ := drawn name y found
  obtain ⟨x', same, kept⟩ := Bindings.exists_of_traverse_eq_ok done found
  cases same
  cases bounded.symm.trans bounded'
  rw [kept]
  exact inside

/-- **A scatter has the points that it is asked for, and all of them lie in the region.** -/
theorem exists_scatter (r : Region) (words : ℕ → UInt64) (count : ℕ) :
    ∃ points, r.scatter words count = .ok points ∧ points.length = count ∧
      ∀ p ∈ points, p.keys = r.keys ∧ r.contains p = true := by
  have each : ∀ numbers : List ℕ, ∃ points,
      (numbers.mapM fun k => r.sample fun i => words (r.wordsUsed k + i)) = .ok points ∧
        points.length = numbers.length ∧ ∀ p ∈ points, p.keys = r.keys ∧ r.contains p = true := by
    intro numbers
    induction numbers with
    | nil => exact ⟨[], rfl, rfl, nofun⟩
    | cons k rest ih =>
        obtain ⟨p, here, inside⟩ := r.exists_sample fun i => words (r.wordsUsed k + i)
        obtain ⟨points, later, length_eq, all_inside⟩ := ih
        refine ⟨p :: points, ?_, congrArg (· + 1) length_eq,
          List.forall_mem_cons.mpr ⟨inside, all_inside⟩⟩
        rw [List.mapM_cons, here, later]
        rfl
  obtain ⟨points, done, length_eq, all_inside⟩ := each (List.range count)
  exact ⟨points, done, length_eq.trans List.length_range, all_inside⟩

/-- **A scatter never fails and stays inside its region**, whatever the words are.  That it stays
inside holds of every number up to the greatest that a word is turned into, not only of those
that words stand for. -/
theorem scatter_within (r : Region) (words : ℕ → UInt64) (count : ℕ) :
    (∃ points, r.scatter words count = .ok points ∧ points.length = count ∧
      ∀ p ∈ points, p.keys = r.keys ∧ r.contains p = true) ∧
    ∀ name i, r.get? name = some i → ∃ scale, i.scale? = some scale ∧
      ∀ u, 0 ≤ u → u ≤ Interval.maxUnit → i.contains (u * scale + i.lower) = true := by
  refine ⟨r.exists_scatter words count, fun _ i _ => ?_⟩
  obtain ⟨scale, scaled, fits⟩ := i.exists_scale
  refine ⟨scale, scaled, fun u nonneg le => ?_⟩
  obtain ⟨-, not_nan, nonneg'⟩ := le_iff.mp nonneg
  exact fits.contains not_nan nonneg' (le_iff.mp le).2.2

/-- Nearly as wide as an interval can be. -/
def widest : Interval :=
  ⟨-8e307, 8e307, by decide +kernel, by decide +kernel, by decide +kernel⟩

/-- The width of the widest interval is not lost at its upper end. -/
theorem scatter_within_widest :
    (0 : Float) ≤ Interval.maxUnit ∧ Interval.maxUnit ≤ Interval.maxUnit ∧
      Bindings.get? (.ofList [("x", widest)] : Region) "x" = some widest ∧
      ∃ scale, widest.scale? = some scale ∧
        widest.contains (Interval.maxUnit * scale + widest.lower) = true := by
  have nonneg : (0 : Float) ≤ Interval.maxUnit := by decide
  have le : Interval.maxUnit ≤ Interval.maxUnit := by decide
  have bounded : Bindings.get? (.ofList [("x", widest)] : Region) "x" = some widest := rfl
  obtain ⟨scale, scaled, inside⟩ :=
    (scatter_within (.ofList [("x", widest)]) (fun _ => 0) 3).2 "x" widest bounded
  exact ⟨nonneg, le, bounded, scale, scaled, inside Interval.maxUnit nonneg le⟩

end Region

end Downhill
