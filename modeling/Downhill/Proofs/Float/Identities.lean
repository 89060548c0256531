/-
Identities that hold of all floats.

Sums and products may be written either way round.  A sign moves through a product, and
through a sum if it is on both terms; and zero and one are neutral.  This is so of infinities
and NaN, too, but for the sign of a zero: `-0 + 0` and `-(0 + -0)` are different zeros.  So
the identities are stated with `Alike`.

Finite operands need no case distinction, because both sides of an identity are rounded from
the same exact number.  The others are settled by what core's operations do with an infinity.
-/
import Downhill.Proofs.Float.Zeros

namespace Downhill

namespace Binary64

open Float.Model Float.Model.UnpackedFloat

/-! ### Either way round -/

theorem unpacked_add_comm (a b : UnpackedFloat) :
    a.add Format.binary64 b = b.add Format.binary64 a := by
  cases a with
  | notANumber => cases b <;> rfl
  | infinity s =>
      cases b with
      | infinity t => cases s <;> cases t <;> rfl
      | _ => rfl
  | zero s =>
      cases b with
      | zero t => cases s <;> cases t <;> rfl
      | _ => rfl
  | finite s m e hm =>
      cases b with
      | finite t n f hn => simp only [UnpackedFloat.add, min_comm e f, add_comm]
      | _ => rfl

theorem float_add_comm (x y : Float) : x + y = y + x :=
  congrArg (fun u => (⟨Float.Model.pack u⟩ : Float))
    (unpacked_add_comm x.toModel.unpack y.toModel.unpack)

theorem unpacked_mul_comm (a b : UnpackedFloat) :
    a.mul Format.binary64 b = b.mul Format.binary64 a := by
  have sign_comm : ∀ s t : Sign, s * t = t * s := by
    intro s t
    cases s <;> cases t <;> rfl
  cases a with
  | notANumber => cases b <;> rfl
  | infinity s =>
      cases b with
      | infinity t | finite t => cases s <;> cases t <;> rfl
      | _ => rfl
  | zero s =>
      cases b with
      | zero t | finite t => cases s <;> cases t <;> rfl
      | _ => rfl
  | finite s m e hm =>
      cases b with
      | notANumber => rfl
      | infinity t | zero t => cases s <;> cases t <;> rfl
      | finite t n f hn =>
          simp only [UnpackedFloat.mul, sign_comm s t, Nat.mul_comm m n, add_comm e f]

theorem float_mul_comm (x y : Float) : x * y = y * x :=
  congrArg (fun u => (⟨Float.Model.pack u⟩ : Float))
    (unpacked_mul_comm x.toModel.unpack y.toModel.unpack)

/-! ### Signs -/

variable {x y : Float}

/-- Floats that are rounded from one number are alike. -/
theorem Yields.alike {exact : ℚ} (h : Yields x exact) (h' : Yields y exact) : Alike x y :=
  alike_of_beq (beq_iff.mpr ⟨h.not_nan, h'.not_nan, h.value_eq.trans h'.value_eq.symm⟩)

theorem Yields.neg {exact : ℚ} (h : Yields x exact) : Yields (-x) (-exact) :=
  ⟨(isNaN_neg x).trans h.not_nan, by rw [value_neg, h.value_eq, rounded_neg]⟩

theorem repack_neg {u : UnpackedFloat} (infinite : u.isFinite = false) :
    repack u.neg = (repack u).neg := by
  cases u with
  | notANumber => rw [UnpackedFloat.neg, repack_notANumber, UnpackedFloat.neg]
  | infinity s => rw [UnpackedFloat.neg, repack_infinity, repack_infinity, UnpackedFloat.neg]
  | zero | finite => cases infinite

section

variable {a b : UnpackedFloat}

/-- With an infinity or NaN among the factors, the product is one of these. -/
theorem unpacked_neg_mul (h : ¬ (a.isFinite = true ∧ b.isFinite = true)) :
    (a.mul Format.binary64 b).isFinite = false ∧
      a.neg.mul Format.binary64 b = (a.mul Format.binary64 b).neg := by
  cases a with
  | notANumber => exact ⟨rfl, rfl⟩
  | infinity s =>
      cases b with
      | notANumber | zero => exact ⟨rfl, rfl⟩
      | infinity t | finite t => cases s <;> cases t <;> exact ⟨rfl, rfl⟩
  | zero s | finite s =>
      cases b with
      | notANumber => exact ⟨rfl, rfl⟩
      | infinity t => cases s <;> cases t <;> exact ⟨rfl, rfl⟩
      | zero | finite => exact absurd ⟨rfl, rfl⟩ h

theorem unpacked_neg_add (h : ¬ (a.isFinite = true ∧ b.isFinite = true)) :
    (a.add Format.binary64 b).isFinite = false ∧
      a.neg.add Format.binary64 b.neg = (a.add Format.binary64 b).neg := by
  cases a with
  | notANumber => exact ⟨rfl, rfl⟩
  | infinity s =>
      cases b with
      | notANumber | zero | finite => exact ⟨rfl, rfl⟩
      | infinity t => cases s <;> cases t <;> exact ⟨rfl, rfl⟩
  | zero s | finite s =>
      cases b with
      | notANumber | infinity => exact ⟨rfl, rfl⟩
      | zero | finite => exact absurd ⟨rfl, rfl⟩ h

end

/-- **The sign of a factor is the sign of the product.** -/
theorem alike_neg_mul (x y : Float) : Alike (-x * y) (-(x * y)) := by
  by_cases finite : x.isFinite = true ∧ y.isFinite = true
  · have opposite := yields_mul ((isFinite_neg x).trans finite.1) finite.2
    rw [value_neg, neg_mul] at opposite
    exact opposite.alike (yields_mul finite.1 finite.2).neg
  · obtain ⟨infinite, opposite⟩ := unpacked_neg_mul finite
    have product : (-x * y).toModel.unpack =
        repack ((-x).toModel.unpack.mul Format.binary64 y.toModel.unpack) := rfl
    rw [Alike, product, unpack_neg, unpack_neg, opposite, repack_neg infinite]
    exact .refl _

/-- **The opposites add up to the opposite of the sum.** -/
theorem alike_neg_add (x y : Float) : Alike (-x + -y) (-(x + y)) := by
  by_cases finite : x.isFinite = true ∧ y.isFinite = true
  · have opposite := yields_add ((isFinite_neg x).trans finite.1) ((isFinite_neg y).trans finite.2)
    rw [value_neg, value_neg, ← neg_add] at opposite
    exact opposite.alike (yields_add finite.1 finite.2).neg
  · obtain ⟨infinite, opposite⟩ := unpacked_neg_add finite
    have sum : (-x + -y).toModel.unpack =
        repack ((-x).toModel.unpack.add Format.binary64 (-y).toModel.unpack) := rfl
    rw [Alike, sum, unpack_neg, unpack_neg, unpack_neg, opposite, repack_neg infinite]
    exact .refl _

/-! ### Neutral operands -/

theorem alike_zero_add (x : Float) : Alike (Zero.zero + x) x := by
  have neutral : AlikeUnpacked ((UnpackedFloat.zero .positive).add Format.binary64 x.toModel.unpack)
      x.toModel.unpack := by
    cases x.toModel.unpack with
    | notANumber | infinity | finite => exact .refl _
    | zero t => cases t <;> exact .zeros _ _
  have packed := neutral.repack
  rwa [repack_of_stored (stored x)] at packed

theorem alike_add_zero (x : Float) : Alike (x + Zero.zero) x := by
  rw [float_add_comm]
  exact alike_zero_add x

theorem alike_one_mul (x : Float) : Alike (One.one * x) x := by
  by_cases finite : x.isFinite = true
  · have product := yields_mul isFinite_one finite
    rw [value_one, one_mul] at product
    exact product.alike ⟨(isFinite_iff.mp finite).1, (rounded_value x).symm⟩
  · have one : (One.one : Float).toModel.unpack =
        .finite .positive (2 ^ 52) (-52) (by norm_num) := rfl
    have product : ((One.one : Float) * x).toModel.unpack =
        repack ((One.one : Float).toModel.unpack.mul Format.binary64 x.toModel.unpack) := rfl
    rw [Alike, product, one]
    change ¬ x.toModel.unpack.isFinite = true at finite
    generalize x.toModel.unpack = u at finite ⊢
    cases u with
    | notANumber => exact .refl _
    | infinity t => cases t <;> exact .refl _
    | zero | finite => exact absurd rfl finite

theorem alike_mul_one (x : Float) : Alike (x * One.one) x := by
  rw [float_mul_comm]
  exact alike_one_mul x

end Binary64

end Downhill
