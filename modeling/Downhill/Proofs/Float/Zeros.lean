/-
The sign of a zero.

Two floats can be equal for the test of equality and still differ, in the sign of a zero.
`Alike` relates floats that differ in nothing else, and sums and products respect it.  The
difference of two such floats is zero if they are finite, and NaN if they are not.

So the value of an expression at a point does not depend on the signs of the zeros among the
coordinates, but for the sign of a zero (`Expr.exists_eval_alike`).
-/
import Downhill.Expr.Eval
import Downhill.Proofs.Expr.Simplification
import Downhill.Proofs.Float.Subtraction

namespace Downhill

namespace Binary64

open Float.Model Float.Model.UnpackedFloat

/-! ### Unpacked floats -/

/-- Equal, or both zero. -/
inductive AlikeUnpacked : UnpackedFloat → UnpackedFloat → Prop
  | refl (u : UnpackedFloat) : AlikeUnpacked u u
  | zeros (s t : Sign) : AlikeUnpacked (.zero s) (.zero t)

namespace AlikeUnpacked

variable {a b c : UnpackedFloat}

theorem trans (h : AlikeUnpacked a b) (h' : AlikeUnpacked b c) : AlikeUnpacked a c := by
  cases h with
  | refl => exact h'
  | zeros s t =>
      cases h' with
      | refl => exact .zeros s t
      | zeros _ t' => exact .zeros s t'

theorem symm (h : AlikeUnpacked a b) : AlikeUnpacked b a := by
  cases h with
  | refl => exact .refl _
  | zeros s t => exact .zeros t s

theorem neg (h : AlikeUnpacked a b) : AlikeUnpacked a.neg b.neg := by
  cases h with
  | refl => exact .refl _
  | zeros s t => exact .zeros _ _

theorem repack (h : AlikeUnpacked a b) : AlikeUnpacked (Binary64.repack a) (Binary64.repack b) := by
  cases h with
  | refl => exact .refl _
  | zeros s t =>
      rw [repack_zero, repack_zero]
      exact .zeros s t

/-- A sum of zeros is a zero, and zeros drop out of other sums. -/
theorem add_left (h : AlikeUnpacked a b) (c : UnpackedFloat) :
    AlikeUnpacked (a.add Format.binary64 c) (b.add Format.binary64 c) := by
  cases h with
  | refl => exact .refl _
  | zeros s t =>
      cases c with
      | zero u => cases s <;> cases t <;> cases u <;> exact .zeros _ _
      | _ => exact .refl _

theorem add_right (h : AlikeUnpacked a b) (c : UnpackedFloat) :
    AlikeUnpacked (c.add Format.binary64 a) (c.add Format.binary64 b) := by
  cases h with
  | refl => exact .refl _
  | zeros s t =>
      cases c with
      | zero u => cases s <;> cases t <;> cases u <;> exact .zeros _ _
      | _ => exact .refl _

/-- A zero makes a product zero or NaN, whatever its sign. -/
theorem mul_left (h : AlikeUnpacked a b) (c : UnpackedFloat) :
    AlikeUnpacked (a.mul Format.binary64 c) (b.mul Format.binary64 c) := by
  cases h with
  | refl => exact .refl _
  | zeros s t =>
      cases c with
      | zero | finite => exact .zeros _ _
      | _ => exact .refl _

theorem mul_right (h : AlikeUnpacked a b) (c : UnpackedFloat) :
    AlikeUnpacked (c.mul Format.binary64 a) (c.mul Format.binary64 b) := by
  cases h with
  | refl => exact .refl _
  | zeros s t =>
      cases c with
      | zero | finite => exact .zeros _ _
      | _ => exact .refl _

end AlikeUnpacked

/-- What compares as equal is equal, or both are zero. -/
theorem alikeUnpacked_of_compare {a b : UnpackedFloat} (h : a.compare b = some .eq) :
    AlikeUnpacked a b := by
  cases a with
  | notANumber => cases h
  | infinity s =>
      cases b with
      | notANumber => cases h
      | infinity t =>
          cases s <;> cases t <;> cases h
          · exact .refl _
          · exact .refl _
      | zero | finite => cases s <;> cases h
  | zero s =>
      cases b with
      | notANumber => cases h
      | infinity t => cases t <;> cases h
      | zero t => exact .zeros s t
      | finite t => cases t <;> cases h
  | finite s m e hm =>
      cases b with
      | notANumber => cases h
      | infinity t => cases s <;> cases t <;> cases h
      | zero t => cases s <;> cases h
      | finite t n f hn =>
          cases s <;> cases t <;> simp [UnpackedFloat.compare] at h
          · obtain ⟨rfl, rfl⟩ := h
            exact .refl _
          · obtain ⟨rfl, rfl⟩ := h
            exact .refl _

/-! ### Floats -/

/-- Equal in everything but the sign of a zero. -/
def Alike (x y : Float) : Prop := AlikeUnpacked x.toModel.unpack y.toModel.unpack

variable {x x' y y' : Float}

theorem alike_of_beq (h : (x == y) = true) : Alike x y := by
  have equal : (x.toModel.unpack.compare y.toModel.unpack == some .eq) = true := h
  exact alikeUnpacked_of_compare (eq_of_beq equal)

theorem Alike.refl (x : Float) : Alike x x := AlikeUnpacked.refl _

theorem Alike.symm (h : Alike x y) : Alike y x := AlikeUnpacked.symm h

theorem Alike.trans {z : Float} (h : Alike x y) (h' : Alike y z) : Alike x z :=
  AlikeUnpacked.trans h h'

theorem Alike.neg (h : Alike x y) : Alike (-x) (-y) := by
  rw [Alike, unpack_neg, unpack_neg]
  exact AlikeUnpacked.neg h

theorem Alike.add (hx : Alike x x') (hy : Alike y y') : Alike (x + y) (x' + y') :=
  ((hx.add_left _).trans (hy.add_right _)).repack

theorem Alike.mul (hx : Alike x x') (hy : Alike y y') : Alike (x * y) (x' * y') :=
  ((hx.mul_left _).trans (hy.mul_right _)).repack

theorem Alike.value_eq (h : Alike x y) : value x = value y := by
  show valueOf x.toModel.unpack = valueOf y.toModel.unpack
  rw [Alike] at h
  generalize x.toModel.unpack = a at h ⊢
  generalize y.toModel.unpack = b at h ⊢
  cases h <;> rfl

theorem Alike.isNaN_eq (h : Alike x y) : x.isNaN = y.isNaN := by
  show x.toModel.unpack.isNaN = y.toModel.unpack.isNaN
  rw [Alike] at h
  generalize x.toModel.unpack = a at h ⊢
  generalize y.toModel.unpack = b at h ⊢
  cases h <;> rfl

theorem Alike.isFinite (h : Alike x y) (finite : x.isFinite = true) : y.isFinite = true := by
  obtain ⟨not_nan, in_range⟩ := isFinite_iff.mp finite
  rw [h.isNaN_eq] at not_nan
  rw [h.value_eq] at in_range
  exact isFinite_iff.mpr ⟨not_nan, in_range⟩

/-- The test of equality does not see the difference. -/
theorem Alike.beq_eq (h : Alike x y) (z : Float) : (x == z) = (y == z) := by
  rw [Bool.eq_iff_iff, beq_iff, beq_iff, h.isNaN_eq, h.value_eq]

/-- Equal for the test of equality, or both NaN. -/
def SameValue (x y : Float) : Prop := (x == y) = true ∨ x.isNaN = true ∧ y.isNaN = true

theorem Alike.sameValue (h : Alike x y) : SameValue x y := by
  rcases not_nan : x.isNaN with _ | _
  · exact .inl (beq_iff.mpr ⟨not_nan, h.isNaN_eq ▸ not_nan, h.value_eq⟩)
  · exact .inr ⟨not_nan, h.isNaN_eq ▸ not_nan⟩

/-! ### Differences of what is alike -/

theorem Alike.sub_of_finite (h : Alike x y) (finite : x.isFinite = true) :
    (x - y).isNaN = false ∧ value (x - y) = 0 := by
  have difference := yields_sub finite (h.isFinite finite)
  rw [h.value_eq, sub_self] at difference
  exact ⟨difference.not_nan, difference.value_eq.trans rounded_zero⟩

/-- An infinity less itself is NaN. -/
theorem Alike.isNaN_sub (h : Alike x y) (infinite : ¬ x.isFinite = true) :
    (x - y).isNaN = true := by
  by_contra number
  rw [Bool.not_eq_true] at number
  obtain ⟨s, hs⟩ := exists_eq_infinity (not_nan_of_sub number).1 infinite
  have same : y.toModel.unpack = .infinity s := by
    rw [Alike, hs] at h
    generalize y.toModel.unpack = b at h ⊢
    cases h
    rfl
  have cancels : UnpackedFloat.sub Format.binary64 (.infinity s) (.infinity s) = .notANumber := by
    cases s <;> rfl
  have difference_eq : (x - y).toModel.unpack =
      repack (UnpackedFloat.sub Format.binary64 x.toModel.unpack y.toModel.unpack) := rfl
  rw [hs, same, cancels, repack_notANumber] at difference_eq
  change (x - y).toModel.unpack.isNaN = false at number
  rw [difference_eq] at number
  cases number

end Binary64

open Binary64

/-! ### Expressions -/

/-- **The signs of zeros do not matter to the value of an expression**, but for the sign of a
zero. -/
theorem Expr.exists_eval_alike {p q : Point Float}
    (alike : ∀ name x, p.get? name = some x → ∃ y, q.get? name = some y ∧ Alike x y)
    {e : Expr Float} {v : Float} (h : e.eval p = .ok v) : ∃ w, e.eval q = .ok w ∧ Alike v w := by
  induction e generalizing v with
  | const c =>
      cases h
      exact ⟨c, rfl, .refl _⟩
  | var name =>
      obtain ⟨y, found, alike_y⟩ := alike name v (eval_var_eq_ok_iff.mp h)
      exact ⟨y, eval_var_eq_ok_iff.mpr found, alike_y⟩
  | sum l r ihl ihr =>
      obtain ⟨a, b, ha, hb, rfl⟩ := eval_sum_eq_ok_iff.mp h
      obtain ⟨a', ha', alike_a⟩ := ihl ha
      obtain ⟨b', hb', alike_b⟩ := ihr hb
      exact ⟨a' + b', eval_sum_eq_ok_iff.mpr ⟨a', b', ha', hb', rfl⟩, alike_a.add alike_b⟩
  | product l r ihl ihr =>
      obtain ⟨a, b, ha, hb, rfl⟩ := eval_product_eq_ok_iff.mp h
      obtain ⟨a', ha', alike_a⟩ := ihl ha
      obtain ⟨b', hb', alike_b⟩ := ihr hb
      exact ⟨a' * b', eval_product_eq_ok_iff.mpr ⟨a', b', ha', hb', rfl⟩, alike_a.mul alike_b⟩

end Downhill
