/-
Sums of floats, of any length.

A sum is added up from the front and rounded after each term.  If no term is negative, the
sum is at least each of them, unless it is NaN (`le_value_total`).

If no term is positive and each is no larger in size than a bound of its own, then neither is
the sum larger in size than the sum of the bounds: rounding treats both sides of zero alike
(`damped_total`).  So the sum is finite where that of the bounds is.
-/
import Downhill.Proofs.Float.Arithmetic

namespace Downhill

namespace Binary64

/-- The sum, added up from zero. -/
def total (terms : List Float) : Float := terms.foldl (· + ·) Zero.zero

theorem sumBy_eq_total {α : Type} (b : Bindings α) (f : String → α → Float) :
    b.sumBy f = total (b.toList.map fun e => f e.1 e.2) := by
  rw [total, List.foldl_map]
  rfl

theorem total_append_singleton (terms : List Float) (x : Float) :
    total (terms ++ [x]) = total terms + x := by
  rw [total, List.foldl_append]
  rfl

/-- NaN spreads through sums. -/
theorem not_nan_of_mem_total {terms : List Float} (not_nan : (total terms).isNaN = false) :
    ∀ x ∈ terms, x.isNaN = false := by
  induction terms using List.reverseRecOn with
  | nil => simp
  | append_singleton terms last ih =>
      rw [total_append_singleton] at not_nan
      obtain ⟨not_nan_total, not_nan_last⟩ := not_nan_of_add not_nan
      intro x mem
      rcases List.mem_append.mp mem with before | is_last
      · exact ih not_nan_total x before
      · exact (List.mem_singleton.mp is_last) ▸ not_nan_last

theorem total_zeros (n : ℕ) : total (List.replicate n Zero.zero) = Zero.zero := by
  have zero_add : (Zero.zero : Float) + Zero.zero = Zero.zero := by decide +kernel
  induction n with
  | zero => rfl
  | succ n ih => rw [List.replicate_succ', total_append_singleton, ih, zero_add]

/-- A sum of numbers that are not negative is at least each of them.  The induction takes the
terms from the end, where the sum was extended last. -/
theorem le_value_total {terms : List Float} (nonneg : ∀ x ∈ terms, 0 ≤ value x)
    (not_nan : (total terms).isNaN = false) :
    0 ≤ value (total terms) ∧ ∀ x ∈ terms, x.isNaN = false ∧ value x ≤ value (total terms) := by
  induction terms using List.reverseRecOn with
  | nil => exact ⟨value_zero.ge, by simp⟩
  | append_singleton terms last ih =>
      rw [total_append_singleton] at not_nan ⊢
      obtain ⟨not_nan_total, not_nan_last⟩ := not_nan_of_add not_nan
      obtain ⟨nonneg_total, bound⟩ := ih (fun x mem => nonneg x (by simp [mem])) not_nan_total
      obtain ⟨total_le, last_le⟩ := le_value_add not_nan nonneg_total (nonneg last (by simp))
      refine ⟨nonneg_total.trans total_le, ?_⟩
      intro x mem
      rcases List.mem_append.mp mem with before | is_last
      · obtain ⟨not_nan_x, le⟩ := bound x before
        exact ⟨not_nan_x, le.trans total_le⟩
      · obtain rfl := List.mem_singleton.mp is_last
        exact ⟨not_nan_last, last_le⟩

/-- A sum of zeros of either sign is a zero. -/
theorem value_total_eq_zero {terms : List Float}
    (zeros : ∀ x ∈ terms, x.isNaN = false ∧ value x = 0) :
    (total terms).isNaN = false ∧ value (total terms) = 0 := by
  induction terms using List.reverseRecOn with
  | nil => exact ⟨rfl, value_zero⟩
  | append_singleton terms last ih =>
      obtain ⟨not_nan_last, last_eq⟩ := zeros last (by simp)
      obtain ⟨not_nan, total_eq⟩ := ih fun x mem => zeros x (by simp [mem])
      have sum := yields_add_of_nonneg not_nan not_nan_last total_eq.ge last_eq.ge
      rw [total_eq, last_eq, add_zero] at sum
      rw [total_append_singleton]
      exact ⟨sum.not_nan, sum.value_eq.trans rounded_zero⟩

/-- A finite number that is not positive, and in size at most the bound. -/
structure Damped (x bound : Float) : Prop where
  finite : x.isFinite = true
  nonpos : value x ≤ 0
  neg_le : -value x ≤ value bound

theorem Yields.damped {x bound : Float} {exact : ℚ} (h : Yields x exact)
    (finite : bound.isFinite = true) (nonpos : exact ≤ 0) (neg_le : -exact ≤ value bound) :
    Damped x bound := by
  have size_le : |exact| ≤ value bound := by rwa [abs_of_nonpos nonpos]
  exact ⟨h.finite finite size_le, h.nonpos nonpos,
    (neg_le_abs (value x)).trans (h.abs_value_le size_le)⟩

namespace Damped

variable {x y boundX boundY : Float}

theorem zero : Damped Zero.zero Zero.zero :=
  ⟨isFinite_zero, value_zero.le, by rw [value_zero, neg_zero]⟩

theorem bound_nonneg (h : Damped x boundX) : 0 ≤ value boundX :=
  (neg_nonneg.mpr h.nonpos).trans h.neg_le

theorem add (hx : Damped x boundX) (hy : Damped y boundY)
    (finite : (boundX + boundY).isFinite = true) : Damped (x + y) (boundX + boundY) := by
  obtain ⟨not_nan_x, not_nan_y⟩ := not_nan_of_add (isFinite_iff.mp finite).1
  have sum := yields_add hx.finite hy.finite
  have bounds := yields_add_of_nonneg not_nan_x not_nan_y hx.bound_nonneg hy.bound_nonneg
  have exact_le : -(value x + value y) ≤ value boundX + value boundY := by
    linarith [hx.neg_le, hy.neg_le]
  have nonpos : value (x + y) ≤ 0 := sum.nonpos (add_nonpos hx.nonpos hy.nonpos)
  have neg_le : -value (x + y) ≤ value (boundX + boundY) := by
    rw [sum.value_eq, bounds.value_eq, ← rounded_neg]
    exact rounded_mono exact_le
  exact ⟨finite_of_abs_le sum.not_nan finite (by rwa [abs_of_nonpos nonpos]), nonpos, neg_le⟩

end Damped

/-- **A sum of damped numbers is damped by the sum of their bounds**, if that is finite. -/
theorem damped_total {ι : Type} {l : List ι} {term bound : ι → Float}
    (each : ∀ i ∈ l, Damped (term i) (bound i))
    (finite : (total (l.map bound)).isFinite = true) :
    Damped (total (l.map term)) (total (l.map bound)) := by
  induction l using List.reverseRecOn with
  | nil => exact .zero
  | append_singleton l i ih =>
      have damped := each i (by simp)
      simp only [List.map_append, List.map_singleton, total_append_singleton] at finite ⊢
      obtain ⟨not_nan, -⟩ := isFinite_iff.mp finite
      obtain ⟨not_nan_total, -⟩ := not_nan_of_add not_nan
      have nonneg_total : 0 ≤ value (total (l.map bound)) := by
        refine (le_value_total ?_ not_nan_total).1
        intro b mem
        obtain ⟨i', mem', rfl⟩ := List.mem_map.mp mem
        exact (each i' (by simp [mem'])).bound_nonneg
      obtain ⟨total_le, -⟩ := le_value_add not_nan nonneg_total damped.bound_nonneg
      have finite_total : (total (l.map bound)).isFinite = true :=
        finite_of_abs_le not_nan_total finite (by rwa [abs_of_nonneg nonneg_total])
      exact (ih (fun i' mem => each i' (by simp [mem])) finite_total).add damped finite

end Binary64

end Downhill
