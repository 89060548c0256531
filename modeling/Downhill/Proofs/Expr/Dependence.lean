/-
What the value of an expression depends on.

Two walks over a tree have to agree.  One collects the names at the leaves, in order and each of
them once; the other evaluates from left to right and stops at the first name that is not bound.
They do: there is a value exactly where all the collected names are bound, and the rest of a
point does not matter.

Nor is a variable read in vain.  Bare nodes drop nothing, not even what is multiplied by zero,
so a NaN at any variable is one in the value (`not_nan_of_eval`).
-/
import Downhill.Proofs.Expr.Variables
import Downhill.Proofs.Float.Arithmetic

namespace Downhill

open Binary64

namespace Expr

variable {e : Expr Float} {p : Point Float} {v : Float}

/-- **Where the value is a number, all variables are.** -/
theorem not_nan_of_eval (h : e.eval p = .ok v) (not_nan : v.isNaN = false) :
    ∀ name ∈ e.occurrences, ∀ x, p.get? name = some x → x.isNaN = false := by
  induction e generalizing v with
  | const c =>
      intro name mem
      cases mem
  | var other =>
      intro name mem x found
      obtain rfl := List.mem_singleton.mp mem
      cases (eval_var_eq_ok_iff.mp h).symm.trans found
      exact not_nan
  | sum l r ihl ihr =>
      obtain ⟨a, b, ha, hb, rfl⟩ := eval_sum_eq_ok_iff.mp h
      obtain ⟨not_nan_a, not_nan_b⟩ := not_nan_of_add not_nan
      exact List.forall_mem_append.mpr ⟨ihl ha not_nan_a, ihr hb not_nan_b⟩
  | product l r ihl ihr =>
      obtain ⟨a, b, ha, hb, rfl⟩ := eval_product_eq_ok_iff.mp h
      obtain ⟨not_nan_a, not_nan_b⟩ := not_nan_of_mul not_nan
      exact List.forall_mem_append.mpr ⟨ihl ha not_nan_a, ihr hb not_nan_b⟩

/-- **An evaluation depends on the variables and on nothing else.**  It has a value exactly where
they are bound, otherwise the error names the first leaf that is not, two points that agree on
them give the same, and a NaN at one of them is one in the value. -/
theorem eval_of_variables (e : Expr Float) (p : Point Float) :
    ((∃ v, e.eval p = .ok v) ↔ ∀ name ∈ e.variableNames, name ∈ p.keys) ∧
    ((∃ name ∈ e.variableNames, name ∉ p.keys) →
      ∃ before name after, e.occurrences = before ++ name :: after ∧
        (∀ earlier ∈ before, earlier ∈ p.keys) ∧ name ∉ p.keys ∧
        e.eval p = .error (.unbound name)) ∧
    (∀ q : Point Float, p.AgreeOn e.variableNames q → e.eval p = e.eval q) ∧
    ∀ v, e.eval p = .ok v →
      ∀ name ∈ e.variableNames, ∀ x, p.get? name = some x → x.isNaN = true → v.isNaN = true := by
  simp only [Point.AgreeOn, mem_variableNames]
  refine ⟨exists_eval_eq_ok_iff, ?_, fun q => eval_congr, ?_⟩
  · intro missing
    obtain ⟨⟨name⟩, failed⟩ := exists_eval_eq_error_iff.mpr missing
    obtain ⟨before, after, leaves, bound, unbound⟩ :=
      Point.firstUnbound?_eq_some_iff.mp (eval_eq_error_iff.mp failed)
    exact ⟨before, name, after, leaves, bound, unbound, failed⟩
  · intro v found name mem x value nan
    by_contra not_nan
    rw [Bool.not_eq_true] at not_nan
    cases (not_nan_of_eval found not_nan name mem x value).symm.trans nan

/-- The tree `z * 0 + y * x`.  Where only `x` is bound, `z` is missed first, although `y` comes
before it in order; a name that does not occur may be bound or not; and where `z` is NaN, so is
the value, although a factor is zero. -/
theorem eval_of_variables_hidden :
    let e : Expr Float := .sum (.product (.var "z") (.const 0)) (.product (.var "y") (.var "x"))
    let p : Point Float := .ofList [("x", 2), ("y", 3), ("z", 0 / 0)]
    (e.variableNames = ["x", "y", "z"] ∧ e.occurrences = ["z", "y", "x"]) ∧
    ("y" ∉ (Bindings.ofList [("x", (2 : Float))]).keys ∧
      e.eval (.ofList [("x", 2)]) = .error (.unbound "z")) ∧
    (p.AgreeOn e.variableNames (p.insert "w" 7) ∧ e.eval p = e.eval (p.insert "w" 7)) ∧
    ∃ v, e.eval p = .ok v ∧ v.isNaN = true := by
  intro e p
  have names : e.variableNames = ["x", "y", "z"] := by decide +kernel
  have missing : "y" ∉ (Bindings.ofList [("x", (2 : Float))]).keys := by decide +kernel
  have agree : p.AgreeOn e.variableNames (p.insert "w" 7) := by
    rw [names]
    intro name mem
    have other : name ≠ "w" := by
      rintro rfl
      exact absurd mem (by decide)
    rw [Bindings.get?_insert, if_neg other]
  obtain ⟨-, fails, -, -⟩ := eval_of_variables e (.ofList [("x", 2)])
  obtain ⟨bound_iff, -, congr, spreads⟩ := eval_of_variables e p
  obtain ⟨v, found⟩ := bound_iff.mpr (by decide +kernel)
  refine ⟨⟨names, rfl⟩, ⟨missing, ?_⟩, ⟨agree, congr _ agree⟩, v, found, ?_⟩
  · obtain ⟨before, name, after, leaves, bound, -, failed⟩ :=
      fails ⟨"y", by simp [names], missing⟩
    rcases before with _ | ⟨first, before⟩
    · obtain ⟨rfl, -⟩ := List.cons.inj leaves
      exact failed
    · obtain ⟨rfl, -⟩ := List.cons.inj leaves
      exact absurd (bound "z" List.mem_cons_self) (by decide +kernel)
  · exact spreads v found "z" (by simp [names]) (0 / 0) rfl rfl

end Expr

end Downhill
