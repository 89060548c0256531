/-
The partial derivatives that an expression has.

Which partials there are is decided by one walk over the expression, which collects its
variables, and what they are by another, which differentiates.  The two agree: there is one
partial for each variable and no other (`get?_partials`), and the derivative for any other name
collapses to the constant zero (`derivative_of_not_mem`), because a zero takes every term and
factor beside it away.

A partial mentions no variable that the expression does not, so a gradient exists wherever the
cost does.  It may exist elsewhere, too; where it does not, the first partial without a value is
to blame (`Objective.gradient_eq_error_iff`).
-/
import Downhill.Proofs.Expr.Variables

namespace Downhill

namespace Expr

/-! ### One partial for each variable -/

section

variable {α : Type} {e : Expr α}

/-- Names come in order, none of them twice. -/
theorem pairwise_variableNames (e : Expr α) : e.variableNames.Pairwise (· < ·) :=
  e.variableSet.ascending

variable [Zero α] [One α] [Add α] [Mul α] [BEq α]

/-- **The partials are the derivatives for the variables, in name order.** -/
theorem toList_partials (e : Expr α) :
    e.partials.toList = e.variableNames.map fun x => (x, e.derivative x) := by
  rw [partials, variableNames, Bindings.keys, List.map_map]
  rfl

/-- **A name has a partial exactly if it is a variable**, and it is the derivative for it. -/
theorem get?_partials (e : Expr α) (x : String) :
    e.partials.get? x = if x ∈ e.variableNames then some (e.derivative x) else none := by
  rw [partials, Bindings.get?_map]
  split
  · rename_i mem
    obtain ⟨_, found⟩ := Bindings.mem_keys_iff.mp mem
    rw [found]
    rfl
  · rename_i not_mem
    rw [variableNames, Bindings.mem_keys_iff, not_exists, ← Option.eq_none_iff_forall_ne_some]
      at not_mem
    rw [not_mem]
    rfl

end

/-! ### No other derivatives -/

section

variable {α : Type} [Zero α] [BEq α]

/-- **The derivative for a name that does not occur is the constant zero**, if zero passes the test
for it. -/
theorem derivative_of_not_mem [One α] [Add α] [Mul α] (zero_eq : ((0 : α) == 0) = true)
    {e : Expr α} {x : String} (h : x ∉ e.occurrences) : e.derivative x = const 0 := by
  have zero : (const 0 : Expr α).isConst 0 = true := zero_eq
  induction e with
  | const c => rfl
  | var name =>
      have other : name ≠ x := by simpa [occurrences, eq_comm] using h
      rw [derivative, if_neg other]
  | sum l r ihl ihr =>
      rw [occurrences, List.mem_append, not_or] at h
      rw [derivative, ihl h.1, ihr h.2, add_of_isConst_zero zero]
  | product l r ihl ihr =>
      rw [occurrences, List.mem_append, not_or] at h
      rw [derivative, ihl h.1, ihr h.2, mul_of_isConst_zero (.inr zero),
        mul_of_isConst_zero (.inl zero), add_of_isConst_zero zero]

end

end Expr

namespace Objective

variable {α : Type} [Zero α] [One α] [Add α] [Mul α] [BEq α]

/-- **A gradient fails as the first partial in name order that fails**, at the leftmost variable
which that partial misses. -/
theorem gradient_eq_error_iff {e : Expr α} {p : Point α} {name : String} :
    (ofExpr e).gradient p = .error (.unbound name) ↔
      ∃ before x after, e.variableNames = before ++ x :: after ∧
        (∀ y ∈ before, ∃ d, (e.derivative y).eval p = .ok d) ∧
        p.firstUnbound? (e.derivative x).occurrences = some name := by
  rw [gradient, Bindings.traverse_eq_error_iff]
  show (∃ before entry after, e.partials.toList = before ++ entry :: after ∧ _ ∧ _) ↔ _
  rw [Expr.toList_partials]
  constructor
  · rintro ⟨before, entry, after, split, passed, failed⟩
    obtain ⟨names, rest, names_eq, rfl, rest_eq⟩ := List.map_eq_append_iff.mp split
    obtain ⟨x, later, rfl, rfl, rfl⟩ := List.map_eq_cons_iff.mp rest_eq
    refine ⟨names, x, later, names_eq, ?_, Expr.eval_eq_error_iff.mp failed⟩
    intro y mem
    exact passed (y, e.derivative y) (List.mem_map_of_mem mem)
  · rintro ⟨before, x, after, names_eq, passed, missed⟩
    refine ⟨before.map fun y => (y, e.derivative y), (x, e.derivative x),
      after.map fun y => (y, e.derivative y), ?_, ?_, Expr.eval_eq_error_iff.mpr missed⟩
    · rw [names_eq, List.map_append, List.map_cons]
    · intro entry mem
      obtain ⟨y, mem_before, rfl⟩ := List.mem_map.mp mem
      exact passed y mem_before

end Objective

namespace Expr

/-- **The partials fit their expression.**  There is one for each variable, and the derivative for
any other name is zero; none mentions a name that is not a variable.  So wherever the expression
has a value, there is a gradient with a component for each variable, and a gradient that does not
exist fails at the first partial in name order that has no value. -/
theorem partials_of_variables (e : Expr Float) :
    e.variableNames.Pairwise (· < ·) ∧
    (∀ x, x ∈ e.variableNames ↔ x ∈ e.occurrences) ∧
    e.partials.keys = e.variableNames ∧
    (∀ x, e.partials.get? x = if x ∈ e.variableNames then some (e.derivative x) else none) ∧
    (∀ x, x ∉ e.variableNames → e.derivative x = .const 0.0) ∧
    (∀ x, (e.derivative x).variableNames ⊆ e.variableNames) ∧
    (∀ p v, e.eval p = .ok v →
      ∃ g, (Objective.ofExpr e).gradient p = .ok g ∧ g.keys = e.variableNames) ∧
    ∀ p name, (Objective.ofExpr e).gradient p = .error (.unbound name) ↔
      ∃ before x after, e.variableNames = before ++ x :: after ∧
        (∀ y ∈ before, ∃ d, (e.derivative y).eval p = .ok d) ∧
        p.firstUnbound? (e.derivative x).occurrences = some name := by
  refine ⟨pairwise_variableNames e, fun x => mem_variableNames, Bindings.keys_map _ _,
    get?_partials e, ?_, ?_, ?_, fun p name => Objective.gradient_eq_error_iff⟩
  · intro x not_mem
    exact derivative_of_not_mem (by decide) (mem_variableNames.not.mp not_mem)
  · intro x name mem
    exact mem_variableNames.mpr (occurrences_derivative_subset x e (mem_variableNames.mp mem))
  · intro p v found
    obtain ⟨g, gradient_eq⟩ := Objective.exists_gradient (o := .ofExpr e) found
    exact ⟨g, gradient_eq, Objective.keys_gradient gradient_eq⟩

/-- A bare zero hides `z` from every partial, and `y * x` has the partials `y` and `x`, of which
the one for `x` comes first. -/
theorem partials_of_variables_hidden :
    let e : Expr Float := .sum (.product (.var "z") (.const 0)) (.product (.var "y") (.var "x"))
    let p : Point Float := .ofList [("x", 2), ("y", 3), ("z", 5)]
    e.variableNames = ["x", "y", "z"] ∧
    ("w" ∉ e.variableNames ∧ e.derivative "w" = .const 0.0) ∧
    ((∃ v, e.eval p = .ok v) ∧
      ∃ g, (Objective.ofExpr e).gradient p = .ok g ∧ g.keys = ["x", "y", "z"]) ∧
    (Objective.ofExpr e).gradient (.ofList [("x", 2)]) = .error (.unbound "y") := by
  intro e p
  have names : e.variableNames = ["x", "y", "z"] := by decide +kernel
  have absent : "w" ∉ e.variableNames := by
    rw [names]
    decide
  have bound : ∃ v, e.eval p = .ok v := exists_eval_eq_ok_iff.mpr (by decide +kernel)
  obtain ⟨-, -, -, -, vanishes, -, exists_gradient, fails⟩ := partials_of_variables e
  obtain ⟨v, found⟩ := bound
  refine ⟨names, ⟨absent, vanishes "w" absent⟩, ⟨⟨v, found⟩, ?_⟩, ?_⟩
  · obtain ⟨g, gradient_eq, keys_eq⟩ := exists_gradient p v found
    exact ⟨g, gradient_eq, keys_eq.trans names⟩
  · exact (fails _ "y").mpr ⟨[], "x", ["y", "z"], names, by simp, by decide +kernel⟩

end Expr

end Downhill
