/-
Which variables an expression needs.

An expression has a value exactly where all of its variables are bound
(`exists_eval_eq_ok_iff`), and elsewhere the error names the leftmost of them that is not
(`eval_eq_error_iff`).  The simplifying operators invent no variables, and so
neither does the derivative: it mentions at most the variables of the expression.
Hence a gradient exists wherever the cost does (`Objective.exists_gradient`), and
no turn of a descent can fail for want of a variable.
-/
import Downhill.Bindings.Lemmas
import Downhill.Objective
import Downhill.Proofs.Expr.Simplification

namespace Downhill

namespace Point

variable {α : Type}

/-- The first of some names that a point leaves unbound. -/
def firstUnbound? (p : Point α) (names : List String) : Option String :=
  names.find? fun name => !p.contains name

theorem firstUnbound?_eq_none_iff {p : Point α} {names : List String} :
    p.firstUnbound? names = none ↔ ∀ name ∈ names, name ∈ p.keys := by
  simp [firstUnbound?, Bindings.contains_iff_mem_keys]

/-- All names in front of the first one that is not bound are. -/
theorem firstUnbound?_eq_some_iff {p : Point α} {names : List String} {name : String} :
    p.firstUnbound? names = some name ↔
      ∃ before after, names = before ++ name :: after ∧ (∀ earlier ∈ before, earlier ∈ p.keys) ∧
        name ∉ p.keys := by
  have unbound_iff : (!p.contains name) = true ↔ name ∉ p.keys := by
    rw [Bool.not_eq_true', ← Bindings.contains_iff_mem_keys, Bool.not_eq_true]
  rw [firstUnbound?, List.find?_eq_some_iff_append, unbound_iff]
  simp only [Bool.not_not, Bindings.contains_iff_mem_keys]
  constructor
  · rintro ⟨unbound, before, after, names_eq, bound⟩
    exact ⟨before, after, names_eq, bound, unbound⟩
  · rintro ⟨before, after, names_eq, bound, unbound⟩
    exact ⟨unbound, before, after, names_eq, bound⟩

theorem firstUnbound?_append_eq_some_iff {p : Point α} {first second : List String}
    {name : String} :
    p.firstUnbound? (first ++ second) = some name ↔
      p.firstUnbound? first = some name ∨
        p.firstUnbound? first = none ∧ p.firstUnbound? second = some name := by
  rw [firstUnbound?, List.find?_append]
  exact Option.or_eq_some_iff

/-- Two points bind some names alike, or leave them unbound alike. -/
def AgreeOn (names : List String) (p q : Point α) : Prop :=
  ∀ name ∈ names, p.get? name = q.get? name

theorem AgreeOn.symm {names : List String} {p q : Point α} (h : p.AgreeOn names q) :
    q.AgreeOn names p :=
  fun name mem => (h name mem).symm

end Point

namespace Expr

variable {α : Type}

/-! ### Names at the leaves -/

theorem mem_variableNames {e : Expr α} {name : String} :
    name ∈ e.variableNames ↔ name ∈ e.occurrences := by
  rw [variableNames, variableSet, Bindings.mem_keys_ofList]
  simp

/-- **An expression has a value exactly where its variables are bound.** -/
theorem exists_eval_eq_ok_iff [Add α] [Mul α] {e : Expr α} {p : Point α} :
    (∃ v, e.eval p = .ok v) ↔ ∀ name ∈ e.occurrences, name ∈ p.keys := by
  induction e with
  | const c => simp [eval, occurrences]
  | var name =>
      simp only [eval_var_eq_ok_iff, occurrences, List.mem_singleton, forall_eq]
      exact Bindings.mem_keys_iff.symm
  | sum l r ihl ihr =>
      simp only [occurrences, List.mem_append, or_imp, forall_and, ← ihl, ← ihr,
        eval_sum_eq_ok_iff]
      constructor
      · rintro ⟨v, a, b, ha, hb, rfl⟩
        exact ⟨⟨a, ha⟩, ⟨b, hb⟩⟩
      · rintro ⟨⟨a, ha⟩, ⟨b, hb⟩⟩
        exact ⟨a + b, a, b, ha, hb, rfl⟩
  | product l r ihl ihr =>
      simp only [occurrences, List.mem_append, or_imp, forall_and, ← ihl, ← ihr,
        eval_product_eq_ok_iff]
      constructor
      · rintro ⟨v, a, b, ha, hb, rfl⟩
        exact ⟨⟨a, ha⟩, ⟨b, hb⟩⟩
      · rintro ⟨⟨a, ha⟩, ⟨b, hb⟩⟩
        exact ⟨a * b, a, b, ha, hb, rfl⟩

/-- **The value of an expression depends on nothing but its variables**, and neither does the
error. -/
theorem eval_congr [Add α] [Mul α] {e : Expr α} {p q : Point α}
    (agree : p.AgreeOn e.occurrences q) : e.eval p = e.eval q := by
  induction e with
  | const c => rfl
  | var name => rw [eval, eval, Point.value, Point.value, agree name List.mem_cons_self]
  | sum l r ihl ihr =>
      rw [eval, eval, ihl fun name mem => agree name (List.mem_append_left _ mem),
        ihr fun name mem => agree name (List.mem_append_right _ mem)]
  | product l r ihl ihr =>
      rw [eval, eval, ihl fun name mem => agree name (List.mem_append_left _ mem),
        ihr fun name mem => agree name (List.mem_append_right _ mem)]

/-! ### The first variable that is missing -/

theorem exists_eval_eq_error_iff [Add α] [Mul α] {e : Expr α} {p : Point α} :
    (∃ err, e.eval p = .error err) ↔ ∃ name ∈ e.occurrences, name ∉ p.keys := by
  have bound_iff := exists_eval_eq_ok_iff (e := e) (p := p)
  rcases found : e.eval p with err | v
  · simpa [found] using bound_iff
  · simpa [found] using bound_iff

theorem firstUnbound?_occurrences_eq_none_iff [Add α] [Mul α] {e : Expr α} {p : Point α} :
    p.firstUnbound? e.occurrences = none ↔ ∃ v, e.eval p = .ok v := by
  rw [Point.firstUnbound?_eq_none_iff, exists_eval_eq_ok_iff]

/-- **The error of an evaluation names the leftmost variable that is not bound.** -/
theorem eval_eq_error_iff [Add α] [Mul α] {e : Expr α} {p : Point α} {name : String} :
    e.eval p = .error (.unbound name) ↔ p.firstUnbound? e.occurrences = some name := by
  induction e with
  | const c => simp [eval, occurrences, Point.firstUnbound?]
  | var other =>
      rw [eval, Point.value, occurrences, Point.firstUnbound?]
      rcases found : p.get? other with _ | v
      · simp [Bindings.contains, found]
      · simp [Bindings.contains, found]
  | sum l r ihl ihr =>
      rw [eval_sum_eq_error_iff, occurrences, Point.firstUnbound?_append_eq_some_iff,
        firstUnbound?_occurrences_eq_none_iff, ihl, ihr, exists_and_right]
  | product l r ihl ihr =>
      rw [eval_product_eq_error_iff, occurrences, Point.firstUnbound?_append_eq_some_iff,
        firstUnbound?_occurrences_eq_none_iff, ihl, ihr, exists_and_right]

/-! ### The operators invent no variables -/

section

variable [Zero α] [BEq α]

omit [Zero α] in
theorem occurrences_of_isConst {value : α} {e : Expr α} (h : e.isConst value = true) :
    e.occurrences = [] := by
  obtain ⟨c, rfl, -⟩ := isConst_eq_true_iff.mp h
  rfl

/-- A sum mentions the variables of its terms: what is dropped from it is a constant. -/
theorem occurrences_add [Add α] (l r : Expr α) :
    (l + r).occurrences = l.occurrences ++ r.occurrences := by
  have form := addForm_add l r
  generalize l + r = s at form
  cases form with
  | dropLeft zero => rw [occurrences_of_isConst zero, List.nil_append]
  | dropRight _ zero => rw [occurrences_of_isConst zero, List.append_nil]
  | folded left right =>
      subst left right
      rfl
  | node => rfl

/-- A square mentions the variables of its root: only a constant can make it collapse. -/
theorem occurrences_square [One α] [Mul α] (e : Expr α) :
    (e * e).occurrences = e.occurrences ++ e.occurrences := by
  have form := mulForm_mul e e
  generalize e * e = s at form
  cases form with
  | zero zero =>
      rw [occurrences_of_isConst (or_self_iff.mp zero)]
      rfl
  | dropLeft _ _ one | dropRight _ _ _ one => simp [occurrences_of_isConst one]
  | folded left right =>
      subst left
      rfl
  | node => rfl

theorem occurrences_mul_subset [One α] [Mul α] (l r : Expr α) :
    (l * r).occurrences ⊆ l.occurrences ++ r.occurrences := by
  have form := mulForm_mul l r
  generalize l * r = s at form
  cases form with
  | zero => exact List.nil_subset _
  | dropLeft => exact List.subset_append_right _ _
  | dropRight => exact List.subset_append_left _ _
  | folded => exact List.nil_subset _
  | node => exact List.Subset.refl _

variable [One α] [Add α] [Mul α]

/-- **A derivative mentions only variables of the expression.** -/
theorem occurrences_derivative_subset (x : String) (e : Expr α) :
    (e.derivative x).occurrences ⊆ e.occurrences := by
  induction e with
  | const c => exact List.nil_subset _
  | var name => exact List.nil_subset _
  | sum l r ihl ihr =>
      rw [derivative, occurrences, occurrences_add]
      exact List.append_subset.mpr ⟨List.Subset.trans ihl (List.subset_append_left _ _),
        List.Subset.trans ihr (List.subset_append_right _ _)⟩
  | product l r ihl ihr =>
      rw [derivative, occurrences, occurrences_add]
      have fromLeft := List.subset_append_left l.occurrences r.occurrences
      have fromRight := List.subset_append_right l.occurrences r.occurrences
      refine List.append_subset.mpr ⟨?_, ?_⟩
      · refine List.Subset.trans (occurrences_mul_subset _ _) ?_
        exact List.append_subset.mpr ⟨fromLeft, List.Subset.trans ihr fromRight⟩
      · refine List.Subset.trans (occurrences_mul_subset _ _) ?_
        exact List.append_subset.mpr ⟨List.Subset.trans ihl fromLeft, fromRight⟩

/-- Where an expression has a value, its derivative has one. -/
theorem exists_eval_derivative (x : String) {e : Expr α} {p : Point α} {v : α}
    (h : e.eval p = .ok v) : ∃ d, (e.derivative x).eval p = .ok d := by
  have bound := exists_eval_eq_ok_iff.mp ⟨v, h⟩
  refine exists_eval_eq_ok_iff.mpr ?_
  intro name mem
  exact bound name (occurrences_derivative_subset x e mem)

end

end Expr

namespace Objective

variable {α : Type} [Zero α] [One α] [Add α] [Mul α] [BEq α]

/-- Whether there is a cost is a matter of the names that are bound. -/
theorem exists_cost_of_keys_eq {o : Objective α} {p q : Point α} {c : α} (h : o.cost p = .ok c)
    (keys_eq : q.keys = p.keys) : ∃ c', o.cost q = .ok c' := by
  have bound := Expr.exists_eval_eq_ok_iff.mp ⟨c, h⟩
  rw [← keys_eq] at bound
  exact Expr.exists_eval_eq_ok_iff.mpr bound

/-- **Where an objective has a cost, it has a gradient.** -/
theorem exists_gradient {o : Objective α} {p : Point α} {c : α} (h : o.cost p = .ok c) :
    ∃ g, o.gradient p = .ok g := by
  rw [gradient, o.partials_eq]
  refine Bindings.exists_traverse_eq_ok ?_
  intro name partialDerivative found
  rw [Expr.partials, Bindings.get?_map, Option.map_eq_some_iff] at found
  obtain ⟨-, -, rfl⟩ := found
  exact Expr.exists_eval_derivative name h

theorem cost_congr {o : Objective α} {p q : Point α} (agree : p.AgreeOn o.expr.variableNames q) :
    o.cost p = o.cost q :=
  Expr.eval_congr fun name mem => agree name (Expr.mem_variableNames.mpr mem)

theorem gradient_congr {o : Objective α} {p q : Point α}
    (agree : p.AgreeOn o.expr.variableNames q) : o.gradient p = o.gradient q := by
  rw [gradient, gradient, o.partials_eq]
  refine Bindings.traverse_congr ?_
  intro name partialDerivative found
  rw [Expr.partials, Bindings.get?_map, Option.map_eq_some_iff] at found
  obtain ⟨-, -, rfl⟩ := found
  refine Expr.eval_congr fun other mem => agree other (Expr.mem_variableNames.mpr ?_)
  exact Expr.occurrences_derivative_subset name o.expr mem

/-- A gradient has a component for each variable of the expression. -/
theorem keys_gradient {o : Objective α} {p g : Point α} (h : o.gradient p = .ok g) :
    g.keys = o.expr.variableNames := by
  rw [Bindings.keys_traverse h, o.partials_eq, Expr.partials, Bindings.keys_map]
  rfl

/-- Where there is a cost, the names of the gradient are bound. -/
theorem mem_keys_of_gradient {o : Objective α} {p g : Point α} {c : α} (h : o.cost p = .ok c)
    (h' : o.gradient p = .ok g) {name : String} (mem : name ∈ g.keys) : name ∈ p.keys := by
  rw [keys_gradient h', Expr.mem_variableNames] at mem
  exact Expr.exists_eval_eq_ok_iff.mp ⟨c, h⟩ name mem

end Objective

end Downhill
