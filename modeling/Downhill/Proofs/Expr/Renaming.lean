/-
Other names for the variables.

A `Renaming` is a map of names that keeps their order.  Bindings are kept in name order, so such
a map can be applied to the entries where they stand (`Bindings.rename`), and whatever runs
through the entries in order runs through the renamed ones in the same order: sums, traversals,
the collection of the variables of an expression.  Look-up compares names for equality, and a
renaming is injective.  Hence value, derivative and gradient of a renamed expression are those of
the expression, renamed (`Expr.eval_rename`, `Expr.derivative_rename`,
`Objective.gradient_rename`).
-/
import Downhill.Bindings.Lemmas
import Downhill.Objective
import Mathlib.Logic.Basic
import Mathlib.Tactic.SplitIfs

namespace Downhill

/-- A map of names that keeps their order. -/
structure Renaming where
  /-- The new name for a name. -/
  rename : String → String
  /-- Of two names, the smaller one gets the smaller new name. -/
  rename_lt : ∀ {a b : String}, a < b → rename a < rename b

instance : CoeFun Renaming fun _ => String → String := ⟨Renaming.rename⟩

namespace Renaming

variable (f : Renaming) {a b : String}

/-- Different names stay different. -/
theorem eq_iff : f a = f b ↔ a = b := by
  refine ⟨fun same => ?_, congrArg f⟩
  by_cases less : a < b
  · exact absurd (same ▸ f.rename_lt less) (String.lt_irrefl _)
  by_cases greater : b < a
  · exact absurd (same ▸ f.rename_lt greater) (String.lt_irrefl _)
  · exact String.le_antisymm (String.not_lt.mp greater) (String.not_lt.mp less)

/-- **A renaming neither makes nor loses an order between names.** -/
theorem lt_iff : f a < f b ↔ a < b := by
  refine ⟨fun less => ?_, f.rename_lt⟩
  by_cases same : a = b
  · exact absurd (same ▸ less) (String.lt_irrefl _)
  by_cases greater : b < a
  · exact absurd (f.rename_lt greater) (String.lt_asymm less)
  · exact Std.lt_of_le_of_ne (String.not_lt.mp greater) same

/-- Puts the same letters in front of every name. -/
def withPrefix (letters : String) : Renaming where
  rename name := letters ++ name
  rename_lt {a b} less := by
    show (letters ++ a).toList < (letters ++ b).toList
    rw [String.toList_append, String.toList_append]
    exact List.append_left_lt less

end Renaming

variable {α : Type}

/-! ### Bindings -/

namespace Bindings

variable {β γ ε : Type}

/-- The same values under new names. -/
def rename (f : Renaming) (b : Bindings α) : Bindings α where
  toList := b.toList.map fun e => (f e.1, e.2)
  ascending := by
    have renamed := b.ascending.map f fun _ _ => f.rename_lt
    simpa only [List.map_map, Function.comp_def] using renamed

variable (f : Renaming) (b : Bindings α)

theorem keys_rename : (b.rename f).keys = b.keys.map f := by
  simp [keys, rename, Function.comp_def]

/-- **A value is found under the new name where it was found under the old one.** -/
theorem get?_rename (name : String) : (b.rename f).get? (f name) = b.get? name := by
  show (b.toList.map fun e => (f e.1, e.2)).lookup (f name) = b.toList.lookup name
  induction b.toList with
  | nil => rfl
  | cons e rest ih =>
      obtain ⟨key, held⟩ := e
      by_cases h : name = key
      · simp [h]
      · have different : f name ≠ f key := mt f.eq_iff.mp h
        simp only [List.map_cons, List.lookup_cons, beq_eq_false_iff_ne.mpr h,
          beq_eq_false_iff_ne.mpr different, ih]

/-- Binding a name and renaming is renaming and binding the new name. -/
theorem rename_insert (name : String) (value : α) :
    (b.insert name value).rename f = (b.rename f).insert (f name) value := by
  refine eq_of_toList_eq ?_
  show (insertEntry name value b.toList).map (fun e => (f e.1, e.2)) =
    insertEntry (f name) value (b.toList.map fun e => (f e.1, e.2))
  induction b.toList with
  | nil => rfl
  | cons e rest ih =>
      obtain ⟨key, held⟩ := e
      simp only [insertEntry, List.map_cons, f.lt_iff, f.eq_iff, ← ih]
      split_ifs <;> rfl

theorem rename_ofList (entries : List (String × α)) :
    (ofList entries).rename f = ofList (entries.map fun e => (f e.1, e.2)) := by
  have step : ∀ (l : List (String × α)) (b : Bindings α),
      (l.foldl (fun b e => b.insert e.1 e.2) b).rename f =
        (l.map fun e => (f e.1, e.2)).foldl (fun b e => b.insert e.1 e.2) (b.rename f) := by
    intro l
    induction l with
    | nil => intro b; rfl
    | cons e rest ih =>
        intro b
        rw [List.foldl_cons, ih, rename_insert, List.map_cons, List.foldl_cons]
  exact step entries ∅

/-! What is done to each entry may look at the name.  It has to do under the new name what it does
under the old one. -/

variable {f}

theorem map_rename {g g' : String → α → β} (h : ∀ name x, g' (f name) x = g name x) :
    (b.rename f).map g' = (b.map g).rename f := by
  simp [rename, map, Function.comp_def, h]

theorem all_rename {test test' : String → α → Bool} (h : ∀ name x, test' (f name) x = test name x) :
    (b.rename f).all test' = b.all test := by
  simp [rename, all, Function.comp_def, h]

/-- **The terms of a sum stay in their order.** -/
theorem sumBy_rename [Zero β] [Add β] {g g' : String → α → β}
    (h : ∀ name x, g' (f name) x = g name x) : (b.rename f).sumBy g' = b.sumBy g := by
  simp [rename, sumBy, List.foldl_map, h]

/-- **A traversal of renamed bindings fails where the traversal of the bindings does.** -/
theorem traverse_rename {g g' : String → α → Except ε β} {φ : ε → ε}
    (h : ∀ name x, g' (f name) x = (g name x).mapError φ) :
    (b.rename f).traverse g' = ((b.traverse g).mapError φ).map (rename f) := by
  have entries : ∀ l : List (String × α), traverseEntries g' (l.map fun e => (f e.1, e.2)) =
      ((traverseEntries g l).mapError φ).map (List.map fun e => (f e.1, e.2)) := by
    intro l
    induction l with
    | nil => rfl
    | cons e rest ih =>
        obtain ⟨name, x⟩ := e
        rw [List.map_cons, traverseEntries, traverseEntries, ih, h]
        cases g name x with
        | error e => rfl
        | ok y => cases traverseEntries g rest <;> rfl
  refine eq_of_map_toList_eq ?_
  rw [map_toList_traverse]
  refine (entries b.toList).trans ?_
  rw [← map_toList_traverse]
  cases b.traverse g <;> rfl

end Bindings

/-! ### Points -/

/-- The same error about the new name. -/
def EvalError.rename (f : Renaming) : EvalError → EvalError
  | unbound name => unbound (f name)

namespace Point

variable (f : Renaming) (p : Point α)

theorem value_rename (name : String) :
    Point.value (p.rename f) (f name) = (p.value name).mapError (EvalError.rename f) := by
  rw [value, value, Bindings.get?_rename]
  cases p.get? name <;> rfl

theorem component_rename [Zero α] (name : String) :
    Point.component (p.rename f) (f name) = p.component name := by
  rw [component, component, Bindings.get?_rename]

theorem isFinite_rename [Magnitude α] : Point.isFinite (p.rename f) = p.isFinite :=
  p.all_rename fun _ _ => rfl

end Point

/-! ### Expressions -/

namespace Expr

/-- The same expression in the new names. -/
def rename (f : Renaming) : Expr α → Expr α
  | const c => const c
  | var name => var (f name)
  | sum l r => sum (l.rename f) (r.rename f)
  | product l r => product (l.rename f) (r.rename f)

variable (f : Renaming)

/-- **The value is the same, and so is the error, but for the name.** -/
theorem eval_rename [Add α] [Mul α] (e : Expr α) (p : Point α) :
    (e.rename f).eval (p.rename f) = (e.eval p).mapError (EvalError.rename f) := by
  induction e with
  | const c => rfl
  | var name => exact p.value_rename f name
  | sum l r ihl ihr | product l r ihl ihr =>
      rw [rename, eval, eval, ihl, ihr]
      cases l.eval p with
      | error e => rfl
      | ok a => cases r.eval p <;> rfl

theorem occurrences_rename (e : Expr α) : (e.rename f).occurrences = e.occurrences.map f := by
  induction e with
  | const c => rfl
  | var name => rfl
  | sum l r ihl ihr | product l r ihl ihr =>
      rw [rename, occurrences, occurrences, ihl, ihr, List.map_append]

/-- **The variables are collected in the same order.** -/
theorem variableSet_rename (e : Expr α) : (e.rename f).variableSet = e.variableSet.rename f := by
  rw [variableSet, variableSet, Bindings.rename_ofList, occurrences_rename, List.map_map,
    List.map_map]
  rfl

section

variable [Zero α] [BEq α]

omit [Zero α] in
theorem isConst_rename (value : α) (e : Expr α) : (e.rename f).isConst value = e.isConst value := by
  cases e <;> rfl

theorem rename_add [Add α] (l r : Expr α) : (l + r).rename f = l.rename f + r.rename f := by
  show (Expr.add l r).rename f = Expr.add (l.rename f) (r.rename f)
  unfold Expr.add
  rw [isConst_rename, isConst_rename]
  split_ifs
  · rfl
  · rfl
  · cases l <;> cases r <;> rfl

theorem rename_mul [One α] [Mul α] (l r : Expr α) : (l * r).rename f = l.rename f * r.rename f := by
  show (Expr.mul l r).rename f = Expr.mul (l.rename f) (r.rename f)
  unfold Expr.mul
  rw [isConst_rename, isConst_rename, isConst_rename, isConst_rename]
  split_ifs
  · rfl
  · rfl
  · rfl
  · cases l <;> cases r <;> rfl

variable [One α] [Add α] [Mul α]

/-- **The derivative for the new name is the derivative, renamed.** -/
theorem derivative_rename (x : String) (e : Expr α) :
    (e.rename f).derivative (f x) = (e.derivative x).rename f := by
  induction e with
  | const c => rfl
  | var name => simp only [rename, derivative, f.eq_iff]
  | sum l r ihl ihr => rw [rename, derivative, derivative, ihl, ihr, rename_add]
  | product l r ihl ihr =>
      rw [rename, derivative, derivative, ihl, ihr, rename_add, rename_mul, rename_mul]

theorem partials_rename (e : Expr α) :
    (e.rename f).partials = (e.partials.rename f).map fun _ d => d.rename f := by
  rw [partials, partials, variableSet_rename,
    Bindings.map_rename (g := fun x _ => (e.derivative x).rename f),
    Bindings.map_rename (g := fun _ d => d.rename f)]
  · simp [Bindings.map, Function.comp_def]
  · intro _ _
    rfl
  · intro x _
    exact derivative_rename f x e

end

end Expr

namespace Objective

variable [Zero α] [One α] [Add α] [Mul α] [BEq α]

/-- **The gradient has the same components, under the new names**, and where there is none, the
error is the same but for the name. -/
theorem gradient_rename (f : Renaming) (e : Expr α) (p : Point α) :
    (ofExpr (e.rename f)).gradient (p.rename f) =
      (((ofExpr e).gradient p).mapError (EvalError.rename f)).map (Bindings.rename f) := by
  show (e.rename f).partials.traverse _ = _
  rw [Expr.partials_rename, Bindings.traverse_map]
  exact Bindings.traverse_rename e.partials fun _ d => Expr.eval_rename f d p

end Objective

end Downhill
