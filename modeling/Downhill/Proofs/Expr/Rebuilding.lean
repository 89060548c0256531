/-
Building a tree anew.

Every tree can be built a second time, from the leaves up, with the operators in the place of
its nodes (`rebuild`).  What comes out is normal, whatever the tree was, and a normal tree comes
out as it went in, because no operator finds anything to simplify.  So the normal trees are
exactly the ones that stay the same (`rebuild_eq_iff`), and to rebuild twice is to rebuild once.

Among the trees that stay the same is everything that the operators can make: it was built like
this in the first place.
-/
import Downhill.Proofs.Expr.NormalForm

namespace Downhill

namespace Expr

section

variable {α : Type} [Zero α] [One α] [Add α] [Mul α] [BEq α] {e : Expr α}

/-- The tree built anew, from the leaves up, with the operators. -/
def rebuild : Expr α → Expr α
  | const c => const c
  | var name => var name
  | sum l r => l.rebuild + r.rebuild
  | product l r => l.rebuild * r.rebuild

/-- **A rebuilt tree is normal**, whatever it was before. -/
theorem normal_rebuild (e : Expr α) : Normal e.rebuild := by
  induction e with
  | const c => exact .const c
  | var name => exact .var name
  | sum l r ihl ihr => exact ihl.add ihr
  | product l r ihl ihr => exact ihl.mul ihr

/-- A normal tree comes out as it went in. -/
theorem Normal.rebuild_eq (normal : Normal e) : e.rebuild = e := by
  induction normal with
  | const c => rfl
  | var name => rfl
  | sum _ _ left_ne right_ne open_terms ihl ihr =>
      rw [rebuild, ihl, ihr, add_eq_sum left_ne right_ne open_terms]
  | product _ _ left_ne right_ne left_ne_one right_ne_one open_factors ihl ihr =>
      rw [rebuild, ihl, ihr,
        mul_eq_product left_ne right_ne left_ne_one right_ne_one open_factors]

/-- **The normal trees are the ones that rebuilding leaves alone.** -/
theorem rebuild_eq_iff : e.rebuild = e ↔ Normal e := by
  refine ⟨?_, Normal.rebuild_eq⟩
  intro same
  rw [← same]
  exact normal_rebuild e

end

/-- **Rebuilding brings every tree into normal form, and leaves alone what the operators made.** -/
theorem rebuild_normalizes :
    (∀ e : Expr Float, Constructed e →
      (∀ node ∈ e.nodes, node.isSimplifiable = false) ∧ e.rebuild = e) ∧
    ∀ e : Expr Float, (∀ node ∈ e.rebuild.nodes, node.isSimplifiable = false) ∧
      e.rebuild.rebuild = e.rebuild := by
  constructor
  · intro e made
    exact ⟨normal_iff.mp made.normal, rebuild_eq_iff.mpr made.normal⟩
  · intro e
    exact ⟨normal_iff.mp (normal_rebuild e), rebuild_eq_iff.mpr (normal_rebuild e)⟩

/-- The slope of a square has the residual times minus one for its second term, and when that is
negated, the factor goes.  A bare factor that comes to one goes when the tree is rebuilt. -/
theorem rebuild_normalizes_slope :
    let residual : Expr Float := Recipe.detour.build
    let term : Expr Float := .product (.const (-1)) residual
    let bare : Expr Float := .product (.sum (.const 2) (.const (-1))) (.var "x")
    (((sumOfSquares [residual]).derivative "x").augend = .ok term ∧ -term = residual) ∧
    (Constructed (-term) ∧ (∀ node ∈ (-term).nodes, node.isSimplifiable = false) ∧
      (-term).rebuild = -term) ∧
    (bare.isSimplifiable = false ∧ ¬ Normal bare) ∧
    bare.rebuild = .var "x" ∧ bare.rebuild.rebuild = bare.rebuild := by
  intro residual term bare
  have second : ((sumOfSquares [residual]).derivative "x").augend = .ok term := rfl
  have square : Constructed (sumOfSquares [residual]) :=
    .sumOfSquares (List.forall_mem_singleton.mpr Recipe.detour.constructed)
  have made : Constructed (-term) :=
    .negation (.operand (square.derivative "x") (.inr (.inl second)))
  obtain ⟨of_constructed, of_bare⟩ := rebuild_normalizes
  exact ⟨⟨second, rfl⟩, ⟨made, of_constructed (-term) made⟩, ⟨rfl, by decide +kernel⟩, rfl,
    (of_bare bare).2⟩

end Expr

end Downhill
