/-
Steps that lead nowhere.

In floating point a step can leave every coordinate where it is: because it is too short to
change them, because shrinking has made its size vanish, or because the sum of the partial
derivatives has overflowed, which makes every component of the direction zero.  The cost does
not change then, and the search should go on until it stalls.  But any decrease is enough
when none is asked, and what is asked of a step may have vanished, too.

`sufficient_iff_of_standstill` says when a candidate that stays in place will do: exactly if
what is asked of it is zero, or if the cost is not finite.  Everywhere else consecutive points
differ.  A step that leads back to the same point is taken again and again until no steps
remain, because a turn depends on nothing but the point and its cost (`course_of_standstill`).
Both are put together in `solve_standstill`, and `plane_stands_still` is a solve that ends so.
-/
import Downhill.Proofs.Descent.Decrease
import Downhill.Proofs.Float.Zeros

namespace Downhill

open Binary64

/-- The coordinates of the second point equal those of the first. -/
def Point.Standstill (p q : Point Float) : Prop :=
  ∀ name x x', p.get? name = some x → q.get? name = some x' → (x == x') = true

/-- A finite point is in its own place; NaN would not be. -/
theorem Point.standstill_refl {p : Point Float} (finite : p.isFinite = true) : p.Standstill p := by
  intro name x x' found found'
  obtain rfl := Option.some.inj (found.symm.trans found')
  have number := Point.not_nan_of_get? finite found
  exact beq_iff.mpr ⟨number, number, rfl⟩

namespace Descent

variable {σ : Type}

/-! ### Candidates in place -/

section

variable {objective : Objective Float} {config : Config Float} {p gradient : Point Float}
  {cost : Float} {j : Nat}

section

variable {search : LineSearch Float} (cost_eq : objective.cost p = .ok cost)
  (stays : p.Standstill (candidate search p gradient j))
include cost_eq stays

/-- A candidate that stays in place has the same cost, up to the sign of a zero. -/
theorem exists_cost_alike :
    ∃ c, objective.cost (candidate search p gradient j) = .ok c ∧ Alike cost c := by
  refine Expr.exists_eval_alike ?_ cost_eq
  intro name x found
  have found' := get?_candidate search gradient j found
  exact ⟨_, found', alike_of_beq (stays name x _ found found')⟩

/-- A candidate that stays in place lies in a direction without NaN. -/
theorem heading_not_nan_of_standstill (gradient_eq : objective.gradient p = .ok gradient) :
    ∀ name ∈ gradient.keys, (heading gradient name).isNaN = false := by
  have numbers : ∀ name x', (candidate search p gradient j).get? name = some x' →
      x'.isNaN = false := by
    intro name x' found'
    have bound : name ∈ (candidate search p gradient j).keys :=
      Bindings.mem_keys_iff.mpr ⟨x', found'⟩
    rw [keys_candidate] at bound
    obtain ⟨x, found⟩ := Bindings.mem_keys_iff.mp bound
    exact (beq_iff.mp (stays name x x' found found')).2.1
  exact heading_not_nan cost_eq gradient_eq numbers

end

/-- **A candidate that stays in place will do exactly if nothing is asked of it**, or if the
cost is not finite. -/
theorem sufficient_iff_of_standstill (cost_eq : objective.cost p = .ok cost)
    (searches : Searches objective config p cost gradient)
    (stays : p.Standstill (candidate config.lineSearch p gradient j)) :
    Sufficient objective config.lineSearch p cost gradient j ↔
      ¬ cost.isFinite = true ∨
        (config.lineSearch.stepSize j * asked config.lineSearch gradient == 0) = true := by
  obtain ⟨c, candidate_cost, alike⟩ := exists_cost_alike cost_eq stays
  obtain ⟨number, nonneg⟩ := threshold_nonneg config.lineSearch j searches.absSum_ne_zero
    (heading_not_nan_of_standstill cost_eq stays searches.gradient_eq)
  have sufficient_iff : Sufficient objective config.lineSearch p cost gradient j ↔
      ¬ cost - c < config.lineSearch.stepSize j * asked config.lineSearch gradient := by
    constructor
    · rintro ⟨c', cost_eq', not_less⟩
      obtain rfl := Except.ok.inj (candidate_cost.symm.trans cost_eq')
      exact not_less
    · intro not_less
      exact ⟨c, candidate_cost, not_less⟩
  rw [sufficient_iff]
  generalize config.lineSearch.stepSize j * asked config.lineSearch gradient = threshold at *
  have zero_iff : (threshold == 0) = true ↔ value threshold = 0 := by
    constructor
    · intro equal
      exact (beq_iff.mp equal).2.2.trans value_zero
    · intro zero
      exact beq_iff.mpr ⟨number, rfl, zero.trans value_zero.symm⟩
  by_cases finite : cost.isFinite = true
  · obtain ⟨number_sub, vanishes⟩ := alike.sub_of_finite finite
    have less_iff : cost - c < threshold ↔ 0 < value threshold := by
      rw [lt_iff, vanishes]
      exact ⟨fun h => h.2.2, fun h => ⟨number_sub, number, h⟩⟩
    rw [less_iff, not_lt, or_iff_right (not_not_intro finite), zero_iff]
    exact ⟨fun nonpos => le_antisymm nonpos nonneg, le_of_eq⟩
  · exact iff_of_true (not_lt_of_isNaN (alike.isNaN_sub finite)) (.inl finite)

/-- Consecutive events in one place: the cost was not finite, or nothing was asked. -/
theorem Successor.of_standstill {e e' : Event Float}
    (h : Successor objective config e e' gradient j)
    (cost_eq : objective.cost e.point = .ok e.cost) (stays : e.point.Standstill e'.point) :
    ¬ e.cost.isFinite = true ∨
      (config.lineSearch.stepSize j * asked config.lineSearch gradient == 0) = true := by
  rw [h.point_eq] at stays
  exact (sufficient_iff_of_standstill cost_eq h.searches stays).mp h.first.sufficient

end

/-! ### Going on in place -/

section

variable {objective : Objective Float} {config : Config Float} {p : Point Float} {cost : Float}
  {c : Candidate Float} (cost_eq : objective.cost p = .ok cost)
  (stepped : outcome objective config p cost = .ok (.step c)) (same : c.point = p)
include cost_eq stepped same

/-- **A step back to the same point is repeated until no steps remain.** -/
theorem course_of_standstill (n : Nat) :
    course objective config n p cost = ⟨List.replicate n c, .ok .maxIters⟩ := by
  have same_cost : c.cost = cost := by
    have noted := (noted_of_outcome stepped).cost_eq
    rw [same, cost_eq] at noted
    exact (Except.ok.inj noted).symm
  induction n with
  | zero =>
      have not_root : isRoot config cost = false := by
        by_contra root
        rw [Bool.not_eq_false] at root
        rw [outcome, turn_of_root objective 0 p .silent root] at stepped
        cases stepped
      rw [course, not_root]
      rfl
  | succ n ih =>
      rw [course_of_step stepped, same, same_cost, ih]
      rfl

theorem solveUnobserved_of_standstill :
    ∃ s, solveUnobserved objective p config = .ok s ∧ s.status = .maxIters ∧
      s.iters = config.maxIters ∧
      s.trajectory.toList = List.replicate (config.maxIters + 1) p := by
  refine ⟨(Solution.startingAt p cost .maxIters).walk (List.replicate config.maxIters c), ?_,
    Solution.status_walk _ _, ?_, ?_⟩
  · rw [solveUnobserved_of_cost config cost_eq, course_of_standstill cost_eq stepped same]
    rfl
  · rw [Solution.iters_walk, List.length_replicate]
    exact Nat.zero_add _
  · rw [Solution.toList_walk, List.map_replicate, same, List.replicate_succ]
    rfl

end

/-- **Where a solve stands still.**  Consecutive points differ unless the cost was not finite
or nothing was asked of the step; a candidate that stays in place will do exactly then.  A step
back to the same point is repeated until no steps remain. -/
theorem solve_standstill (objective : Objective Float) (config : Config Float) :
    (∀ (start : Point Float) (observer : Observer (Event Float) σ) (state : σ) (log : Log Float)
        (k : Nat) (e e' : Event Float),
      (shown objective start config observer state log)[k]? = some e →
      (shown objective start config observer state log)[k + 1]? = some e' →
      (∃ name x x', e.point.get? name = some x ∧ e'.point.get? name = some x' ∧
          (x == x') = false) ∨
        ¬ e.cost.isFinite = true ∨
        ∃ gradient j, Successor objective config e e' gradient j ∧
          (config.lineSearch.stepSize j * asked config.lineSearch gradient == 0) = true) ∧
    (∀ (p : Point Float) (cost : Float) (gradient : Point Float) (j : Nat),
      objective.cost p = .ok cost → Searches objective config p cost gradient →
      p.Standstill (candidate config.lineSearch p gradient j) →
      (Sufficient objective config.lineSearch p cost gradient j ↔
        ¬ cost.isFinite = true ∨
          (config.lineSearch.stepSize j * asked config.lineSearch gradient == 0) = true)) ∧
    ∀ (start : Point Float) (cost : Float) (c : Candidate Float),
      objective.cost start = .ok cost → outcome objective config start cost = .ok (.step c) →
      c.point = start →
      ∃ s, solveUnobserved objective start config = .ok s ∧ s.status = .maxIters ∧
        s.iters = config.maxIters ∧
        s.trajectory.toList = List.replicate (config.maxIters + 1) start := by
  refine ⟨?_, ?_, ?_⟩
  · intro start observer state log k e e' here next
    obtain ⟨gradient, j, successor⟩ := (follows_of_getElem? here next).successor
    by_cases stays : e.point.Standstill e'.point
    · have cost_eq := (noted_of_mem_shown (List.mem_of_getElem? here)).1
      rcases successor.of_standstill cost_eq stays with infinite | zero
      · exact .inr (.inl infinite)
      · exact .inr (.inr ⟨gradient, j, successor, zero⟩)
    · rw [Point.Standstill] at stays
      push Not at stays
      obtain ⟨name, x, x', found, found', moves⟩ := stays
      exact .inl ⟨name, x, x', found, found', Bool.not_eq_true _ ▸ moves⟩
  · intro p cost gradient j cost_eq searches stays
    exact sufficient_iff_of_standstill cost_eq searches stays
  · intro start cost c cost_eq stepped same
    exact solveUnobserved_of_standstill cost_eq stepped same

/-! ### A plane so steep that the sum of its partial derivatives overflows -/

/-- The plane that the equation `1e154 * x + 1e154 * y = 0` squares to. -/
def steepPlane : Objective Float :=
  .ofEquations [.const 1e154 * .var "x" + .const 1e154 * .var "y"]

/-- A point where each partial derivative is finite, but not their sum. -/
def quarterPoint : Point Float := .ofList [("x", 0.25), ("y", 0.25)]

/-- Three steps are taken and none of them leads anywhere. -/
theorem plane_stands_still :
    quarterPoint.isFinite = true ∧
      ∃ s, solveUnobserved steepPlane quarterPoint (Config.standard.withMaxIters 3) = .ok s ∧
        s.status = .maxIters ∧ s.iters = 3 ∧
        s.trajectory.segments.all (fun segment => segment.1 == segment.2) = true := by
  have finite : quarterPoint.isFinite = true := by decide +kernel
  have solved : (solveUnobserved steepPlane quarterPoint
      (Config.standard.withMaxIters 3)).toOption.any (fun s => s.status == .maxIters &&
        s.iters == 3 && s.trajectory.segments.all fun segment => segment.1 == segment.2) =
      true := by decide +kernel
  obtain ⟨s, hs, seen⟩ := exists_ok_of_any solved
  simp only [Bool.and_eq_true, beq_iff_eq] at seen
  obtain ⟨⟨status_eq, iters_eq⟩, stays⟩ := seen
  exact ⟨finite, s, hs, status_eq, iters_eq, stays⟩

/-- The turn at the point takes a step, which leads back to it. -/
theorem exists_step_plane :
    ∃ cost c, steepPlane.cost quarterPoint = .ok cost ∧
      outcome steepPlane .standard quarterPoint cost = .ok (.step c) ∧ c.point = quarterPoint := by
  have has_cost : (steepPlane.cost quarterPoint).toOption.any (fun cost =>
      (outcome steepPlane .standard quarterPoint cost).toOption.any fun result =>
        match result with
        | .step c => decide (c.point.toList = quarterPoint.toList)
        | .halt _ => false) = true := by decide +kernel
  obtain ⟨cost, cost_eq, turns⟩ := exists_ok_of_any has_cost
  obtain ⟨result, stepped, stays⟩ := exists_ok_of_any turns
  cases result with
  | halt status => cases stays
  | step c =>
      refine ⟨cost, c, cost_eq, stepped, Bindings.ext_get? fun name => ?_⟩
      rw [Bindings.get?, of_decide_eq_true stays, Bindings.get?]

/-- A thousand steps in place on the plane, and a step into the bowl. -/
theorem solve_standstill_plane :
    (∃ cost c gradient j, steepPlane.cost quarterPoint = .ok cost ∧
      outcome steepPlane .standard quarterPoint cost = .ok (.step c) ∧ c.point = quarterPoint ∧
      Searches steepPlane .standard quarterPoint cost gradient ∧
      quarterPoint.Standstill (candidate LineSearch.standard quarterPoint gradient j) ∧
      (¬ cost.isFinite = true ∨
        (LineSearch.standard.stepSize j * asked LineSearch.standard gradient == 0) = true) ∧
      ∃ s, solveUnobserved steepPlane quarterPoint .standard = .ok s ∧ s.status = .maxIters ∧
        s.iters = 1000 ∧ s.trajectory.toList = List.replicate 1001 quarterPoint) ∧
    ∃ e e', (events bowl slopePoint .standard)[0]? = some e ∧
      (events bowl slopePoint .standard)[1]? = some e' ∧
      ((∃ name x x', e.point.get? name = some x ∧ e'.point.get? name = some x' ∧
          (x == x') = false) ∨
        ¬ e.cost.isFinite = true ∨
        ∃ gradient j, Successor bowl .standard e e' gradient j ∧
          (LineSearch.standard.stepSize j * asked LineSearch.standard gradient == 0) = true) := by
  refine ⟨?_, ?_⟩
  · obtain ⟨cost, c, cost_eq, stepped, same⟩ := exists_step_plane
    have follows : Follows steepPlane .standard ⟨0, quarterPoint, cost⟩
        (Event.next ⟨0, quarterPoint, cost⟩ c) := ⟨c, stepped, rfl⟩
    obtain ⟨gradient, j, successor⟩ := follows.successor
    have stays :
        quarterPoint.Standstill (candidate LineSearch.standard quarterPoint gradient j) := by
      have point_eq : c.point = candidate LineSearch.standard quarterPoint gradient j :=
        successor.point_eq
      rw [← point_eq, same]
      exact Point.standstill_refl (by decide +kernel)
    obtain ⟨-, will_do, repeats⟩ := @solve_standstill Unit steepPlane .standard
    exact ⟨cost, c, gradient, j, cost_eq, stepped, same, successor.searches, stays,
      (will_do quarterPoint cost gradient j cost_eq successor.searches stays).mp
        successor.first.sufficient,
      repeats quarterPoint cost c cost_eq stepped same⟩
  · have two : 1 < (events bowl slopePoint .standard).length := by decide +kernel
    have here := List.getElem?_eq_getElem (Nat.lt_of_succ_lt two)
    have next := List.getElem?_eq_getElem two
    obtain ⟨moves, -, -⟩ := solve_standstill bowl .standard
    exact ⟨_, _, here, next, moves slopePoint Observer.silent () .silent 0 _ _ here next⟩

end Descent

end Downhill
