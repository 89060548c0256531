/-
Names that an objective does not mention.

A start may bind more names than the objective has variables.  Such a name gets no partial
derivative, so the direction has no component for it, but it takes part in the descent all the
same: its coordinate moves by a multiple of zero at every step, and it counts when a candidate
is tested for being finite.

Neither has an effect, as long as the values are finite.  Such a coordinate stays equal to what
it was (`candidate_idle`), so it is finite at every candidate.  Two descents whose starts
agree on the variables of the objective go side by side, step by step, whatever else the starts
bind (`course_sideBySide`, `solveUnobserved_inert`).
-/
import Downhill.Proofs.Descent.Decrease

namespace Downhill

open Binary64

namespace Binary64

/-- To add a multiple of zero changes nothing but perhaps the sign of a zero. -/
theorem add_mul_zero {x s : Float} (hx : x.isFinite = true) (hs : s.isFinite = true) :
    (x + s * Zero.zero).isFinite = true ∧ (x + s * Zero.zero == x) = true := by
  have product := yields_mul hs isFinite_zero
  have vanishes : value (s * Zero.zero) = 0 := by
    rw [product.value_eq, value_zero, mul_zero, rounded_zero]
  have finite : (s * Zero.zero).isFinite = true :=
    product.finite isFinite_zero (by rw [value_zero, mul_zero, abs_zero])
  have sum := yields_add hx finite
  have stays : value (x + s * Zero.zero) = value x := by
    rw [sum.value_eq, vanishes, add_zero, rounded_value]
  obtain ⟨not_nan, in_range⟩ := isFinite_iff.mp hx
  refine ⟨isFinite_iff.mpr ⟨sum.not_nan, ?_⟩, beq_iff.mpr ⟨sum.not_nan, not_nan, stays⟩⟩
  exact (congrArg abs stays).trans_lt in_range

end Binary64

/-- The second point binds the names that the first one binds outside of some names, and to
equal values. -/
def Point.SteadyOutside (names : List String) (p q : Point Float) : Prop :=
  ∀ name x, name ∉ names → p.get? name = some x → ∃ x', q.get? name = some x' ∧ (x' == x) = true

namespace Descent

/-- What a point binds besides the variables of the objective is finite. -/
def Idle (objective : Objective Float) (p : Point Float) : Prop :=
  ∀ name x, name ∉ objective.expr.variableNames → p.get? name = some x → x.isFinite = true

variable {objective : Objective Float} {config : Config Float} {p q gradient : Point Float}
  {cost : Float}

/-! ### Candidates -/

theorem heading_of_not_mem (gradient_eq : objective.gradient p = .ok gradient) {name : String}
    (idle : name ∉ objective.expr.variableNames) : heading gradient name = Zero.zero := by
  have unbound : gradient.get? name = none := by
    rw [← Objective.keys_gradient gradient_eq] at idle
    rcases found : gradient.get? name with _ | g
    · rfl
    · exact absurd (Bindings.mem_keys_iff.mpr ⟨g, found⟩) idle
  rw [heading, unbound]
  rfl

/-- **A coordinate without a variable stays where it is.** -/
theorem candidate_idle (search : LineSearch Float)
    (gradient_eq : objective.gradient p = .ok gradient) (j : ℕ) {name : String} {x : Float}
    (idle : name ∉ objective.expr.variableNames) (found : p.get? name = some x)
    (finite : x.isFinite = true) :
    ∃ x', (candidate search p gradient j).get? name = some x' ∧ x'.isFinite = true ∧
      (x' == x) = true := by
  have found' := get?_candidate search gradient j found
  rw [heading_of_not_mem gradient_eq idle] at found'
  exact ⟨_, found', add_mul_zero finite (search.stepSize_nonneg j).1⟩

theorem idle_candidate (search : LineSearch Float)
    (gradient_eq : objective.gradient p = .ok gradient) (idle : Idle objective p) (j : ℕ) :
    Idle objective (candidate search p gradient j) := by
  intro name x' not_mem found'
  have bound : name ∈ (candidate search p gradient j).keys := Bindings.mem_keys_iff.mpr ⟨x', found'⟩
  rw [keys_candidate] at bound
  obtain ⟨x, found⟩ := Bindings.mem_keys_iff.mp bound
  obtain ⟨x'', found'', finite, -⟩ :=
    candidate_idle search gradient_eq j not_mem found (idle name x not_mem found)
  obtain rfl := Option.some.inj (found'.symm.trans found'')
  exact finite

/-- **No point is finite for the variables alone.** -/
theorem isFinite_of_agreeOn (agree : p.AgreeOn objective.expr.variableNames q)
    (idle : Idle objective q) (finite : p.isFinite = true) : q.isFinite = true := by
  refine Bindings.all_eq_true_iff.mpr fun name x found => ?_
  by_cases mem : name ∈ objective.expr.variableNames
  · rw [← agree name mem] at found
    exact Bindings.all_eq_true_iff.mp finite name x found
  · exact idle name x mem found

/-! ### Turns -/

/-- Two turns come to the same, for the variables of the objective. -/
inductive SideBySide (names : List String) :
    Except SolveError (Turn Float) → Except SolveError (Turn Float) → Prop where
  | failed (e : SolveError) : SideBySide names (.error e) (.error e)
  | halted (status : Status) : SideBySide names (.ok (.halt status)) (.ok (.halt status))
  | stepped {c c' : Candidate Float} (cost_eq : c.cost = c'.cost)
      (agree : c.point.AgreeOn names c'.point) : SideBySide names (.ok (.step c)) (.ok (.step c'))

section

variable (agree : p.AgreeOn objective.expr.variableNames q)
include agree

theorem agreeOn_candidate (search : LineSearch Float) (gradient : Point Float) (j : ℕ) :
    (candidate search p gradient j).AgreeOn objective.expr.variableNames
      (candidate search q gradient j) := by
  intro name mem
  rw [candidate, candidate, Bindings.get?_map, Bindings.get?_map, agree name mem]

theorem cost_candidate_congr (search : LineSearch Float) (gradient : Point Float) (j : ℕ) :
    objective.cost (candidate search p gradient j) =
      objective.cost (candidate search q gradient j) :=
  Objective.cost_congr (agreeOn_candidate agree search gradient j)

theorem Searches.congr (searches : Searches objective config p cost gradient) :
    Searches objective config q cost gradient := by
  obtain ⟨not_root, gradient_eq, not_stationary, absSum_ne_zero⟩ := searches
  exact ⟨not_root, (Objective.gradient_congr agree).symm.trans gradient_eq, not_stationary,
    absSum_ne_zero⟩

theorem insufficient_congr (search : LineSearch Float) (j : ℕ) :
    Insufficient objective search p cost gradient j ↔
      Insufficient objective search q cost gradient j := by
  rw [Insufficient, Insufficient, cost_candidate_congr agree]

theorem FirstSufficient.congr {search : LineSearch Float} {j : ℕ}
    (first : FirstSufficient objective search p cost gradient j) :
    FirstSufficient objective search q cost gradient j := by
  refine ⟨first.one_le, first.le_maxShrinks, ?_, ?_⟩
  · simpa only [Sufficient, cost_candidate_congr agree] using first.sufficient
  · intro i one_le before
    exact (insufficient_congr agree search i).mp (first.earlier i one_le before)

/-- **What one turn does, the other can do.** -/
theorem Turns.exists_sideBySide (idle : Idle objective p) (idle' : Idle objective q)
    {r : Except SolveError (Turn Float)} (turns : Turns objective config p cost r) :
    ∃ r', Turns objective config q cost r' ∧ SideBySide objective.expr.variableNames r r' := by
  have gradient_eq := Objective.gradient_congr agree
  cases turns with
  | root small => exact ⟨_, .root small, .halted _⟩
  | noGradient not_root failed =>
      exact ⟨_, .noGradient not_root (gradient_eq.symm.trans failed), .failed _⟩
  | stationary not_root found flat =>
      exact ⟨_, .stationary not_root (gradient_eq.symm.trans found) flat, .halted _⟩
  | degenerate not_root found not_stationary zero =>
      exact ⟨_, .degenerate not_root (gradient_eq.symm.trans found) not_stationary zero, .failed _⟩
  | noCost j searches failed =>
      rw [cost_candidate_congr agree] at failed
      exact ⟨_, .noCost j (searches.congr agree) failed, .failed _⟩
  | stalled searches fails =>
      refine ⟨_, .stalled (searches.congr agree) fun j one_le le => ?_, .halted _⟩
      exact (insufficient_congr agree config.lineSearch j).mp (fails j one_le le)
  | diverged j searches first not_finite =>
      refine ⟨_, .diverged j (searches.congr agree) (first.congr agree) ?_, .halted _⟩
      by_contra finite
      rw [Bool.not_eq_false] at finite
      have finite' := isFinite_of_agreeOn (agreeOn_candidate agree config.lineSearch _ j).symm
        (idle_candidate config.lineSearch searches.gradient_eq idle j) finite
      exact Bool.false_ne_true (not_finite.symm.trans finite')
  | @step g c searches first point_eq cost_eq stepSize_eq finite =>
      have agree' := agreeOn_candidate agree config.lineSearch g c.shrinks
      rw [point_eq] at cost_eq finite
      refine ⟨_, .step (c := { c with point := candidate config.lineSearch q g c.shrinks })
        (searches.congr agree) (first.congr agree) rfl ?_ stepSize_eq ?_, .stepped rfl ?_⟩
      · exact (Objective.cost_congr agree').symm.trans cost_eq
      · exact isFinite_of_agreeOn agree'
          (idle_candidate config.lineSearch (searches.congr agree).gradient_eq idle' _) finite
      · rw [point_eq]
        exact agree'

theorem exists_outcome (idle : Idle objective p) (idle' : Idle objective q) {c : Float}
    (cost_eq : objective.cost p = .ok c) {r : Except SolveError (Turn Float)}
    (comes_to : outcome objective config p cost = r) :
    ∃ r', outcome objective config q cost = r' ∧
      SideBySide objective.expr.variableNames r r' := by
  have turns := turns_outcome objective config p cost
  rw [comes_to] at turns
  obtain ⟨r', turns', same⟩ := turns.exists_sideBySide agree idle idle'
  exact ⟨r', outcome_of_turns ((Objective.cost_congr agree).symm.trans cost_eq) turns', same⟩

end

/-- A step keeps what is not a variable. -/
theorem steady_of_outcome {c : Candidate Float} (idle : Idle objective p)
    (stepped : outcome objective config p cost = .ok (.step c)) :
    Idle objective c.point ∧ p.SteadyOutside objective.expr.variableNames c.point := by
  have ways := turns_outcome objective config p cost
  rw [stepped] at ways
  cases ways with
  | step searches first point_eq _ _ _ =>
      rw [point_eq]
      refine ⟨idle_candidate config.lineSearch searches.gradient_eq idle _, ?_⟩
      intro name x not_mem found
      obtain ⟨x', found', -, equal⟩ := candidate_idle config.lineSearch searches.gradient_eq
        c.shrinks not_mem found (idle name x not_mem found)
      exact ⟨x', found', equal⟩

/-! ### Courses -/

/-- **Two courses go side by side, whatever the points bind besides the variables.** -/
theorem course_sideBySide (n : ℕ) (p : Point Float) (cost : Float) :
    ∀ q : Point Float, objective.cost p = .ok cost →
      p.AgreeOn objective.expr.variableNames q → Idle objective p → Idle objective q →
        (course objective config n p cost).ending = (course objective config n q cost).ending ∧
          List.Forall₂ (fun c c' => c.cost = c'.cost ∧
              c.point.AgreeOn objective.expr.variableNames c'.point)
            (course objective config n p cost).steps (course objective config n q cost).steps := by
  fun_induction course objective config n p cost with
  | case1 p cost =>
      intro q cost_eq agree idle idle'
      exact ⟨rfl, .nil⟩
  | case2 n p cost e failed =>
      intro q cost_eq agree idle idle'
      obtain ⟨r', comes_to, same⟩ := exists_outcome agree idle idle' cost_eq failed
      cases same
      rw [course_of_error comes_to]
      exact ⟨rfl, .nil⟩
  | case3 n p cost status halted =>
      intro q cost_eq agree idle idle'
      obtain ⟨r', comes_to, same⟩ := exists_outcome agree idle idle' cost_eq halted
      cases same
      rw [course_of_halt comes_to]
      exact ⟨rfl, .nil⟩
  | case4 n p cost c stepped ih =>
      intro q cost_eq agree idle idle'
      obtain ⟨r', comes_to, same⟩ := exists_outcome agree idle idle' cost_eq stepped
      cases same with
      | @stepped _ c' costs points =>
          obtain ⟨ending_eq, steps⟩ := ih c'.point (noted_of_outcome stepped).cost_eq points
            (steady_of_outcome idle stepped).1 (steady_of_outcome idle' comes_to).1
          rw [costs] at ending_eq steps
          rw [course_of_step comes_to, costs]
          exact ⟨ending_eq, .cons ⟨costs, points⟩ steps⟩

/-- What is not a variable is kept by a whole course. -/
theorem steady_of_mem_course (n : ℕ) (p : Point Float) (cost : Float) :
    Idle objective p → ∀ c ∈ (course objective config n p cost).steps,
      p.SteadyOutside objective.expr.variableNames c.point := by
  fun_induction course objective config n p cost with
  | case1 | case2 | case3 =>
      intro _ c mem
      cases mem
  | case4 n p cost first stepped ih =>
      intro idle c mem
      obtain ⟨idle_first, steady⟩ := steady_of_outcome idle stepped
      rcases List.mem_cons.mp mem with rfl | later
      · exact steady
      · intro name x not_mem found
        obtain ⟨x', found', equal⟩ := steady name x not_mem found
        obtain ⟨x'', found'', equal'⟩ := ih idle_first c later name x' not_mem found'
        obtain ⟨not_nan'', -, value_eq'⟩ := beq_iff.mp equal'
        obtain ⟨-, not_nan, value_eq⟩ := beq_iff.mp equal
        exact ⟨x'', found'', beq_iff.mpr ⟨not_nan'', not_nan, value_eq'.trans value_eq⟩⟩

/-! ### Solves -/

/-- Every point of a solution binds what is not a variable as the start does. -/
theorem steady_of_mem_trajectory {start : Point Float} {s : Solution Float}
    (idle : Idle objective start) (h : solveUnobserved objective start config = .ok s) :
    ∀ p ∈ s.trajectory.toList, start.SteadyOutside objective.expr.variableNames p := by
  obtain ⟨cost, cost_eq⟩ := cost_of_solve h
  rw [solveUnobserved_of_cost config cost_eq, Course.result_eq_ok_iff] at h
  obtain ⟨status, -, rfl⟩ := h
  rw [Solution.toList_walk]
  intro p mem
  rcases List.mem_cons.mp mem with rfl | later
  · intro name x not_mem found
    have not_nan := (isFinite_iff.mp (idle name x not_mem found)).1
    exact ⟨x, found, beq_iff.mpr ⟨not_nan, not_nan, rfl⟩⟩
  · obtain ⟨c, taken, rfl⟩ := List.mem_map.mp later
    exact steady_of_mem_course _ _ _ idle c taken

/-- **What the objective does not mention has no effect.** -/
theorem solveUnobserved_inert (objective : Objective Float) (config : Config Float)
    (start start' : Point Float) (agree : start.AgreeOn objective.expr.variableNames start')
    (idle : Idle objective start) (idle' : Idle objective start') :
    ((∃ e, solveUnobserved objective start config = .error e ∧
        solveUnobserved objective start' config = .error e) ∨
      ∃ s s', solveUnobserved objective start config = .ok s ∧
        solveUnobserved objective start' config = .ok s' ∧
        s.status = s'.status ∧ s.cost = s'.cost ∧ s.iters = s'.iters ∧
        List.Forall₂ (Point.AgreeOn objective.expr.variableNames) s.trajectory.toList
          s'.trajectory.toList) ∧
    (∀ s, solveUnobserved objective start config = .ok s →
      ∀ p ∈ s.trajectory.toList, start.SteadyOutside objective.expr.variableNames p) ∧
    ∀ s', solveUnobserved objective start' config = .ok s' →
      ∀ p ∈ s'.trajectory.toList, start'.SteadyOutside objective.expr.variableNames p := by
  refine ⟨?_, fun s h => steady_of_mem_trajectory idle h,
    fun s' h => steady_of_mem_trajectory idle' h⟩
  have same_cost := Objective.cost_congr agree
  rcases cost_eq : objective.cost start with e | cost
  · refine .inl ⟨.eval e, ?_, ?_⟩
    · rw [solveUnobserved, solve_of_error config cost_eq]
    · rw [solveUnobserved, solve_of_error config (same_cost.symm.trans cost_eq)]
  rw [solveUnobserved_of_cost config cost_eq,
    solveUnobserved_of_cost config (same_cost.symm.trans cost_eq)]
  obtain ⟨ending_eq, steps⟩ := course_sideBySide config.maxIters start cost start' cost_eq agree
    idle idle'
  generalize course objective config config.maxIters start cost = K at ending_eq steps ⊢
  generalize course objective config config.maxIters start' cost = L at ending_eq steps ⊢
  rcases ends : K.ending with e | status
  · refine .inl ⟨e, ?_, ?_⟩
    · exact Course.result_eq_error_iff.mpr ends
    · exact Course.result_eq_error_iff.mpr (ending_eq.symm.trans ends)
  have costs : K.steps.map Candidate.cost = L.steps.map Candidate.cost :=
    List.forall₂_eq_eq_eq ▸ List.forall₂_map_left_iff.mpr
      (List.forall₂_map_right_iff.mpr (steps.imp fun _ _ both => both.1))
  refine .inr ⟨_, _, Course.result_eq_ok_iff.mpr ⟨status, ends, rfl⟩,
    Course.result_eq_ok_iff.mpr ⟨status, ending_eq.symm.trans ends, rfl⟩, ?_, ?_, ?_, ?_⟩
  · rw [Solution.status_walk, Solution.status_walk]
    rfl
  · rw [Solution.cost_walk, Solution.cost_walk, costs]
    rfl
  · rw [Solution.iters_walk, Solution.iters_walk, steps.length_eq]
    rfl
  · rw [Solution.toList_walk, Solution.toList_walk]
    refine .cons agree ?_
    exact List.forall₂_map_left_iff.mpr
      (List.forall₂_map_right_iff.mpr (steps.imp fun _ _ both => both.2))

/-- The slope of the bowl with a coordinate that the bowl does not have, and with another one. -/
theorem solveUnobserved_inert_bowl :
    let p : Point Float := .ofList [("x", 1), ("y", 2), ("z", 7)]
    let q : Point Float := .ofList [("a", -0.0), ("x", 1), ("y", 2)]
    p.AgreeOn bowl.expr.variableNames q ∧ Idle bowl p ∧ Idle bowl q ∧ "z" ∈ p.keys ∧ "z" ∉ q.keys ∧
      ∃ s s', solveUnobserved bowl p .standard = .ok s ∧ solveUnobserved bowl q .standard = .ok s' ∧
        s.iters = 3 ∧ s'.iters = 3 ∧ s.cost = s'.cost ∧
        List.Forall₂ (Point.AgreeOn bowl.expr.variableNames) s.trajectory.toList
          s'.trajectory.toList ∧
        ∀ r ∈ s.trajectory.toList, p.SteadyOutside bowl.expr.variableNames r := by
  intro p q
  have agree : p.AgreeOn bowl.expr.variableNames q := by
    unfold Point.AgreeOn
    decide +kernel
  have finite_p : p.isFinite = true := by decide +kernel
  have finite_q : q.isFinite = true := by decide +kernel
  have idle : Idle bowl p :=
    fun name x _ found => Bindings.all_eq_true_iff.mp finite_p name x found
  have idle' : Idle bowl q :=
    fun name x _ found => Bindings.all_eq_true_iff.mp finite_q name x found
  have solved : (solveUnobserved bowl p .standard).toOption.any (·.iters == 3) = true := by
    decide +kernel
  obtain ⟨s, hs, three⟩ := exists_ok_of_any solved
  obtain ⟨same, steady, -⟩ := solveUnobserved_inert bowl .standard p q agree idle idle'
  rcases same with ⟨e, failed, -⟩ | ⟨t, t', ht, ht', -, cost_eq, iters_eq, points⟩
  · cases hs.symm.trans failed
  · cases hs.symm.trans ht
    exact ⟨agree, idle, idle', by decide +kernel, by decide +kernel, s, t', hs, ht',
      eq_of_beq three, iters_eq.symm.trans (eq_of_beq three), cost_eq, points, steady s hs⟩

end Descent

end Downhill
