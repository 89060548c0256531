/-
Where a solve can fail to evaluate something.

A solve evaluates its objective at the start, then at every point the gradient and at every
candidate the cost, and gives up at the first failure.  But all points and all candidates
bind the names that the start binds, and a partial derivative mentions no variable that the
expression does not.  So an evaluation fails at the start or not at all, before anything
was shown to the observer, and the error names the leftmost variable of the expression that
the start leaves unbound (`solve_evaluates`).
-/
import Downhill.Proofs.Descent.Bookkeeping
import Downhill.Proofs.Expr.Variables

namespace Downhill

namespace Descent

variable {α σ : Type} [Zero α] [One α] [Add α] [Sub α] [Mul α] [Neg α] [Div α] [BEq α]
  [LT α] [LE α] [Magnitude α]

section

variable {objective : Objective α} {p : Point α} {cost : α} (h : objective.cost p = .ok cost)
include h

omit [Sub α] in
/-- Where there is a cost, every candidate has one. -/
theorem exists_cost_candidate (search : LineSearch α) (gradient : Point α) (j : Nat) :
    ∃ c, objective.cost (candidate search p gradient j) = .ok c :=
  Objective.exists_cost_of_keys_eq h (keys_candidate search p gradient j)

variable [DecidableLT α] [DecidableLE α]

/-- Where there is a cost, no turn fails to evaluate something. -/
theorem outcome_ne_eval (config : Config α) (err : EvalError) :
    outcome objective config p cost ≠ .error (.eval err) := by
  intro failed
  have ways := turns_outcome objective config p cost
  rw [failed] at ways
  cases ways with
  | noGradient not_root gradient_eq =>
      obtain ⟨gradient, exists_eq⟩ := Objective.exists_gradient h
      rw [gradient_eq] at exists_eq
      cases exists_eq
  | @noCost gradient _ j searches cost_eq =>
      obtain ⟨c, exists_eq⟩ := exists_cost_candidate h config.lineSearch gradient j
      rw [cost_eq] at exists_eq
      cases exists_eq

end

variable [DecidableLT α] [DecidableLE α]

/-- **A course does not end because an evaluation fails.** -/
theorem ending_ne_eval {objective : Objective α} (config : Config α) (n : Nat) {p : Point α}
    {cost : α} (h : objective.cost p = .ok cost) (err : EvalError) :
    (course objective config n p cost).ending ≠ .error (.eval err) := by
  intro ends
  fun_induction course objective config n p cost with
  | case1 p cost => cases ends
  | case2 n p cost e failed =>
      cases ends
      exact outcome_ne_eval h config err failed
  | case3 n p cost status halted => cases ends
  | case4 n p cost c stepped ih => exact ih (noted_of_outcome stepped).cost_eq ends

/-- Once the start has a cost, the rest of the solve evaluates. -/
theorem solve_ne_eval {objective : Objective α} {start : Point α} {cost : α}
    (h : objective.cost start = .ok cost) (config : Config α) (observer : Observer (Event α) σ)
    (state : σ) (log : Log α) (err : EvalError) :
    (solve objective start config observer state log).result ≠ .error (.eval err) := by
  rw [(solve_of_cost config h observer state log).1, ne_eq, Course.result_eq_error_iff,
    Course.under]
  rcases observer.firstStop? state _ with _ | k
  · exact ending_ne_eval config config.maxIters h err
  · intro failed
    cases failed

theorem solve_eq_eval_iff (objective : Objective α) (start : Point α) (config : Config α)
    (observer : Observer (Event α) σ) (state : σ) (log : Log α) (err : EvalError) :
    (solve objective start config observer state log).result = .error (.eval err) ↔
      objective.cost start = .error err := by
  constructor
  · intro failed
    rcases h : objective.cost start with e | cost
    · rw [solve_of_error config h] at failed
      cases failed
      rfl
    · exact absurd failed (solve_ne_eval h config observer state log err)
  · intro h
    rw [solve_of_error config h]

/-- **Evaluation fails at the start or not at all.** -/
theorem solve_evaluates (objective : Objective α) (start : Point α) (config : Config α)
    (observer : Observer (Event α) σ) (state : σ) (log : Log α) :
    ((∃ err, (solve objective start config observer state log).result = .error (.eval err)) ↔
      ∃ name ∈ objective.expr.variableNames, name ∉ start.keys) ∧
    (∀ name, (solve objective start config observer state log).result =
        .error (.eval (.unbound name)) ↔
      start.firstUnbound? objective.expr.occurrences = some name) ∧
    (∀ err, (solve objective start config observer state log).result = .error (.eval err) →
      (solve objective start config observer state log).observer = state ∧
        shown objective start config observer state log = []) ∧
    (∀ cost, objective.cost start = .ok cost →
      (∀ err, (solve objective start config observer state log).result ≠ .error (.eval err)) ∧
        ∀ e ∈ shown objective start config observer state log,
          ∃ gradient, objective.gradient e.point = .ok gradient ∧
            ∀ j, ∃ c, objective.cost (candidate config.lineSearch e.point gradient j) = .ok c) := by
  refine ⟨?_, ?_, ?_, ?_⟩
  · simp only [solve_eq_eval_iff, Expr.mem_variableNames]
    exact Expr.exists_eval_eq_error_iff
  · intro name
    rw [solve_eq_eval_iff]
    exact Expr.eval_eq_error_iff
  · intro err failed
    have h := (solve_eq_eval_iff objective start config observer state log err).mp failed
    rw [shown_of_error h, solve_of_error config h]
    exact ⟨rfl, rfl⟩
  · intro cost h
    refine ⟨solve_ne_eval h config observer state log, ?_⟩
    intro e mem
    have cost_eq := (noted_of_mem_shown mem).1
    obtain ⟨gradient, gradient_eq⟩ := Objective.exists_gradient cost_eq
    exact ⟨gradient, gradient_eq, exists_cost_candidate cost_eq config.lineSearch gradient⟩

/-- A start that binds one of the two variables, and a start that binds both. -/
theorem solve_evaluates_bowl :
    ((solve bowl (.ofList [("x", 1)]) .standard Observer.silent () .silent).result =
        .error (.eval (.unbound "y")) ∧
      shown bowl (.ofList [("x", 1)]) .standard Observer.silent () .silent = []) ∧
    ∃ cost, bowl.cost slopePoint = .ok cost ∧
      ∃ e ∈ shown bowl slopePoint .standard Observer.silent () .silent, e.step = 2 ∧
        ∃ gradient, bowl.gradient e.point = .ok gradient ∧
          ∀ j, ∃ c, bowl.cost (candidate .standard e.point gradient j) = .ok c := by
  have missing : Point.firstUnbound? (.ofList [("x", (1 : Float))]) bowl.expr.occurrences =
      some "y" := by decide +kernel
  have has_cost : (bowl.cost slopePoint).toOption.any (fun _ => true) = true := by decide +kernel
  have second : (shown bowl slopePoint .standard Observer.silent () .silent).any
      (fun e => e.step == 2) = true := by decide +kernel
  obtain ⟨-, names, untouched, -⟩ := solve_evaluates bowl (.ofList [("x", 1)]) .standard
    Observer.silent () .silent
  obtain ⟨-, -, -, later⟩ := solve_evaluates bowl slopePoint .standard Observer.silent () .silent
  have failed := (names "y").mpr missing
  obtain ⟨cost, cost_eq, -⟩ := exists_ok_of_any has_cost
  obtain ⟨e, mem, two⟩ := List.any_eq_true.mp second
  exact ⟨⟨failed, (untouched _ failed).2⟩, cost, cost_eq, e, mem, eq_of_beq two,
    (later cost cost_eq).2 e mem⟩

end Descent

end Downhill
