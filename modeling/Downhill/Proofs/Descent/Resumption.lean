/-
Interrupting a descent and resuming it.

A descent remembers nothing but the point where it stands: the cost that it carries is the
cost of that point, the line search begins afresh at every step, and the test after the
last permitted step is the one that the next step would begin with.  So a descent that ran
out of iterations can be taken up again from its last point, and the two parts together are
the descent that had the iterations of both (`solveUnobserved_add`).  A descent that ended
for any other reason has no use for more iterations.

Both are laws of courses, `course_add_of_maxIters` and `course_add_of_ended`, by induction
on the iterations of the first part.
-/
import Downhill.Proofs.Descent.Course
import Downhill.Proofs.Descent.Status

namespace Downhill

namespace Descent

variable {α : Type}

/-- One course after another. -/
def Course.append (K L : Course α) : Course α := ⟨K.steps ++ L.steps, L.ending⟩

theorem Course.result_append (K L : Course α) (s : Status → Solution α) :
    (K.append L).result s = L.result fun status => (s status).walk K.steps := by
  simp only [Course.result, Course.append, Solution.walk_append]

theorem walk_with_status (status : Status) (steps : List (Candidate α)) :
    ∀ s : Solution α, Solution.walk { s with status } steps = { s.walk steps with status } := by
  induction steps with
  | nil => intro s; rfl
  | cons c rest ih => intro s; exact ih (s.step c)

variable [Zero α] [One α] [Add α] [Sub α] [Mul α] [Neg α] [Div α] [BEq α] [LT α] [LE α]
  [DecidableLT α] [DecidableLE α] [Magnitude α]

/-! ### Courses with more iterations -/

section

variable {objective : Objective α} {config : Config α}

theorem outcome_of_root {cost : α} (root : isRoot config cost = true) (p : Point α) :
    outcome objective config p cost = .ok (.halt .converged) :=
  outcome_of_turn (turn_of_root objective 0 p .silent root)

theorem course_of_root {cost : α} (root : isRoot config cost = true) (n : Nat) (p : Point α) :
    course objective config n p cost = ⟨[], .ok .converged⟩ := by
  cases n with
  | zero => simp [course, root]
  | succ n => exact course_of_halt (outcome_of_root root p) n

/-- No turn ends a run for want of iterations. -/
theorem outcome_ne_maxIters (objective : Objective α) (config : Config α) (p : Point α)
    (cost : α) : outcome objective config p cost ≠ .ok (.halt .maxIters) := by
  intro h
  have ways := turns_outcome objective config p cost
  rw [h] at ways
  cases ways

/-- A course that runs out of iterations has used them all. -/
theorem length_steps_of_maxIters (n : Nat) (p : Point α) (cost : α)
    (h : (course objective config n p cost).ending = .ok .maxIters) :
    (course objective config n p cost).steps.length = n := by
  fun_induction course objective config n p cost with
  | case1 p cost => rfl
  | case2 n p cost e failed => cases h
  | case3 n p cost status halted =>
      cases h
      exact absurd halted (outcome_ne_maxIters objective config p cost)
  | case4 n p cost c stepped ih => exact congrArg (· + 1) (ih h)

/-- **A course that ran out of iterations goes on from where it ended.**  The place where it
ended is found by walking its steps, from any solution that stands where it began. -/
theorem course_add_of_maxIters (m n : Nat) (p : Point α) (cost : α)
    (h : (course objective config n p cost).ending = .ok .maxIters) :
    ∀ s : Solution α, s.point = p → s.cost = cost →
      let K := course objective config n p cost
      course objective config (n + m) p cost =
        K.append (course objective config m (s.walk K.steps).point (s.walk K.steps).cost) := by
  fun_induction course objective config n p cost with
  | case1 p cost =>
      rintro s rfl rfl
      rw [Nat.zero_add]
      rfl
  | case2 n p cost e failed => cases h
  | case3 n p cost status halted =>
      cases h
      exact absurd halted (outcome_ne_maxIters objective config p cost)
  | case4 n p cost c stepped ih =>
      rintro s rfl rfl
      rw [Nat.succ_add, course_of_step stepped, ih h (s.step c) (s.point_step c) rfl]
      rfl

/-- **A course that ended for another reason would have ended with more iterations.** -/
theorem course_add_of_ended (m n : Nat) (p : Point α) (cost : α)
    (h : (course objective config n p cost).ending ≠ .ok .maxIters) :
    course objective config (n + m) p cost = course objective config n p cost := by
  fun_induction course objective config n p cost with
  | case1 p cost =>
      have root : isRoot config cost = true := by
        by_contra large
        exact h (by simp [large])
      rw [course_of_root root, if_pos root]
  | case2 n p cost e failed =>
      rw [Nat.succ_add]
      exact course_of_error failed (n + m)
  | case3 n p cost status halted =>
      rw [Nat.succ_add]
      exact course_of_halt halted (n + m)
  | case4 n p cost c stepped ih => rw [Nat.succ_add, course_of_step stepped, ih h]

end

/-! ### Solves with more iterations -/

section

variable {objective : Objective α} {config : Config α} {start : Point α}

/-- What the parameters say about the bound is no part of a turn. -/
theorem outcome_withMaxIters (bound : Nat) (p : Point α) (cost : α) :
    outcome objective (config.withMaxIters bound) p cost = outcome objective config p cost :=
  rfl

theorem course_withMaxIters (bound n : Nat) (p : Point α) (cost : α) :
    course objective (config.withMaxIters bound) n p cost = course objective config n p cost := by
  fun_induction course objective config n p cost with
  | case1 p cost => rfl
  | case2 n p cost e failed =>
      rw [← outcome_withMaxIters bound] at failed
      exact course_of_error failed n
  | case3 n p cost status halted =>
      rw [← outcome_withMaxIters bound] at halted
      exact course_of_halt halted n
  | case4 n p cost c stepped ih =>
      rw [← outcome_withMaxIters bound] at stepped
      rw [course_of_step stepped, ih]

theorem solveUnobserved_withMaxIters {cost : α} (h : objective.cost start = .ok cost) (n : Nat) :
    solveUnobserved objective start (config.withMaxIters n) =
      (course objective config n start cost).result (Solution.startingAt start cost) := by
  rw [solveUnobserved_of_cost (config.withMaxIters n) h, course_withMaxIters]
  rfl

end

/-- What a descent does when it is taken up again is what it would have done with more
iterations in the first place. -/
theorem exists_course_of_maxIters {objective : Objective α} {start : Point α} {config : Config α}
    {n : Nat} {a : Solution α}
    (ha : solveUnobserved objective start (config.withMaxIters n) = .ok a)
    (ran_out : a.status = .maxIters) (m : Nat) :
    ∃ L : Course α,
      solveUnobserved objective a.point (config.withMaxIters m) =
          L.result (Solution.startingAt a.point a.cost) ∧
        solveUnobserved objective start (config.withMaxIters (n + m)) =
          L.result (fun status => { a with status }) ∧
        a.iters = n := by
  obtain ⟨cost, h⟩ := cost_of_solve ha
  have cost_a : objective.cost a.point = .ok a.cost := (grounds_of_solve ha).1
  rw [solveUnobserved_withMaxIters h, Course.result_eq_ok_iff] at ha
  obtain ⟨status, ending, rfl⟩ := ha
  rw [Solution.status_walk] at ran_out
  cases ran_out
  refine ⟨_, solveUnobserved_withMaxIters cost_a m, ?_, ?_⟩
  · rw [solveUnobserved_withMaxIters h]
    have more : course objective config (n + m) start cost = _ :=
      course_add_of_maxIters m n start cost ending (Solution.startingAt start cost .maxIters)
        rfl rfl
    rw [more, Course.result_append]
    refine congrArg (Course.result _) (funext ?_)
    intro status
    exact walk_with_status status _ (Solution.startingAt start cost .maxIters)
  · rw [Solution.iters_walk, length_steps_of_maxIters n start cost ending]
    exact Nat.zero_add n

/-- **A descent can be interrupted and resumed.** -/
theorem solveUnobserved_add (objective : Objective α) (start : Point α) (config : Config α)
    (n m : Nat) :
    (∀ a, solveUnobserved objective start (config.withMaxIters n) = .ok a →
      a.status = .maxIters →
        (∀ e, solveUnobserved objective start (config.withMaxIters (n + m)) = .error e ↔
          solveUnobserved objective a.point (config.withMaxIters m) = .error e) ∧
        ∀ b, solveUnobserved objective a.point (config.withMaxIters m) = .ok b →
          ∃ s, solveUnobserved objective start (config.withMaxIters (n + m)) = .ok s ∧
            s.status = b.status ∧ s.cost = b.cost ∧ s.iters = n + b.iters ∧
            s.trajectory.toList = a.trajectory.toList ++ b.trajectory.toList.tail) ∧
    ((∀ a, solveUnobserved objective start (config.withMaxIters n) = .ok a →
      a.status ≠ .maxIters) →
        solveUnobserved objective start (config.withMaxIters (n + m)) =
          solveUnobserved objective start (config.withMaxIters n)) := by
  refine ⟨?_, ?_⟩
  · intro a ha ran_out
    obtain ⟨L, second, both, iters_eq⟩ := exists_course_of_maxIters ha ran_out m
    rw [second, both]
    refine ⟨?_, ?_⟩
    · intro e
      rw [Course.result_eq_error_iff, Course.result_eq_error_iff]
    · intro b hb
      obtain ⟨status, ending, rfl⟩ := Course.result_eq_ok_iff.mp hb
      refine ⟨_, Course.result_eq_ok_iff.mpr ⟨status, ending, rfl⟩, ?_, ?_, ?_, ?_⟩
      · rw [Solution.status_walk, Solution.status_walk]
        rfl
      · rw [Solution.cost_walk, Solution.cost_walk]
        rfl
      · rw [Solution.iters_walk, Solution.iters_walk, ← iters_eq]
        exact congrArg (a.iters + ·) (Nat.zero_add _).symm
      · rw [Solution.toList_walk, Solution.toList_walk]
        rfl
  · intro ended
    rcases h : objective.cost start with err | cost
    · rw [solveUnobserved, solveUnobserved, solve_of_error _ h, solve_of_error _ h]
    · rw [solveUnobserved_withMaxIters h] at ended ⊢
      rw [solveUnobserved_withMaxIters h, course_add_of_ended]
      intro ran_out
      refine ended _ (Course.result_eq_ok_iff.mpr ⟨_, ran_out, rfl⟩) ?_
      exact Solution.status_walk _ _

/-- One step into the bowl and then two more, and a descent that is over before its bound. -/
theorem solveUnobserved_add_bowl :
    (∃ a b s, solveUnobserved bowl slopePoint (Config.standard.withMaxIters 1) = .ok a ∧
      a.status = .maxIters ∧ solveUnobserved bowl a.point (Config.standard.withMaxIters 2) = .ok b ∧
      solveUnobserved bowl slopePoint (Config.standard.withMaxIters (1 + 2)) = .ok s ∧
      s.status = b.status ∧ s.iters = 1 + b.iters ∧
      s.trajectory.toList = a.trajectory.toList ++ b.trajectory.toList.tail) ∧
    solveUnobserved bowl slopePoint (Config.standard.withMaxIters (3 + 2)) =
      solveUnobserved bowl slopePoint (Config.standard.withMaxIters 3) := by
  have parts : (solveUnobserved bowl slopePoint (Config.standard.withMaxIters 1)).toOption.any
      (fun a => a.status == .maxIters &&
        (solveUnobserved bowl a.point (Config.standard.withMaxIters 2)).toOption.any fun b =>
          b.status == .converged) = true := by decide +kernel
  have whole : (solveUnobserved bowl slopePoint (Config.standard.withMaxIters 3)).toOption.any
      (fun s => s.status == .converged) = true := by decide +kernel
  obtain ⟨a, ha, seen⟩ := exists_ok_of_any parts
  obtain ⟨ran_out, second⟩ := Bool.and_eq_true_iff.mp seen
  obtain ⟨b, hb, -⟩ := exists_ok_of_any second
  obtain ⟨s, hs, status_eq, -, iters_eq, points⟩ :=
    ((solveUnobserved_add bowl slopePoint .standard 1 2).1 a ha (eq_of_beq ran_out)).2 b hb
  refine ⟨⟨a, b, s, ha, eq_of_beq ran_out, hb, hs, status_eq, iters_eq, points⟩, ?_⟩
  refine (solveUnobserved_add bowl slopePoint .standard 3 2).2 ?_
  obtain ⟨t, ht, converged⟩ := exists_ok_of_any whole
  intro t' ht' ran_out
  cases ht.symm.trans ht'
  rw [ran_out] at converged
  cases converged

end Descent

end Downhill
