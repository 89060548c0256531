/-
What a solve keeps account of.

While it runs, a descent carries a trajectory, the cost at its last point and the number of
steps taken, and it shows each point with its number and its cost to the observer.  The run
can end in several places and hands these on from each of them.  `Bookkeeping` says how they
fit together in a solution, and `solve_bookkeeping` that they always do, however the run
ended and whoever observed it.

Most of it is read off the course: each of its steps binds the names of the start, is finite
and has the cost that is noted for it (`noted_of_mem_course`).
-/
import Downhill.Proofs.Descent.Observation

namespace Downhill

namespace Descent

variable {α σ : Type} [Zero α] [One α] [Add α] [Sub α] [Mul α] [Neg α] [Div α] [BEq α]
  [LT α] [LE α] [Magnitude α]

/-! ### The steps of a course -/

/-- What is noted of a step is right, and the step is one that may be taken from a point that
binds certain names. -/
structure Noted (objective : Objective α) (names : List String) (c : Candidate α) : Prop where
  cost_eq : objective.cost c.point = .ok c.cost
  keys_eq : c.point.keys = names
  finite : c.point.isFinite = true

section

variable [DecidableLT α] [DecidableLE α] {objective : Objective α} {config : Config α}

theorem noted_of_outcome {p : Point α} {cost : α} {c : Candidate α}
    (h : outcome objective config p cost = .ok (.step c)) : Noted objective p.keys c := by
  have ways := turns_outcome objective config p cost
  rw [h] at ways
  cases ways with
  | step searches first point_eq cost_eq stepSize_eq finite =>
      refine ⟨cost_eq, ?_, finite⟩
      rw [point_eq, keys_candidate]

theorem noted_of_mem_course (n : Nat) (p : Point α) (cost : α) :
    ∀ c ∈ (course objective config n p cost).steps, Noted objective p.keys c := by
  fun_induction course objective config n p cost with
  | case1 p cost => intro c mem; cases mem
  | case2 n p cost e failed => intro c mem; cases mem
  | case3 n p cost status halted => intro c mem; cases mem
  | case4 n p cost first stepped ih =>
      have noted := noted_of_outcome stepped
      intro c mem
      rcases List.mem_cons.mp mem with rfl | later
      · exact noted
      · rw [← noted.keys_eq]
        exact ih c later

theorem length_steps_le (n : Nat) (p : Point α) (cost : α) :
    (course objective config n p cost).steps.length ≤ n := by
  fun_induction course objective config n p cost with
  | case1 p cost => exact Nat.le_refl 0
  | case2 n p cost e failed => exact Nat.zero_le (n + 1)
  | case3 n p cost status halted => exact Nat.zero_le (n + 1)
  | case4 n p cost c stepped ih => exact Nat.succ_le_succ ih

end

variable [DecidableLT α] [DecidableLE α]

/-! ### The events of a solve -/

/-- What an observer is shown has the cost that it is shown with, and binds the names of the
start.  This holds of solves without a solution, too. -/
theorem noted_of_mem_shown {objective : Objective α} {start : Point α} {config : Config α}
    {observer : Observer (Event α) σ} {state : σ} {log : Log α} {e : Event α}
    (mem : e ∈ shown objective start config observer state log) :
    objective.cost e.point = .ok e.cost ∧ e.point.keys = start.keys := by
  rcases h : objective.cost start with err | cost
  · rw [shown_of_error h] at mem
    cases mem
  · rw [shown_of_cost h] at mem
    rcases Course.mem_events mem with rfl | ⟨c, taken, point_eq, cost_eq⟩
    · exact ⟨h, rfl⟩
    · have noted := noted_of_mem_course _ _ _ c ((Course.prefix_under _ _ _ _).subset taken)
      rw [point_eq, cost_eq]
      exact ⟨noted.cost_eq, noted.keys_eq⟩

/-- Events are shown with their place in the order in which they are shown. -/
theorem step_of_getElem?_shown {objective : Objective α} {start : Point α} {config : Config α}
    {observer : Observer (Event α) σ} {state : σ} {log : Log α} {k : Nat} {e : Event α}
    (found : (shown objective start config observer state log)[k]? = some e) : e.step = k := by
  rcases h : objective.cost start with err | cost
  · rw [shown_of_error h] at found
    cases found
  · rw [shown_of_cost h, Course.getElem?_events] at found
    obtain ⟨le, rfl⟩ := found
    rw [Event.step_foldl_next, List.length_take, Nat.min_eq_left le]
    exact Nat.zero_add k

/-- A solution and the events that were shown come from the same steps. -/
theorem exists_course_of_ok {objective : Objective α} {start : Point α} {config : Config α}
    {observer : Observer (Event α) σ} {state : σ} {log : Log α} {s : Solution α}
    (h : (solve objective start config observer state log).result = .ok s) :
    ∃ (cost : α) (K : Course α) (status : Status), objective.cost start = .ok cost ∧
      K.steps <+: (course objective config config.maxIters start cost).steps ∧
      s = (Solution.startingAt start cost status).walk K.steps ∧
      shown objective start config observer state log = K.events ⟨0, start, cost⟩ := by
  obtain ⟨cost, cost_eq⟩ := cost_of_solve h
  rw [(solve_of_cost config cost_eq observer state log).1, Course.result_eq_ok_iff] at h
  obtain ⟨status, -, walked⟩ := h
  exact ⟨cost, _, status, cost_eq, Course.prefix_under _ _ _ _, walked.symm,
    shown_of_cost cost_eq _ _ _⟩

/-! ### The account -/

/-- How a solution and the events that were shown on the way to it fit together. -/
structure Bookkeeping (objective : Objective α) (start : Point α) (config : Config α)
    (s : Solution α) (seen : List (Event α)) : Prop where
  head_eq : s.trajectory.toList.head? = some start
  length_eq : s.trajectory.toList.length = s.iters + 1
  iters_le : s.iters + 1 ≤ config.maxIters + 1
  cost_eq : objective.cost s.point = .ok s.cost
  keys_eq : ∀ p ∈ s.trajectory.toList, p.keys = start.keys
  finite : ∀ p ∈ s.trajectory.toList.tail, ∀ name x, p.get? name = some x →
    Magnitude.isFinite x = true
  seen_length : seen.length = s.iters + 1
  seen_eq : ∀ (k : Nat) (e : Event α), seen[k]? = some e →
    e.step = k ∧ s.trajectory.toList[k]? = some e.point ∧ objective.cost e.point = .ok e.cost

section

variable {objective : Objective α} {start : Point α} {config : Config α}
  {observer : Observer (Event α) σ} {state : σ} {log : Log α} {s : Solution α}
  (h : (solve objective start config observer state log).result = .ok s)
include h

/-- The points that were shown are those that are recorded. -/
theorem map_point_shown :
    (shown objective start config observer state log).map Event.point = s.trajectory.toList := by
  obtain ⟨cost, K, status, -, -, rfl, shown_eq⟩ := exists_course_of_ok h
  rw [shown_eq, Course.map_point_events, Solution.toList_walk]
  rfl

/-- The last event that was shown is the end of the solution. -/
theorem getLast?_shown :
    (shown objective start config observer state log).getLast? = some s.event := by
  obtain ⟨cost, K, status, -, -, rfl, shown_eq⟩ := exists_course_of_ok h
  rw [shown_eq, Course.events, List.getLast?_scanl, Solution.event_walk]
  rfl

theorem length_eq_of_ok :
    s.trajectory.toList.length = s.iters + 1 ∧ s.iters ≤ config.maxIters := by
  obtain ⟨cost, K, status, -, taken, rfl, -⟩ := exists_course_of_ok h
  have count : ((Solution.startingAt start cost status).walk K.steps).iters = K.steps.length :=
    (Solution.iters_walk _ _).trans (Nat.zero_add _)
  rw [Solution.toList_walk, count, List.length_append, List.length_map]
  exact ⟨Nat.add_comm 1 _, taken.length_le.trans (length_steps_le _ _ _)⟩

/-- Only the start may lie outside of the ordinary numbers. -/
theorem finite_of_mem_tail {p : Point α} (mem : p ∈ s.trajectory.toList.tail) :
    p.isFinite = true := by
  obtain ⟨cost, K, status, -, taken, rfl, -⟩ := exists_course_of_ok h
  rw [Solution.toList_walk] at mem
  obtain ⟨c, hc, rfl⟩ := List.mem_map.mp mem
  exact (noted_of_mem_course _ _ _ c (taken.subset hc)).finite

theorem bookkeeping_of_ok :
    Bookkeeping objective start config s (shown objective start config observer state log) := by
  have points := map_point_shown h
  have last := getLast?_shown h
  obtain ⟨length_eq, iters_le⟩ := length_eq_of_ok h
  refine ⟨?_, length_eq, Nat.succ_le_succ iters_le, ?_, ?_, ?_, ?_, ?_⟩
  · obtain ⟨cost, K, status, -, -, rfl, -⟩ := exists_course_of_ok h
    rw [Solution.toList_walk]
    rfl
  · exact (noted_of_mem_shown (List.mem_of_getLast? last)).1
  · intro p mem
    rw [← points] at mem
    obtain ⟨e, he, rfl⟩ := List.mem_map.mp mem
    exact (noted_of_mem_shown he).2
  · intro p mem
    exact Bindings.all_eq_true_iff.mp (finite_of_mem_tail h mem)
  · rw [← length_eq, ← points, List.length_map]
  · intro k e found
    refine ⟨step_of_getElem?_shown found, ?_, ?_⟩
    · rw [← points, List.getElem?_map, found]
      rfl
    · exact (noted_of_mem_shown (List.mem_of_getElem? found)).1

end

/-- The observer of a descent that keeps the history of its costs. -/
def historian : Observer (Event α) (CostHistory α) := CostHistory.observer.comap Event.reading

/-- **Every solution is properly accounted for**, and so is every history of the costs. -/
theorem solve_bookkeeping (objective : Objective α) (start : Point α) (config : Config α)
    (log : Log α) :
    (∀ (observer : Observer (Event α) σ) (state : σ) (s : Solution α),
      (solve objective start config observer state log).result = .ok s →
        Bookkeeping objective start config s
          (shown objective start config observer state log)) ∧
    ∀ (history : CostHistory α) (s : Solution α),
      (solve objective start config historian history log).result = .ok s →
        (solve objective start config historian history log).observer.entries.toList =
            history.entries.toList ++
              (shown objective start config historian history log).map Event.reading ∧
          (solve objective start config historian history log).observer.lastCost? =
            some s.cost := by
  refine ⟨?_, ?_⟩
  · intro observer state s h
    exact bookkeeping_of_ok h
  · intro history s h
    have entries : (historian.feed history
        (shown objective start config historian history log)).entries.toList =
          history.entries.toList ++
            (shown objective start config historian history log).map Event.reading :=
      CostHistory.entries_feed Event.reading _ history
    rw [← observer_solve] at entries
    refine ⟨entries, ?_⟩
    rw [CostHistory.lastCost?, ← Array.getLast?_toList, entries, List.getLast?_append,
      List.getLast?_map, getLast?_shown h]
    rfl

/-- Three steps into the bowl, with a history of the costs. -/
theorem solve_bookkeeping_bowl :
    ∃ s, (solve bowl slopePoint .standard historian ∅ .silent).result = .ok s ∧ s.iters = 3 ∧
      Bookkeeping bowl slopePoint .standard s
        (shown bowl slopePoint .standard historian ∅ .silent) ∧
      (solve bowl slopePoint .standard historian ∅ .silent).observer.entries.toList =
        (shown bowl slopePoint .standard historian ∅ .silent).map Event.reading ∧
      (solve bowl slopePoint .standard historian ∅ .silent).observer.lastCost? = some s.cost := by
  have solved : (solve bowl slopePoint .standard historian ∅ .silent).result.toOption.any
      (fun s => s.iters == 3) = true := by decide +kernel
  obtain ⟨s, hs, three⟩ := exists_ok_of_any solved
  obtain ⟨accounts, histories⟩ := solve_bookkeeping bowl slopePoint .standard .silent
  obtain ⟨entries, lastCost⟩ := histories ∅ s hs
  have nothing_before : (∅ : CostHistory Float).entries.toList = [] := rfl
  rw [nothing_before, List.nil_append] at entries
  exact ⟨s, hs, eq_of_beq three, accounts historian ∅ s hs, entries, lastCost⟩

end Descent

end Downhill
