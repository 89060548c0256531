/-
What observers can do to a solve.

An observer is shown the start and every point that is reached, and may say stop.  It has
no other way to act: an observed solve is an unobserved one, cut off at the first event at
which the observer says stop.  Nothing that would have come later has any part in the
result, be it convergence, a stall or an error (`solve_observed`).

What an observer is shown is read off a recording observer.  That the recording does not
disturb it, and that its own state is what those events make of it, is `observer_solve`.
-/
import Downhill.Proofs.Descent.Course

namespace Downhill

namespace Descent

variable {α σ : Type} [Zero α] [One α] [Add α] [Sub α] [Mul α] [Neg α] [Div α] [BEq α]
  [LT α] [LE α] [DecidableLT α] [DecidableLE α] [Magnitude α]

/-- What an observer is shown in the course of a solve, in order. -/
def shown (objective : Objective α) (start : Point α) (config : Config α)
    (observer : Observer (Event α) σ) (state : σ) (log : Log α) : List (Event α) :=
  (solve objective start config observer.recording (state, #[]) log).observer.2.toList

/-- What an observer that never says stop is shown. -/
def events (objective : Objective α) (start : Point α) (config : Config α) : List (Event α) :=
  shown objective start config Observer.silent () .silent

section

variable {objective : Objective α} {start : Point α} {config : Config α}

theorem shown_of_error {e : EvalError} (h : objective.cost start = .error e)
    (observer : Observer (Event α) σ) (state : σ) (log : Log α) :
    shown objective start config observer state log = [] := by
  rw [shown, solve_of_error config h]

theorem shown_of_cost {cost : α} (h : objective.cost start = .ok cost)
    (observer : Observer (Event α) σ) (state : σ) (log : Log α) :
    shown objective start config observer state log =
      ((course objective config config.maxIters start cost).under observer state
        ⟨0, start, cost⟩).events ⟨0, start, cost⟩ := by
  obtain ⟨-, recorded⟩ := solve_of_cost config h observer.recording (state, #[]) log
  have same : (course objective config config.maxIters start cost).under observer.recording
      (state, #[]) ⟨0, start, cost⟩ =
        (course objective config config.maxIters start cost).under observer state
          ⟨0, start, cost⟩ := by
    rw [Course.under, Observer.firstStop?_recording, Course.under]
  rw [same, Observer.feed_recording] at recorded
  rw [shown, recorded]
  simp

/-- An observer ends in the state that the events it is shown lead to. -/
theorem observer_solve (objective : Objective α) (start : Point α) (config : Config α)
    (observer : Observer (Event α) σ) (state : σ) (log : Log α) :
    (solve objective start config observer state log).observer =
      observer.feed state (shown objective start config observer state log) := by
  rcases h : objective.cost start with e | cost
  · rw [shown_of_error h, solve_of_error config h]
    rfl
  · rw [shown_of_cost h]
    exact (solve_of_cost config h observer state log).2

theorem events_of_cost {cost : α} (h : objective.cost start = .ok cost) :
    events objective start config =
      (course objective config config.maxIters start cost).events ⟨0, start, cost⟩ := by
  rw [events, shown_of_cost h, Course.under,
    Observer.firstStop?_eq_none Observer.silent (fun _ _ => rfl)]
  rfl

/-! ### Stopping -/

section

variable {observer : Observer (Event α) σ} {state : σ}

/-- What an observer is shown is a beginning of what there is to see. -/
theorem shown_of_stop {k : Nat}
    (stops : observer.firstStop? state (events objective start config) = some k) (log : Log α) :
    shown objective start config observer state log =
      (events objective start config).take (k + 1) := by
  rcases h : objective.cost start with e | cost
  · rw [events, shown_of_error h] at stops
    cases stops
  · rw [events_of_cost h] at stops ⊢
    rw [shown_of_cost h, Course.under, stops, Course.events_cut]

/-- An observer that stops a solve at an event gets the solution that ends there. -/
theorem solve_of_stop {k : Nat}
    (stops : observer.firstStop? state (events objective start config) = some k) (log : Log α) :
    ∃ s, (solve objective start config observer state log).result = .ok s ∧
      s.status = .stoppedByObserver ∧ (events objective start config)[k]? = some s.event ∧
      s.trajectory.toList = ((events objective start config).take (k + 1)).map Event.point ∧
      s.iters = k := by
  rcases h : objective.cost start with e | cost
  · rw [events, shown_of_error h] at stops
    cases stops
  · rw [events_of_cost h] at stops ⊢
    obtain ⟨result_eq, -⟩ := solve_of_cost config h observer state log
    rw [Course.under, stops] at result_eq
    generalize course objective config config.maxIters start cost = K at stops result_eq ⊢
    have le : k ≤ K.steps.length := by
      have before := observer.firstStop?_lt _ _ stops
      rw [Course.events, List.length_scanl] at before
      omega
    refine ⟨(Solution.startingAt start cost .stoppedByObserver).walk (K.steps.take k), result_eq,
      Solution.status_walk _ _, ?_, ?_, ?_⟩
    · rw [Solution.event_walk]
      exact Course.getElem?_events.mpr ⟨le, rfl⟩
    · rw [← Course.events_cut, Course.map_point_events, Solution.toList_walk]
      rfl
    · rw [Solution.iters_walk, List.length_take, Nat.min_eq_left le]
      exact Nat.zero_add k

variable (never : observer.firstStop? state (events objective start config) = none)
include never

theorem shown_of_never (log : Log α) :
    shown objective start config observer state log = events objective start config := by
  rcases h : objective.cost start with e | cost
  · rw [events, shown_of_error h, shown_of_error h]
  · rw [events_of_cost h] at never ⊢
    rw [shown_of_cost h, Course.under, never]
    rfl

theorem solve_of_never (log : Log α) :
    (solve objective start config observer state log).result =
      solveUnobserved objective start config := by
  rcases h : objective.cost start with e | cost
  · rw [solveUnobserved, solve_of_error config h, solve_of_error config h]
  · rw [events_of_cost h] at never
    obtain ⟨result_eq, -⟩ := solve_of_cost config h observer state log
    rw [Course.under, never] at result_eq
    rw [result_eq, solveUnobserved_of_cost config h]
    rfl

end

end

/-- What an observer is shown tells whether it stops, and where. -/
theorem firstStop?_shown (objective : Objective α) (start : Point α) (config : Config α)
    (observer : Observer (Event α) σ) (state : σ) (log : Log α) :
    observer.firstStop? state (shown objective start config observer state log) =
      observer.firstStop? state (events objective start config) := by
  rcases stops : observer.firstStop? state (events objective start config) with _ | k
  · rw [shown_of_never stops log, stops]
  · rw [shown_of_stop stops log, Observer.firstStop?_take _ _ _ stops]

/-- An error of a solve is one of the unobserved solve that the observer did not stop. -/
theorem solve_eq_error_iff (objective : Objective α) (start : Point α) (config : Config α)
    (observer : Observer (Event α) σ) (state : σ) (log : Log α) (err : SolveError) :
    (solve objective start config observer state log).result = .error err ↔
      observer.firstStop? state (shown objective start config observer state log) = none ∧
        solveUnobserved objective start config = .error err := by
  rw [firstStop?_shown]
  rcases stops : observer.firstStop? state (events objective start config) with _ | k
  · rw [solve_of_never stops log]
    exact ⟨fun fails => ⟨rfl, fails⟩, And.right⟩
  · obtain ⟨s, solved, -⟩ := solve_of_stop stops log
    rw [solved]
    exact ⟨nofun, nofun⟩

/-- **Observers only cut a run short.** -/
theorem solve_observed (objective : Objective α) (start : Point α) (config : Config α)
    (observer : Observer (Event α) σ) (state : σ) (log : Log α) :
    (∀ k, observer.firstStop? state (events objective start config) = some k →
      ∃ s e, (solve objective start config observer state log).result = .ok s ∧
        (events objective start config)[k]? = some e ∧
        s.status = .stoppedByObserver ∧
        s.trajectory.toList = ((events objective start config).take (k + 1)).map Event.point ∧
        s.cost = e.cost ∧ s.iters = k ∧
        shown objective start config observer state log =
          (events objective start config).take (k + 1) ∧
        (solve objective start config observer state log).observer =
          observer.feed state ((events objective start config).take (k + 1))) ∧
    (observer.firstStop? state (events objective start config) = none →
      (solve objective start config observer state log).result =
          solveUnobserved objective start config ∧
        shown objective start config observer state log = events objective start config ∧
        (solve objective start config observer state log).observer =
          observer.feed state (events objective start config)) := by
  rw [observer_solve]
  refine ⟨?_, ?_⟩
  · intro k stops
    obtain ⟨s, hs, status_eq, last, points, iters_eq⟩ := solve_of_stop stops log
    rw [shown_of_stop stops log]
    exact ⟨s, s.event, hs, last, status_eq, points, rfl, iters_eq, rfl, rfl⟩
  · intro never
    rw [shown_of_never never log]
    exact ⟨solve_of_never never log, rfl, rfl⟩

/-- An observer that stops the descent into the bowl at its third step, or not at all.  The
third step lands on the root, which would have ended the descent as well. -/
theorem solve_observed_bowl :
    let observer : Observer (Event Float) (Option Nat) := Observer.stopAt.comap Event.reading
    observer.firstStop? (some 3) (events bowl slopePoint .standard) = some 3 ∧
      observer.firstStop? none (events bowl slopePoint .standard) = none ∧
      (∃ s, (solve bowl slopePoint .standard observer (some 3) .silent).result = .ok s ∧
        s.status = .stoppedByObserver ∧ s.iters = 3 ∧ isRoot .standard s.cost = true) ∧
      (solve bowl slopePoint .standard observer none .silent).result =
        solveUnobserved bowl slopePoint .standard := by
  intro observer
  have stops : observer.firstStop? (some 3) (events bowl slopePoint .standard) = some 3 := by
    decide +kernel
  have never : observer.firstStop? none (events bowl slopePoint .standard) = none := by
    decide +kernel
  have root : (events bowl slopePoint .standard)[3]?.any
      (fun e => isRoot .standard e.cost) = true := by decide +kernel
  obtain ⟨s, e, hs, he, status_eq, -, cost_eq, iters_eq, -⟩ :=
    (solve_observed bowl slopePoint .standard observer (some 3) .silent).1 3 stops
  obtain ⟨result_eq, -⟩ := (solve_observed bowl slopePoint .standard observer none .silent).2 never
  rw [he] at root
  exact ⟨stops, never, ⟨s, hs, status_eq, iters_eq, by rw [cost_eq]; exact root⟩, result_eq⟩

end Descent

end Downhill
