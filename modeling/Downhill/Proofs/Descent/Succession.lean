/-
From one event of a solve to the next.

Between two events that are shown one after the other lies one step: the turn at the first
came to a candidate, and the second shows it (`Follows`).  What a turn may come to is said
in `Turns`; `Follows.successor` reads off it all that is known of two such events.

A statement about consecutive points or costs of a solve is a statement about an event and
its successor.  `isChain_shown` and `follows_of_getElem?` carry it over, and the first event
is the start (`getElem?_zero_shown`).

What a course comes to can be told from any of its events on, because the rest of it is a course
again (`ending_of_mem_events`); an error is that of the turn at one of the events, and a turn that
is the end of the run decides the status of the solution (`solve_of_halt`).

In the other direction, `Turns` leaves a turn only one way to go where there is a cost
(`Turns.unique`), so what a turn comes to is found by showing a way (`outcome_of_turns`).
-/
import Downhill.Proofs.Descent.Evaluation
import Mathlib.Data.List.Chain

namespace Downhill

namespace Descent

variable {α σ : Type} [Zero α] [One α] [Add α] [Sub α] [Mul α] [Neg α] [Div α] [BEq α]
  [LT α] [LE α] [Magnitude α]

/-- Event `e'` shows candidate `j` of a search at event `e`, the first one that will do. -/
structure Successor (objective : Objective α) (config : Config α) (e e' : Event α)
    (gradient : Point α) (j : Nat) : Prop where
  searches : Searches objective config e.point e.cost gradient
  first : FirstSufficient objective config.lineSearch e.point e.cost gradient j
  point_eq : e'.point = candidate config.lineSearch e.point gradient j
  cost_eq : objective.cost e'.point = .ok e'.cost
  finite : e'.point.isFinite = true

/-- The decrease from an event to its successor is not less than asked. -/
theorem Successor.not_less {objective : Objective α} {config : Config α} {e e' : Event α}
    {gradient : Point α} {j : Nat} (h : Successor objective config e e' gradient j) :
    ¬ e.cost - e'.cost < config.lineSearch.stepSize j * asked config.lineSearch gradient := by
  obtain ⟨c, cost_eq, not_less⟩ := h.first.sufficient
  rw [← h.point_eq, h.cost_eq] at cost_eq
  cases cost_eq
  exact not_less

/-- **Where there is a cost, a turn can go only one way.** -/
theorem Turns.unique {objective : Objective α} {config : Config α} {p : Point α} {cost c : α}
    (cost_eq : objective.cost p = .ok c) {r r' : Except SolveError (Turn α)}
    (h : Turns objective config p cost r) (h' : Turns objective config p cost r') : r = r' := by
  obtain ⟨gradient, gradient_eq⟩ := Objective.exists_gradient cost_eq
  have evaluates : ∀ g j e, objective.cost (candidate config.lineSearch p g j) ≠ .error e := by
    intro g j e failed
    obtain ⟨c', exists_eq⟩ := exists_cost_candidate cost_eq config.lineSearch g j
    rw [failed] at exists_eq
    cases exists_eq
  -- Two different ways contradict each other in a test on the cost or the gradient, or in the
  -- first candidate that will do.
  cases h <;> cases h' <;>
    grind [Searches, not_noneSufficient_of_first, FirstSufficient.unique, cases Candidate]

variable [DecidableLT α] [DecidableLE α]

/-- What a turn comes to may be shown by any way that it can go. -/
theorem outcome_of_turns {objective : Objective α} {config : Config α} {p : Point α} {cost c : α}
    (cost_eq : objective.cost p = .ok c) {r : Except SolveError (Turn α)}
    (h : Turns objective config p cost r) : outcome objective config p cost = r :=
  Turns.unique cost_eq (turns_outcome objective config p cost) h

/-- Event `e'` shows the step that the turn at event `e` comes to. -/
def Follows (objective : Objective α) (config : Config α) (e e' : Event α) : Prop :=
  ∃ c, outcome objective config e.point e.cost = .ok (.step c) ∧ e' = e.next c

section

variable {objective : Objective α} {config : Config α}

theorem Follows.successor {e e' : Event α} (h : Follows objective config e e') :
    ∃ gradient j, Successor objective config e e' gradient j := by
  obtain ⟨c, stepped, rfl⟩ := h
  have ways := turns_outcome objective config e.point e.cost
  rw [stepped] at ways
  cases ways with
  | step searches first point_eq cost_eq stepSize_eq finite =>
      exact ⟨_, _, searches, first, point_eq, cost_eq, finite⟩

/-- **A turn comes to its first candidate that will do**, and refuses it if it is not finite. -/
theorem outcome_of_first {p gradient : Point α} {cost c : α} {j : Nat}
    (searches : Searches objective config p cost gradient)
    (first : FirstSufficient objective config.lineSearch p cost gradient j)
    (cost_eq : objective.cost (candidate config.lineSearch p gradient j) = .ok c) :
    outcome objective config p cost =
      .ok (if (candidate config.lineSearch p gradient j).isFinite then
        .step ⟨candidate config.lineSearch p gradient j, c, config.lineSearch.stepSize j, j⟩
      else .halt .diverged) := by
  obtain ⟨c', exists_eq⟩ := Objective.exists_cost_of_keys_eq cost_eq
    (keys_candidate config.lineSearch p gradient j).symm
  refine outcome_of_turns exists_eq ?_
  by_cases finite : (candidate config.lineSearch p gradient j).isFinite = true
  · rw [if_pos finite]
    exact .step searches first rfl cost_eq rfl finite
  · rw [if_neg finite]
    exact .diverged j searches first (Bool.not_eq_true _ ▸ finite)

theorem isChain_course (n : Nat) (p : Point α) (cost : α) :
    ∀ e : Event α, e.point = p → e.cost = cost →
      ((course objective config n p cost).events e).IsChain (Follows objective config) := by
  fun_induction course objective config n p cost with
  | case1 p cost | case2 n p cost err failed | case3 n p cost status halted =>
      intro e _ _
      rw [Course.events_nil]
      exact .singleton e
  | case4 n p cost c stepped ih =>
      rintro e rfl rfl
      rw [Course.events_cons, List.isChain_cons]
      refine ⟨?_, ih (e.next c) rfl rfl⟩
      intro e' first
      rw [Course.events, List.head?_scanl, Option.mem_some_iff] at first
      exact ⟨c, stepped, first.symm⟩

/-- **Each event that is shown follows the one before it.** -/
theorem isChain_shown (start : Point α) (observer : Observer (Event α) σ) (state : σ)
    (log : Log α) :
    (shown objective start config observer state log).IsChain (Follows objective config) := by
  rcases h : objective.cost start with err | cost
  · rw [shown_of_error h]
    exact .nil
  · rw [shown_of_cost h, Course.under]
    have whole : ((course objective config config.maxIters start cost).events
        ⟨0, start, cost⟩).IsChain (Follows objective config) :=
      isChain_course _ _ _ _ rfl rfl
    rcases observer.firstStop? state _ with _ | k
    · exact whole
    · rw [Course.events_cut]
      exact whole.take (k + 1)

/-- **What is left of a course at one of its events is the course from there**, with the steps
that then remain.  The induction is on the course up to the event. -/
theorem ending_of_mem_events (n : Nat) (p : Point α) (cost : α) :
    ∀ e e' : Event α, e.point = p → e.cost = cost →
      e' ∈ (course objective config n p cost).events e →
      ∃ m, e.step + n = e'.step + m ∧
        (course objective config n p cost).ending =
          (course objective config m e'.point e'.cost).ending := by
  fun_induction course objective config n p cost with
  | case1 p cost =>
      rintro e e' rfl rfl mem
      rw [Course.events_nil, List.mem_singleton] at mem
      subst mem
      exact ⟨0, rfl, rfl⟩
  | case2 n p cost err failed =>
      rintro e e' rfl rfl mem
      rw [Course.events_nil, List.mem_singleton] at mem
      subst mem
      exact ⟨n + 1, rfl, by rw [course_of_error failed]⟩
  | case3 n p cost status halted =>
      rintro e e' rfl rfl mem
      rw [Course.events_nil, List.mem_singleton] at mem
      subst mem
      exact ⟨n + 1, rfl, by rw [course_of_halt halted]⟩
  | case4 n p cost c stepped ih =>
      rintro e e' rfl rfl mem
      rw [Course.events_cons, List.mem_cons] at mem
      rcases mem with rfl | later
      · exact ⟨n + 1, rfl, by rw [course_of_step stepped]⟩
      · obtain ⟨m, total, ending_eq⟩ := ih (e.next c) e' rfl rfl later
        refine ⟨m, ?_, ending_eq⟩
        rw [← total]
        show e.step + (n + 1) = e.step + 1 + n
        omega

/-- A course that ends in an error does so at the turn of one of its events. -/
theorem exists_mem_events_of_ending (n : Nat) (p : Point α) (cost : α) {err : SolveError} :
    ∀ e : Event α, e.point = p → e.cost = cost →
      (course objective config n p cost).ending = .error err →
      ∃ e' ∈ (course objective config n p cost).events e, e'.step < e.step + n ∧
        outcome objective config e'.point e'.cost = .error err := by
  fun_induction course objective config n p cost with
  | case1 p cost =>
      intro e _ _ ends
      cases ends
  | case2 n p cost err' failed =>
      rintro e rfl rfl ⟨⟩
      rw [Course.events_nil]
      exact ⟨e, List.mem_singleton_self e, Nat.lt_add_of_pos_right n.succ_pos, failed⟩
  | case3 n p cost status halted =>
      intro e _ _ ends
      cases ends
  | case4 n p cost c stepped ih =>
      rintro e rfl rfl ends
      obtain ⟨e', mem, before, failed⟩ := ih (e.next c) rfl rfl ends
      rw [Course.events_cons]
      refine ⟨e', List.mem_cons_of_mem e mem, ?_, failed⟩
      refine before.trans_eq ?_
      show e.step + 1 + n = e.step + (n + 1)
      omega

theorem getElem?_zero_shown {start : Point α} {cost : α} (h : objective.cost start = .ok cost)
    (config : Config α) (observer : Observer (Event α) σ) (state : σ) (log : Log α) :
    (shown objective start config observer state log)[0]? = some ⟨0, start, cost⟩ := by
  rw [shown_of_cost h, ← List.head?_eq_getElem?, Course.events, List.head?_scanl]

theorem follows_of_getElem? {start : Point α} {observer : Observer (Event α) σ} {state : σ}
    {log : Log α} {k : Nat} {e e' : Event α}
    (here : (shown objective start config observer state log)[k]? = some e)
    (next : (shown objective start config observer state log)[k + 1]? = some e') :
    Follows objective config e e' := by
  obtain ⟨_, rfl⟩ := List.getElem?_eq_some_iff.mp here
  obtain ⟨inside, rfl⟩ := List.getElem?_eq_some_iff.mp next
  exact List.isChain_iff_getElem.mp (isChain_shown start observer state log) k inside

/-- An event at which the turn takes no step is the last one that is shown. -/
theorem take_shown_of_not_step {start : Point α} {observer : Observer (Event α) σ} {state : σ}
    {log : Log α} {k : Nat} {e : Event α}
    (found : (shown objective start config observer state log)[k]? = some e)
    (stays : ∀ c, outcome objective config e.point e.cost ≠ .ok (.step c)) :
    (shown objective start config observer state log).take (k + 1) =
      shown objective start config observer state log := by
  refine List.take_of_length_le ?_
  by_contra longer
  obtain ⟨c, stepped, -⟩ :=
    follows_of_getElem? found (List.getElem?_eq_getElem (Nat.lt_of_not_ge longer))
  exact stays c stepped

/-- **A turn that is the end of the run gives the solve its solution**, if there is a step left and
no stop before the event or at it. -/
theorem solve_of_halt {start : Point α} {observer : Observer (Event α) σ} {state : σ}
    {log : Log α} {k : Nat} {e : Event α} {status : Status}
    (found : (shown objective start config observer state log)[k]? = some e)
    (left : k < config.maxIters)
    (goes_on : observer.firstStop? state
      ((shown objective start config observer state log).take (k + 1)) = none)
    (halts : outcome objective config e.point e.cost = .ok (.halt status)) :
    ∃ s, (solve objective start config observer state log).result = .ok s ∧ s.status = status ∧
      s.event = e ∧ (shown objective start config observer state log).length = k + 1 := by
  rcases cost_eq : objective.cost start with err | cost
  · rw [shown_of_error cost_eq] at found
    cases found
  have whole := take_shown_of_not_step found fun c stepped => by simp [halts] at stepped
  have count : (shown objective start config observer state log).length = k + 1 := by
    have inside := (List.getElem?_eq_some_iff.mp found).1
    have short := congrArg List.length whole
    rw [List.length_take] at short
    omega
  have never := firstStop?_shown objective start config observer state log ▸ whole ▸ goes_on
  have place := step_of_getElem?_shown found
  have ending : (solve objective start config observer state log).result.map Solution.status =
      .ok status := by
    have mem := List.mem_of_getElem? found
    rw [shown_of_never never log, events_of_cost cost_eq] at mem
    obtain ⟨m, total, ending_eq⟩ := ending_of_mem_events config.maxIters start cost
      ⟨0, start, cost⟩ e rfl rfl mem
    obtain ⟨m, rfl⟩ : ∃ j, m = j + 1 := Nat.exists_eq_add_one.mpr (by omega)
    rw [solve_of_never never log, solveUnobserved_of_cost config cost_eq,
      Course.map_status_result, ending_eq, course_of_halt halts]
  rcases solved : (solve objective start config observer state log).result with err | s
  · rw [solved] at ending
    cases ending
  · rw [solved] at ending
    have last := getLast?_shown solved
    rw [List.getLast?_eq_getElem?, count, Nat.add_sub_cancel, found] at last
    exact ⟨s, rfl, Except.ok.inj ending, (Option.some.inj last).symm, count⟩

end

end Descent

end Downhill
