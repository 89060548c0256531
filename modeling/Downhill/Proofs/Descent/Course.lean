/-
The course of a descent: where it goes and how it ends if nobody stops it.

A run carries a trajectory, a count of its steps, an observer and a log.  None of them
has a say in where it goes next: `course` is a function of the last point, its cost and
the number of steps that remain.  `Run.follows_course` says that this is all there is to
a run.  Its result is read off its course, and its observer can do nothing but cut the
course short, at the first event at which it says stop.

So a statement that compares two runs, under two observers or with two bounds on the
steps, is a statement about courses, and an induction on the steps that remain is one on
`course`: no step is left, the turn fails, it ends the run, or it takes a step.
-/
import Downhill.Proofs.Descent.Run
import Downhill.Proofs.Observer.Feed

namespace Downhill

variable {α σ : Type}

/-! ### Taking steps -/

/-- The event that follows when a step is taken. -/
def Event.next (e : Event α) (c : Descent.Candidate α) : Event α := ⟨e.step + 1, c.point, c.cost⟩

theorem Event.step_foldl_next (steps : List (Descent.Candidate α)) :
    ∀ e : Event α, (steps.foldl Event.next e).step = e.step + steps.length := by
  induction steps with
  | nil => intro e; rfl
  | cons c rest ih =>
      intro e
      rw [List.foldl_cons, ih, List.length_cons]
      show e.step + 1 + rest.length = e.step + (rest.length + 1)
      omega

namespace Solution

/-- A solution that ends where it starts. -/
def startingAt (start : Point α) (cost : α) (status : Status) : Solution α :=
  ⟨status, .startingAt start, cost, 0⟩

/-- What the observer is shown at the end of a solution. -/
def event (s : Solution α) : Event α := ⟨s.iters, s.point, s.cost⟩

/-- The solution that goes one step further. -/
def step (s : Solution α) (c : Descent.Candidate α) : Solution α where
  status := s.status
  trajectory := s.trajectory.push c.point
  cost := c.cost
  iters := s.iters + 1

/-- The solution that goes some steps further. -/
def walk (s : Solution α) (steps : List (Descent.Candidate α)) : Solution α :=
  steps.foldl step s

@[simp] theorem walk_nil (s : Solution α) : s.walk [] = s := rfl

@[simp] theorem walk_cons (s : Solution α) (c : Descent.Candidate α)
    (rest : List (Descent.Candidate α)) : s.walk (c :: rest) = (s.step c).walk rest := rfl

theorem walk_append (s : Solution α) (first second : List (Descent.Candidate α)) :
    s.walk (first ++ second) = (s.walk first).walk second :=
  List.foldl_append

@[simp] theorem point_step (s : Solution α) (c : Descent.Candidate α) :
    (s.step c).point = c.point :=
  Trajectory.last_push s.trajectory c.point

theorem event_step (s : Solution α) (c : Descent.Candidate α) :
    (s.step c).event = s.event.next c := by
  rw [event, point_step]
  rfl

theorem event_walk (steps : List (Descent.Candidate α)) :
    ∀ s : Solution α, (s.walk steps).event = steps.foldl Event.next s.event := by
  induction steps with
  | nil => intro s; rfl
  | cons c rest ih =>
      intro s
      rw [walk_cons, ih, event_step]
      rfl

@[simp] theorem status_walk (steps : List (Descent.Candidate α)) :
    ∀ s : Solution α, (s.walk steps).status = s.status := by
  induction steps with
  | nil => intro s; rfl
  | cons c rest ih => intro s; exact ih (s.step c)

@[simp] theorem iters_walk (s : Solution α) (steps : List (Descent.Candidate α)) :
    (s.walk steps).iters = s.iters + steps.length := by
  show (s.walk steps).event.step = s.event.step + steps.length
  rw [event_walk, Event.step_foldl_next]

@[simp] theorem toList_walk (steps : List (Descent.Candidate α)) :
    ∀ s : Solution α, (s.walk steps).trajectory.toList =
      s.trajectory.toList ++ steps.map Descent.Candidate.point := by
  induction steps with
  | nil => intro s; simp
  | cons c rest ih =>
      intro s
      rw [walk_cons, ih]
      simp [step]

/-- The cost at the end is that of the last step, if there is one. -/
@[simp] theorem cost_walk (steps : List (Descent.Candidate α)) :
    ∀ s : Solution α, (s.walk steps).cost =
      (steps.map Descent.Candidate.cost).getLastD s.cost := by
  induction steps with
  | nil => intro s; rfl
  | cons c rest ih =>
      intro s
      rw [walk_cons, ih, List.map_cons, List.getLastD_cons]
      rfl

end Solution

namespace Descent

/-! ### Courses -/

/-- Some steps, and how they end. -/
structure Course (α : Type) where
  steps : List (Candidate α)
  ending : Except SolveError Status

namespace Course

/-- The course with one more step in front. -/
def cons (c : Candidate α) (K : Course α) : Course α := ⟨c :: K.steps, K.ending⟩

/-- What an observer is shown on a course, from an event on. -/
def events (K : Course α) (e : Event α) : List (Event α) := K.steps.scanl Event.next e

/-- The result of a course; what was there before it may depend on the status. -/
def result (K : Course α) (s : Status → Solution α) : Except SolveError (Solution α) :=
  K.ending.map fun status => (s status).walk K.steps

/-- The course up to a stop, if there is one. -/
def cut (K : Course α) : Option Nat → Course α
  | some k => ⟨K.steps.take k, .ok .stoppedByObserver⟩
  | none => K

/-- The course as far as an observer lets it go. -/
def under (K : Course α) (observer : Observer (Event α) σ) (state : σ) (e : Event α) : Course α :=
  K.cut (observer.firstStop? state (K.events e))

theorem result_eq_ok_iff {K : Course α} {s : Status → Solution α} {sol : Solution α} :
    K.result s = .ok sol ↔ ∃ status, K.ending = .ok status ∧ (s status).walk K.steps = sol := by
  rw [result]
  rcases K.ending with e | status <;> simp [Except.map]

theorem result_eq_error_iff {K : Course α} {s : Status → Solution α} {e : SolveError} :
    K.result s = .error e ↔ K.ending = .error e := by
  rw [result]
  rcases K.ending with e' | status <;> simp [Except.map]

theorem map_status_result (K : Course α) (start : Point α) (cost : α) :
    (K.result (Solution.startingAt start cost)).map Solution.status = K.ending := by
  obtain ⟨steps, ending⟩ := K
  cases ending with
  | error e => rfl
  | ok status => exact congrArg Except.ok (Solution.status_walk steps _)

theorem events_nil (ending : Except SolveError Status) (e : Event α) :
    events ⟨[], ending⟩ e = [e] :=
  List.scanl_nil

theorem events_cons (c : Candidate α) (K : Course α) (e : Event α) :
    (K.cons c).events e = e :: K.events (e.next c) :=
  List.scanl_cons

/-- Where a course is cut, the events end. -/
theorem events_cut (K : Course α) (e : Event α) (k : Nat) :
    (K.cut (some k)).events e = (K.events e).take (k + 1) :=
  (List.take_scanl e K.steps k).symm

theorem getElem?_events {K : Course α} {e e' : Event α} {k : Nat} :
    (K.events e)[k]? = some e' ↔ k ≤ K.steps.length ∧ (K.steps.take k).foldl Event.next e = e' := by
  rw [events, List.getElem?_scanl]
  simp

section

variable {observer : Observer (Event α) σ} {state state' : σ} {e : Event α}

theorem under_of_stop (h : observer.next state e = (state', .stop)) (K : Course α) :
    K.under observer state e = ⟨[], .ok .stoppedByObserver⟩ := by
  obtain ⟨rest, events_eq⟩ : ∃ rest, K.events e = e :: rest := by
    obtain ⟨steps, ending⟩ := K
    cases steps with
    | nil => exact ⟨[], events_nil ending e⟩
    | cons c steps => exact ⟨_, events_cons c ⟨steps, ending⟩ e⟩
  rw [under, events_eq, Observer.firstStop?_of_stop h]
  rfl

theorem under_nil (h : observer.next state e = (state', .proceed))
    (ending : Except SolveError Status) : under ⟨[], ending⟩ observer state e = ⟨[], ending⟩ := by
  rw [under, events_nil, Observer.firstStop?_of_proceed h]
  rfl

theorem under_cons (h : observer.next state e = (state', .proceed)) (c : Candidate α)
    (K : Course α) :
    (K.cons c).under observer state e = (K.under observer state' (e.next c)).cons c := by
  rw [under, events_cons, Observer.firstStop?_of_proceed h, under]
  cases observer.firstStop? state' (K.events (e.next c)) <;> rfl

end

theorem prefix_under (K : Course α) (observer : Observer (Event α) σ) (state : σ) (e : Event α) :
    (K.under observer state e).steps <+: K.steps := by
  rw [under]
  rcases observer.firstStop? state (K.events e) with _ | k
  · exact List.prefix_refl _
  · exact List.take_prefix k K.steps

theorem mem_events {K : Course α} {e e' : Event α} (h : e' ∈ K.events e) :
    e' = e ∨ ∃ c ∈ K.steps, e'.point = c.point ∧ e'.cost = c.cost := by
  obtain ⟨steps, ending⟩ := K
  change e' ∈ steps.scanl Event.next e at h
  show e' = e ∨ ∃ c ∈ steps, e'.point = c.point ∧ e'.cost = c.cost
  induction steps generalizing e with
  | nil => simpa using h
  | cons c rest ih =>
      rw [List.scanl_cons, List.mem_cons] at h
      rcases h with rfl | later
      · exact .inl rfl
      · rcases ih later with rfl | ⟨c', mem, same⟩
        · exact .inr ⟨c, List.mem_cons_self, rfl, rfl⟩
        · exact .inr ⟨c', List.mem_cons_of_mem c mem, same⟩

/-- The points that an observer is shown are those that are recorded. -/
theorem map_point_events (K : Course α) (e : Event α) :
    (K.events e).map Event.point = e.point :: K.steps.map Candidate.point := by
  obtain ⟨steps, ending⟩ := K
  show (steps.scanl Event.next e).map Event.point = e.point :: steps.map Candidate.point
  induction steps generalizing e with
  | nil => simp
  | cons c rest ih =>
      rw [List.scanl_cons, List.map_cons, ih, List.map_cons]
      rfl

end Course

/-- The solution that a run has if it ends where it stands. -/
def Progress.solution (s : Progress α σ) (status : Status) : Solution α :=
  ⟨status, s.trajectory, s.cost, s.iters⟩

theorem Progress.event_accept (s : Progress α σ) (c : Candidate α) :
    (s.accept c).event = s.event.next c := by
  simp [Progress.accept, Progress.event, Event.next]

variable [Zero α] [One α] [Add α] [Sub α] [Mul α] [Neg α] [Div α] [BEq α] [LT α] [LE α]
  [DecidableLT α] [DecidableLE α] [Magnitude α]

/-- What the turn at a point comes to.  Neither the log nor the number of steps taken
matters to it, so any will do. -/
def outcome (objective : Objective α) (config : Config α) (p : Point α) (cost : α) :
    Except SolveError (Turn α) :=
  (turn objective config 0 p cost .silent).1

/-- What a run does from a point on, with so many steps remaining. -/
def course (objective : Objective α) (config : Config α) : Nat → Point α → α → Course α
  | 0, _, cost => ⟨[], .ok (if isRoot config cost then .converged else .maxIters)⟩
  | n + 1, p, cost =>
    match outcome objective config p cost with
    | .error e => ⟨[], .error e⟩
    | .ok (.halt status) => ⟨[], .ok status⟩
    | .ok (.step c) => (course objective config n c.point c.cost).cons c

section

variable {objective : Objective α} {config : Config α} {p : Point α} {cost : α}

theorem outcome_of_turn {iter : Nat} {log log' : Log α} {result : Except SolveError (Turn α)}
    (h : turn objective config iter p cost log = (result, log')) :
    outcome objective config p cost = result := by
  rw [outcome, turn_fst objective config 0 iter p cost .silent log, h]

theorem turns_outcome (objective : Objective α) (config : Config α) (p : Point α) (cost : α) :
    Turns objective config p cost (outcome objective config p cost) :=
  turns_turn objective config 0 p cost .silent

theorem course_of_error {e : SolveError} (h : outcome objective config p cost = .error e)
    (n : Nat) : course objective config (n + 1) p cost = ⟨[], .error e⟩ := by
  simp [course, h]

theorem course_of_halt {status : Status}
    (h : outcome objective config p cost = .ok (.halt status)) (n : Nat) :
    course objective config (n + 1) p cost = ⟨[], .ok status⟩ := by
  simp [course, h]

theorem course_of_step {c : Candidate α} (h : outcome objective config p cost = .ok (.step c))
    (n : Nat) : course objective config (n + 1) p cost =
      (course objective config n c.point c.cost).cons c := by
  simp [course, h]

end

/-! ### Runs follow their course -/

/-- **A run follows its course as far as its observer lets it go.** -/
theorem Run.follows_course {objective : Objective α} {config : Config α}
    {observer : Observer (Event α) σ} {n : Nat} {s : Progress α σ} {r : Report α σ}
    (run : Run objective config observer n s r) :
    let K := (course objective config n s.trajectory.last s.cost).under observer s.observer s.event
    r.result = K.result s.solution ∧ r.observer = observer.feed s.observer (K.events s.event) := by
  induction run with
  | @stopped n s state verdict =>
      simp only [Course.under_of_stop verdict, Course.events_nil, Observer.feed_cons, verdict]
      exact ⟨rfl, rfl⟩
  | @spent s state verdict =>
      simp only [course, Course.under_nil verdict, Course.events_nil, Observer.feed_cons, verdict]
      exact ⟨rfl, rfl⟩
  | @failed n s state e log verdict turn_eq =>
      simp only [course_of_error (outcome_of_turn turn_eq) n, Course.under_nil verdict,
        Course.events_nil, Observer.feed_cons, verdict]
      exact ⟨rfl, rfl⟩
  | @halted n s state status log verdict turn_eq =>
      simp only [course_of_halt (outcome_of_turn turn_eq) n, Course.under_nil verdict,
        Course.events_nil, Observer.feed_cons, verdict]
      exact ⟨rfl, rfl⟩
  | @stepped n s state c log r verdict turn_eq rest ih =>
      simp only [course_of_step (outcome_of_turn turn_eq) n, Course.under_cons verdict,
        Course.events_cons, Observer.feed_cons, verdict]
      have last_eq : (Progress.accept { s with observer := state, log } c).trajectory.last =
          c.point := Trajectory.last_push s.trajectory c.point
      rw [last_eq, Progress.event_accept] at ih
      exact ih

/-! ### Solves follow their course -/

section

variable {objective : Objective α} {start : Point α} (config : Config α)

theorem solve_of_error {e : EvalError} (h : objective.cost start = .error e)
    (observer : Observer (Event α) σ) (state : σ) (log : Log α) :
    solve objective start config observer state log = ⟨.error (.eval e), state, log⟩ := by
  rw [solve, h]

variable {cost : α} (h : objective.cost start = .ok cost)
include h

theorem solve_of_cost (observer : Observer (Event α) σ) (state : σ) (log : Log α) :
    let K := (course objective config config.maxIters start cost).under observer state
      ⟨0, start, cost⟩
    (solve objective start config observer state log).result =
        K.result (Solution.startingAt start cost) ∧
      (solve objective start config observer state log).observer =
        observer.feed state (K.events ⟨0, start, cost⟩) :=
  (run_solve config observer state log h).follows_course

theorem solveUnobserved_of_cost :
    solveUnobserved objective start config =
      (course objective config config.maxIters start cost).result
        (Solution.startingAt start cost) := by
  have never := Observer.silent.firstStop?_eq_none (fun _ _ => rfl)
    ((course objective config config.maxIters start cost).events ⟨0, start, cost⟩) ()
  have result_eq := (solve_of_cost config h Observer.silent () .silent).1
  rw [Course.under, never] at result_eq
  exact result_eq

end

end Descent

end Downhill
