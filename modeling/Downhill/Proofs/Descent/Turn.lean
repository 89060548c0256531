/-
One turn of the descent, said without the loops that carry it out.

The candidates of a line search have numbers: candidate `j` lies one step away
whose size is the initial step, shrunk `j` times.  A search ends in one of three
ways, and `Search` says which: at the first candidate that lowers the cost enough,
without such a candidate, or at a candidate that has no cost.  `Turns` says the
same of a whole turn, one constructor for each way through it.

`SearchWrites` and `Writes` say in addition what goes to the log on the way.  The
costs of the candidates that were looked at determine it: `rejected` while none of
them will do, `settled` once one does.

`writes_lineSearch` and `writes_turn` connect the relations with the functions, and
`turns_turn` forgets the log again.  Everything later about runs goes through them;
what a turn does is read off neither `turn` nor `backtrack` again.

No law of arithmetic is used here.  What is proved holds of floating-point numbers
with all their exceptions, because the relations ask for the same operations in
the same order.
-/
import Downhill.Bindings.Lemmas
import Downhill.Descent.Solve

namespace Downhill

variable {α : Type}

namespace Log

/-- The log after some more records were emitted. -/
def emitAll (log : Log α) (records : List (Record α)) : Log α := records.foldl emit log

theorem emitAll_append (log : Log α) (first second : List (Record α)) :
    log.emitAll (first ++ second) = (log.emitAll first).emitAll second :=
  List.foldl_append

theorem emitAll_concat (log : Log α) (records : List (Record α)) (r : Record α) :
    log.emitAll (records ++ [r]) = (log.emitAll records).emit r :=
  emitAll_append log records [r]

end Log

/-- The size of the step to candidate `j`: the initial step, shrunk `j` times. -/
def LineSearch.stepSize [Zero α] [One α] [LT α] [LE α] [Mul α] [Magnitude α]
    (search : LineSearch α) : Nat → α
  | 0 => search.initialStep
  | j + 1 => search.stepSize j * search.shrink

namespace Descent

/-! ### The direction, name by name -/

section

variable [Zero α] [Add α] [Neg α] [Div α] [Magnitude α]

/-- How far a step of size one moves a coordinate: against its partial derivative,
in units of the sum of all absolute ones.  A coordinate without one stays. -/
def heading (gradient : Point α) (name : String) : α :=
  match gradient.get? name with
  | some g => -g / gradient.sumBy fun _ x => Magnitude.abs x
  | none => 0

theorem heading_of_get? {gradient : Point α} {name : String} {g : α}
    (found : gradient.get? name = some g) : heading gradient name = -g / absSum gradient := by
  rw [heading, found]
  rfl

/-- Only a gradient without length has no direction. -/
theorem direction?_eq_none_iff [BEq α] {gradient : Point α} :
    direction? gradient = none ↔ (absSum gradient == 0) = true := by
  unfold direction?
  split
  · rename_i zero
    simp [zero]
  · rename_i nonzero
    simp [nonzero]

theorem component_direction [BEq α] {gradient direction : Point α}
    (h : direction? gradient = some direction) (name : String) :
    direction.component name = heading gradient name := by
  unfold direction? at h
  split at h
  · cases h
  · cases h
    rw [Point.component, Bindings.get?_map, heading]
    cases gradient.get? name <;> rfl

end

/-! ### Stationary points -/

section

variable [Zero α] [One α] [LT α] [LE α] [Magnitude α]

/-- Every partial derivative is below the tolerance. -/
def Stationary (config : Config α) (gradient : Point α) : Prop :=
  ∀ name g, gradient.get? name = some g → Magnitude.abs g < config.epsilon

theorem isStationary_eq_true_iff [DecidableLT α] {config : Config α} {gradient : Point α} :
    isStationary config.epsilon gradient = true ↔ Stationary config gradient := by
  rw [isStationary, Bindings.all_eq_true_iff]
  simp only [decide_eq_true_eq, Stationary]

end

/-! ### Candidates -/

variable [Zero α] [One α] [Add α] [Sub α] [Mul α] [Neg α] [Div α] [BEq α] [LT α] [LE α]
  [Magnitude α]

/-- The decrease that is asked of a step of size one. -/
def asked (search : LineSearch α) (gradient : Point α) : α :=
  -search.control * gradient.sumBy fun name g => g * heading gradient name

/-- Candidate `j` of a search from a point. -/
def candidate (search : LineSearch α) (p gradient : Point α) (j : Nat) : Point α :=
  p.map fun name x => x + search.stepSize j * heading gradient name

omit [Sub α] [BEq α] in
theorem keys_candidate (search : LineSearch α) (p gradient : Point α) (j : Nat) :
    (candidate search p gradient j).keys = p.keys :=
  Bindings.keys_map _ p

omit [Sub α] [BEq α] in
theorem get?_candidate (search : LineSearch α) {p : Point α} (gradient : Point α) (j : Nat)
    {name : String} {x : α} (found : p.get? name = some x) :
    (candidate search p gradient j).get? name =
      some (x + search.stepSize j * heading gradient name) := by
  rw [candidate, Bindings.get?_map, found]
  rfl

section

variable {gradient direction : Point α}

omit [Sub α] in
theorem candidate_eq_advance (search : LineSearch α) (p : Point α) (j : Nat)
    (dir : direction? gradient = some direction) :
    candidate search p gradient j = advance p direction (search.stepSize j) := by
  simp only [candidate, advance, component_direction dir]

omit [Sub α] in
theorem asked_eq_slope (search : LineSearch α) (dir : direction? gradient = some direction) :
    asked search gradient = -search.control * slope gradient direction := by
  simp only [asked, slope, component_direction dir]

end

section

variable (objective : Objective α) (search : LineSearch α) (p : Point α) (cost : α)
  (gradient : Point α)

/-- Candidate `j` has a cost, but the decrease is less than asked. -/
def Insufficient (j : Nat) : Prop :=
  ∃ c, objective.cost (candidate search p gradient j) = .ok c ∧
    cost - c < search.stepSize j * asked search gradient

/-- Candidate `j` has a cost, and the decrease is not less than asked.  That is how
a NaN passes. -/
def Sufficient (j : Nat) : Prop :=
  ∃ c, objective.cost (candidate search p gradient j) = .ok c ∧
    ¬ cost - c < search.stepSize j * asked search gradient

/-- Candidate `j` is the first that will do. -/
structure FirstSufficient (j : Nat) : Prop where
  one_le : 1 ≤ j
  le_maxShrinks : j ≤ search.maxShrinks
  sufficient : Sufficient objective search p cost gradient j
  earlier : ∀ i, 1 ≤ i → i < j → Insufficient objective search p cost gradient i

/-- No candidate will do. -/
def NoneSufficient : Prop :=
  ∀ j, 1 ≤ j → j ≤ search.maxShrinks → Insufficient objective search p cost gradient j

/-- What a search from a point comes to. -/
inductive Search : Except EvalError (Option (Candidate α)) → Prop where
  | found {c : Candidate α} (first : FirstSufficient objective search p cost gradient c.shrinks)
      (point_eq : c.point = candidate search p gradient c.shrinks)
      (cost_eq : objective.cost c.point = .ok c.cost)
      (stepSize_eq : c.stepSize = search.stepSize c.shrinks) : Search (.ok (some c))
  | stalled (fails : NoneSufficient objective search p cost gradient) : Search (.ok none)
  | failed {e : EvalError} (j : Nat)
      (cost_eq : objective.cost (candidate search p gradient j) = .error e) : Search (.error e)

end

section

variable {objective : Objective α} {search : LineSearch α} {p gradient : Point α} {cost : α}

theorem not_insufficient_of_sufficient {j : Nat}
    (h : Sufficient objective search p cost gradient j) :
    ¬ Insufficient objective search p cost gradient j := by
  rintro ⟨c, hc, less⟩
  obtain ⟨c', hc', notLess⟩ := h
  rw [hc] at hc'
  cases hc'
  exact notLess less

theorem not_noneSufficient_of_first {j : Nat}
    (h : FirstSufficient objective search p cost gradient j) :
    ¬ NoneSufficient objective search p cost gradient := by
  intro fails
  exact not_insufficient_of_sufficient h.sufficient (fails j h.one_le h.le_maxShrinks)

/-- There is only one first candidate. -/
theorem FirstSufficient.unique {i j : Nat} (hi : FirstSufficient objective search p cost gradient i)
    (hj : FirstSufficient objective search p cost gradient j) : i = j := by
  rcases Nat.lt_trichotomy i j with less | same | less
  · exact absurd (hj.earlier i hi.one_le less) (not_insufficient_of_sufficient hi.sufficient)
  · exact same
  · exact absurd (hi.earlier j hj.one_le less) (not_insufficient_of_sufficient hj.sufficient)

end

/-! ### The search -/

/-- What a search writes on looking at its first candidates, of these costs, in vain. -/
def rejected (search : LineSearch α) (costs : List α) : List (Record α) :=
  costs.mapIdx fun k c => .candidate (k + 1) (search.stepSize (k + 1)) c true

/-- What a search writes that settles on the candidate after those. -/
def settled (search : LineSearch α) (costs : List α) (cost : α) : List (Record α) :=
  rejected search costs ++
    [.candidate (costs.length + 1) (search.stepSize (costs.length + 1)) cost false]

omit [Add α] [Sub α] [Neg α] [Div α] [BEq α] in
theorem rejected_concat (search : LineSearch α) (costs : List α) (c : α) :
    rejected search (costs ++ [c]) = rejected search costs ++
      [.candidate (costs.length + 1) (search.stepSize (costs.length + 1)) c true] :=
  List.mapIdx_concat

section

variable (objective : Objective α) (search : LineSearch α) (p : Point α) (cost : α)
  (gradient : Point α)

/-- The first candidates of a search have these costs, and none of them will do. -/
def InVain (costs : List α) : Prop :=
  ∀ k c, costs[k]? = some c → objective.cost (candidate search p gradient (k + 1)) = .ok c ∧
    cost - c < search.stepSize (k + 1) * asked search gradient

/-- What a search comes to, and what it writes on the way. -/
inductive SearchWrites : Except EvalError (Option (Candidate α)) → List (Record α) → Prop where
  | found {costs : List α} {c : Candidate α}
      (vain : InVain objective search p cost gradient costs)
      (shrinks_eq : c.shrinks = costs.length + 1) (le_maxShrinks : c.shrinks ≤ search.maxShrinks)
      (point_eq : c.point = candidate search p gradient c.shrinks)
      (cost_eq : objective.cost c.point = .ok c.cost)
      (stepSize_eq : c.stepSize = search.stepSize c.shrinks)
      (not_less : ¬ cost - c.cost < search.stepSize c.shrinks * asked search gradient) :
      SearchWrites (.ok (some c)) (settled search costs c.cost)
  | stalled {costs : List α} (vain : InVain objective search p cost gradient costs)
      (length_eq : costs.length = search.maxShrinks) :
      SearchWrites (.ok none) (rejected search costs ++
        [.searchStalled search.maxShrinks (search.stepSize search.maxShrinks) cost])
  | failed {costs : List α} {e : EvalError}
      (vain : InVain objective search p cost gradient costs)
      (cost_eq : objective.cost (candidate search p gradient (costs.length + 1)) = .error e) :
      SearchWrites (.error e) (rejected search costs)

end

section

variable {objective : Objective α} {search : LineSearch α} {p gradient : Point α} {cost : α}

theorem inVain_nil : InVain objective search p cost gradient [] := by
  intro k c found
  cases found

theorem InVain.concat {costs : List α} (vain : InVain objective search p cost gradient costs)
    {c : α} (cost_eq : objective.cost (candidate search p gradient (costs.length + 1)) = .ok c)
    (less : cost - c < search.stepSize (costs.length + 1) * asked search gradient) :
    InVain objective search p cost gradient (costs ++ [c]) := by
  intro k c' found
  rcases Nat.lt_trichotomy k costs.length with before | rfl | after
  · rw [List.getElem?_append_left before] at found
    exact vain k c' found
  · rw [List.getElem?_concat_length, Option.some.injEq] at found
    rw [← found]
    exact ⟨cost_eq, less⟩
  · rw [List.getElem?_eq_none (by simpa using Nat.succ_le_of_lt after)] at found
    cases found

theorem InVain.insufficient {costs : List α}
    (vain : InVain objective search p cost gradient costs) {i : Nat} (one_le : 1 ≤ i)
    (le : i ≤ costs.length) : Insufficient objective search p cost gradient i := by
  obtain ⟨k, rfl⟩ := Nat.exists_eq_add_of_le' one_le
  exact ⟨costs[k], vain k costs[k] (List.getElem?_eq_getElem le)⟩

/-- **A search settles on the first candidate that will do.** -/
theorem SearchWrites.toSearch {result : Except EvalError (Option (Candidate α))}
    {records : List (Record α)}
    (written : SearchWrites objective search p cost gradient result records) :
    Search objective search p cost gradient result := by
  cases written with
  | @found costs c vain shrinks_eq le_maxShrinks point_eq cost_eq stepSize_eq not_less =>
      refine .found ⟨?_, le_maxShrinks, ⟨c.cost, ?_, not_less⟩, ?_⟩ point_eq cost_eq stepSize_eq
      · rw [shrinks_eq]
        exact Nat.le_add_left 1 costs.length
      · rw [← point_eq]
        exact cost_eq
      · intro i one_le before
        rw [shrinks_eq] at before
        exact vain.insufficient one_le (Nat.le_of_lt_succ before)
  | stalled vain length_eq =>
      refine .stalled ?_
      intro j one_le le
      rw [← length_eq] at le
      exact vain.insufficient one_le le
  | failed vain cost_eq => exact .failed _ cost_eq

end

/-- What a search has done and written while it runs.  The induction is on the candidates
that remain. -/
theorem writes_backtrack [DecidableLT α] (objective : Objective α) (search : LineSearch α)
    {p gradient direction : Point α} (cost : α) (dir : direction? gradient = some direction)
    (log : Log α) :
    ∀ (remaining : Nat) (costs : List α), costs.length + remaining = search.maxShrinks →
      InVain objective search p cost gradient costs →
      ∃ records,
        let result := backtrack objective search.shrink (.along search p cost gradient direction)
          remaining costs.length (search.stepSize costs.length)
          (log.emitAll (rejected search costs))
        SearchWrites objective search p cost gradient result.1 records ∧
          result.2 = log.emitAll records := by
  have asked_eq := (asked_eq_slope search dir).symm
  intro remaining
  induction remaining with
  | zero =>
    intro costs total vain
    rw [Nat.add_zero] at total
    refine ⟨_, .stalled vain total, ?_⟩
    rw [Log.emitAll_concat, ← total]
    rfl
  | succ remaining ih =>
    intro costs total vain
    have point_eq : advance p direction (search.stepSize costs.length * search.shrink) =
        candidate search p gradient (costs.length + 1) :=
      (candidate_eq_advance search p (costs.length + 1) dir).symm
    rw [backtrack]
    simp only [Probe.along, Probe.isInsufficient, point_eq, asked_eq]
    split
    · rename_i e he
      exact ⟨_, .failed vain he, rfl⟩
    · rename_i c cost_eq
      split
      · rename_i less
        -- One more in vain: what was written is again `rejected`, of one cost more.
        have step := ih (costs ++ [c]) (by simp; omega)
          (vain.concat cost_eq (of_decide_eq_true less))
        rw [rejected_concat, Log.emitAll_concat, List.length_append, List.length_singleton,
          Probe.along, asked_eq] at step
        rw [less]
        exact step
      · rename_i notLess
        rw [Bool.not_eq_true] at notLess
        refine ⟨_, .found vain rfl ?_ rfl cost_eq rfl (of_decide_eq_false notLess), ?_⟩
        · show costs.length + 1 ≤ search.maxShrinks
          omega
        · rw [settled, Log.emitAll_concat, notLess]
          rfl

theorem writes_lineSearch [DecidableLT α] (objective : Objective α) (search : LineSearch α)
    {p gradient direction : Point α} (cost : α) (log : Log α)
    (dir : direction? gradient = some direction) :
    ∃ records,
      let result := lineSearch search objective p cost gradient direction log
      SearchWrites objective search p cost gradient result.1 records ∧
        result.2 = log.emitAll records :=
  writes_backtrack objective search cost dir log search.maxShrinks [] (Nat.zero_add _) inVain_nil

/-! ### The turn -/

section

variable (objective : Objective α) (config : Config α) (p : Point α) (cost : α)

/-- The turn at a point gets as far as a line search. -/
structure Searches (gradient : Point α) : Prop where
  not_root : ¬ Magnitude.abs cost ≤ config.epsilon
  gradient_eq : objective.gradient p = .ok gradient
  not_stationary : ¬ Stationary config gradient
  absSum_ne_zero : (absSum gradient == 0) = false

/-- What the turn at a point comes to. -/
inductive Turns : Except SolveError (Turn α) → Prop where
  | root (small : Magnitude.abs cost ≤ config.epsilon) : Turns (.ok (.halt .converged))
  | noGradient {e : EvalError} (not_root : ¬ Magnitude.abs cost ≤ config.epsilon)
      (gradient_eq : objective.gradient p = .error e) : Turns (.error (.eval e))
  | stationary {gradient : Point α} (not_root : ¬ Magnitude.abs cost ≤ config.epsilon)
      (gradient_eq : objective.gradient p = .ok gradient)
      (flat : Stationary config gradient) : Turns (.ok (.halt .localMinimum))
  | degenerate {gradient : Point α} (not_root : ¬ Magnitude.abs cost ≤ config.epsilon)
      (gradient_eq : objective.gradient p = .ok gradient)
      (not_stationary : ¬ Stationary config gradient)
      (absSum_eq_zero : (absSum gradient == 0) = true) : Turns (.error .degenerateGradient)
  | noCost {gradient : Point α} {e : EvalError} (j : Nat)
      (searches : Searches objective config p cost gradient)
      (cost_eq : objective.cost (candidate config.lineSearch p gradient j) = .error e) :
      Turns (.error (.eval e))
  | stalled {gradient : Point α} (searches : Searches objective config p cost gradient)
      (fails : NoneSufficient objective config.lineSearch p cost gradient) :
      Turns (.ok (.halt .lineSearchStalled))
  | diverged {gradient : Point α} (j : Nat) (searches : Searches objective config p cost gradient)
      (first : FirstSufficient objective config.lineSearch p cost gradient j)
      (not_finite : (candidate config.lineSearch p gradient j).isFinite = false) :
      Turns (.ok (.halt .diverged))
  | step {gradient : Point α} {c : Candidate α}
      (searches : Searches objective config p cost gradient)
      (first : FirstSufficient objective config.lineSearch p cost gradient c.shrinks)
      (point_eq : c.point = candidate config.lineSearch p gradient c.shrinks)
      (cost_eq : objective.cost c.point = .ok c.cost)
      (stepSize_eq : c.stepSize = config.lineSearch.stepSize c.shrinks)
      (finite : c.point.isFinite = true) : Turns (.ok (.step c))

/-- What the turn after so many steps comes to, and what it writes on the way. -/
inductive Writes (iter : Nat) : Except SolveError (Turn α) → List (Record α) → Prop where
  | root (small : Magnitude.abs cost ≤ config.epsilon) : Writes iter (.ok (.halt .converged)) []
  | noGradient {e : EvalError} (not_root : ¬ Magnitude.abs cost ≤ config.epsilon)
      (gradient_eq : objective.gradient p = .error e) : Writes iter (.error (.eval e)) []
  | stationary {gradient : Point α} (not_root : ¬ Magnitude.abs cost ≤ config.epsilon)
      (gradient_eq : objective.gradient p = .ok gradient)
      (flat : Stationary config gradient) : Writes iter (.ok (.halt .localMinimum)) []
  | degenerate {gradient : Point α} (not_root : ¬ Magnitude.abs cost ≤ config.epsilon)
      (gradient_eq : objective.gradient p = .ok gradient)
      (not_stationary : ¬ Stationary config gradient)
      (absSum_eq_zero : (absSum gradient == 0) = true) :
      Writes iter (.error .degenerateGradient) []
  | noCost {gradient : Point α} {e : EvalError} {records : List (Record α)}
      (searches : Searches objective config p cost gradient)
      (written : SearchWrites objective config.lineSearch p cost gradient (.error e) records) :
      Writes iter (.error (.eval e)) records
  | stalled {gradient : Point α} {records : List (Record α)}
      (searches : Searches objective config p cost gradient)
      (written : SearchWrites objective config.lineSearch p cost gradient (.ok none) records) :
      Writes iter (.ok (.halt .lineSearchStalled)) records
  | diverged {gradient : Point α} {c : Candidate α} {records : List (Record α)}
      (searches : Searches objective config p cost gradient)
      (written : SearchWrites objective config.lineSearch p cost gradient (.ok (some c)) records)
      (not_finite : c.point.isFinite = false) :
      Writes iter (.ok (.halt .diverged)) (records ++ [.domainLeft (iter + 1) c.stepSize])
  | step {gradient : Point α} {c : Candidate α} {records : List (Record α)}
      (searches : Searches objective config p cost gradient)
      (written : SearchWrites objective config.lineSearch p cost gradient (.ok (some c)) records)
      (finite : c.point.isFinite = true) : Writes iter (.ok (.step c)) records

end

theorem Writes.toTurns {objective : Objective α} {config : Config α} {p : Point α} {cost : α}
    {iter : Nat} {result : Except SolveError (Turn α)} {records : List (Record α)}
    (writes : Writes objective config p cost iter result records) :
    Turns objective config p cost result := by
  cases writes with
  | root small => exact .root small
  | noGradient not_root gradient_eq => exact .noGradient not_root gradient_eq
  | stationary not_root gradient_eq flat => exact .stationary not_root gradient_eq flat
  | degenerate not_root gradient_eq not_stationary zero =>
      exact .degenerate not_root gradient_eq not_stationary zero
  | noCost searches written =>
      cases written.toSearch with
      | failed j cost_eq => exact .noCost j searches cost_eq
  | stalled searches written =>
      cases written.toSearch with
      | stalled fails => exact .stalled searches fails
  | @diverged _ c _ searches written not_finite =>
      cases written.toSearch with
      | found first point_eq cost_eq stepSize_eq =>
          exact .diverged c.shrinks searches first (point_eq ▸ not_finite)
  | step searches written finite =>
      cases written.toSearch with
      | found first point_eq cost_eq stepSize_eq =>
          exact .step searches first point_eq cost_eq stepSize_eq finite

variable [DecidableLT α] [DecidableLE α]

/-- **A turn takes one of the eight ways.** -/
theorem writes_turn (objective : Objective α) (config : Config α) (iter : Nat) (p : Point α)
    (cost : α) (log : Log α) :
    ∃ records,
      let result := turn objective config iter p cost log
      Writes objective config p cost iter result.1 records ∧ result.2 = log.emitAll records := by
  unfold turn
  split
  · rename_i small
    exact ⟨[], .root (of_decide_eq_true small), rfl⟩
  rename_i large
  have not_root : ¬ Magnitude.abs cost ≤ config.epsilon := by
    intro small
    exact large (decide_eq_true small)
  split
  · rename_i e he
    exact ⟨[], .noGradient not_root he, rfl⟩
  rename_i gradient hg
  split
  · rename_i flat
    exact ⟨[], .stationary not_root hg (isStationary_eq_true_iff.mp flat), rfl⟩
  rename_i steep
  have not_stationary : ¬ Stationary config gradient := by
    intro flat
    exact steep (isStationary_eq_true_iff.mpr flat)
  split
  · rename_i noDirection
    exact ⟨[], .degenerate not_root hg not_stationary (direction?_eq_none_iff.mp noDirection), rfl⟩
  rename_i direction dir
  have absSum_ne_zero : (absSum gradient == 0) = false := by
    rw [← Bool.not_eq_true, ← direction?_eq_none_iff, dir]
    exact Option.some_ne_none direction
  have searches : Searches objective config p cost gradient :=
    ⟨not_root, hg, not_stationary, absSum_ne_zero⟩
  obtain ⟨records, written, log_eq⟩ :=
    writes_lineSearch objective config.lineSearch cost log dir (p := p)
  split
  · rename_i e log' he
    rw [he] at written log_eq
    exact ⟨records, .noCost searches written, log_eq⟩
  · rename_i log' he
    rw [he] at written log_eq
    exact ⟨records, .stalled searches written, log_eq⟩
  · rename_i c log' he
    rw [he] at written log_eq
    split
    · rename_i finite
      exact ⟨records, .step searches written finite, log_eq⟩
    · rename_i not_finite
      rw [Bool.not_eq_true] at not_finite
      refine ⟨_, .diverged searches written not_finite, ?_⟩
      rw [Log.emitAll_concat, ← log_eq]

theorem turns_turn (objective : Objective α) (config : Config α) (iter : Nat) (p : Point α)
    (cost : α) (log : Log α) :
    Turns objective config p cost (turn objective config iter p cost log).1 := by
  obtain ⟨records, written, -⟩ := writes_turn objective config iter p cost log
  exact written.toTurns

/-! ### What a turn depends on

Neither the log nor the number of steps taken has a say in what a turn comes to. -/

omit [Neg α] [Div α] [LE α] [Magnitude α] [DecidableLE α] in
theorem backtrack_fst (objective : Objective α) (shrink : α) (probe : Probe α) :
    ∀ (remaining shrinks : Nat) (stepSize : α) (log log' : Log α),
      (backtrack objective shrink probe remaining shrinks stepSize log).1 =
        (backtrack objective shrink probe remaining shrinks stepSize log').1 := by
  intro remaining
  induction remaining with
  | zero => intro shrinks stepSize log log'; rfl
  | succ remaining ih =>
    intro shrinks stepSize log log'
    unfold backtrack
    simp only []
    split
    · rfl
    · split
      · exact ih _ _ _ _
      · rfl

theorem turn_fst (objective : Objective α) (config : Config α) (iter iter' : Nat) (p : Point α)
    (cost : α) (log log' : Log α) :
    (turn objective config iter p cost log).1 = (turn objective config iter' p cost log').1 := by
  unfold turn
  split
  · rfl
  split
  · rfl
  rename_i gradient _
  split
  · rfl
  split
  · rfl
  rename_i direction _
  have same : (lineSearch config.lineSearch objective p cost gradient direction log).1 =
      (lineSearch config.lineSearch objective p cost gradient direction log').1 :=
    backtrack_fst objective _ _ _ _ _ log log'
  revert same
  rcases lineSearch config.lineSearch objective p cost gradient direction log with ⟨found, after⟩
  rcases lineSearch config.lineSearch objective p cost gradient direction log' with
    ⟨found', after'⟩
  rintro ⟨⟩
  rcases found with e | none | c
  · rfl
  · rfl
  · by_cases finite : c.point.isFinite = true
    · simp [finite]
    · simp [finite]

/-- A turn at a root is over at once. -/
theorem turn_of_root (objective : Objective α) {config : Config α} (iter : Nat) (p : Point α)
    {cost : α} (log : Log α) (root : isRoot config cost = true) :
    turn objective config iter p cost log = (.ok (.halt .converged), log) := by
  rw [turn, if_pos root]

end Descent

end Downhill
