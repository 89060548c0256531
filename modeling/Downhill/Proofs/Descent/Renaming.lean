/-
Descents under other names.

A renaming that keeps the order of the names changes nothing in a descent but the names.  All
that a turn computes from a gradient are sums in name order and look-ups by name; so the line
search of the renamed run looks at the renamed candidates, computes the same costs bit for bit,
and settles on the same step (`backtrack_rename`, `turn_rename`).  Every function of the run is
shown to commute with renaming, from the inside out; nothing is said about the numbers, whose
operations may be any at all.

An observer of the renamed run sees renamed events.  So it has to be compared with the observer
that renames what it sees: `solve_rename`.
-/
import Downhill.Proofs.Descent.Course
import Downhill.Proofs.Expr.Renaming
import Downhill.Proofs.Expr.Variables

namespace Downhill

variable {α σ : Type}

/-! ### What a run leaves behind, under other names -/

/-- The same points under new names. -/
def Trajectory.rename (f : Renaming) (t : Trajectory α) : Trajectory α where
  start := t.start.rename f
  later := t.later.map (Bindings.rename f)

theorem Trajectory.toList_rename (f : Renaming) (t : Trajectory α) :
    (t.rename f).toList = t.toList.map (Bindings.rename f) := by
  simp [rename, toList]

theorem Trajectory.startingAt_rename (f : Renaming) (p : Point α) :
    startingAt (p.rename f) = (startingAt p).rename f := by
  simp [rename, startingAt]

theorem Trajectory.last_rename (f : Renaming) (t : Trajectory α) :
    (t.rename f).last = t.last.rename f := by
  rw [last, last, rename, Array.back?_map]
  cases t.later.back? <;> rfl

theorem Trajectory.push_rename (f : Renaming) (t : Trajectory α) (p : Point α) :
    (t.rename f).push (p.rename f) = (t.push p).rename f := by
  simp [rename, push]

/-- The same error about the new name. -/
def SolveError.rename (f : Renaming) : SolveError → SolveError
  | eval e => eval (e.rename f)
  | degenerateGradient => degenerateGradient

/-- The same event at the renamed point. -/
def Event.rename (f : Renaming) (e : Event α) : Event α := { e with point := e.point.rename f }

/-- The same solution along the renamed points. -/
def Solution.rename (f : Renaming) (s : Solution α) : Solution α :=
  { s with trajectory := s.trajectory.rename f }

/-- The same report, with the names changed in its result.  Logs hold no names. -/
def Report.rename (f : Renaming) (r : Report α σ) : Report α σ :=
  { r with result := (r.result.mapError (SolveError.rename f)).map (Solution.rename f) }

namespace Descent

/-- The same candidate at the renamed point. -/
def Candidate.rename (f : Renaming) (c : Candidate α) : Candidate α :=
  { c with point := c.point.rename f }

/-- The same probe from the renamed start along the renamed direction. -/
def Probe.rename (f : Renaming) (probe : Probe α) : Probe α :=
  { probe with start := probe.start.rename f, direction := probe.direction.rename f }

/-- The same turn to a renamed candidate. -/
def Turn.rename (f : Renaming) : Turn α → Turn α
  | halt status => halt status
  | step c => step (c.rename f)

/-- The same progress along the renamed points. -/
def Progress.rename (f : Renaming) (s : Progress α σ) : Progress α σ :=
  { s with trajectory := s.trajectory.rename f }

variable (f : Renaming)

/-! ### Directions -/

theorem isStationary_rename [LT α] [DecidableLT α] [Magnitude α] (epsilon : α) (g : Point α) :
    isStationary epsilon (g.rename f) = isStationary epsilon g :=
  g.all_rename fun _ _ => rfl

theorem absSum_rename [Zero α] [Add α] [Magnitude α] (g : Point α) :
    absSum (g.rename f) = absSum g :=
  g.sumBy_rename fun _ _ => rfl

theorem direction?_rename [Zero α] [Add α] [Neg α] [Div α] [BEq α] [Magnitude α] (g : Point α) :
    direction? (g.rename f) = (direction? g).map (Bindings.rename f) := by
  rw [direction?, direction?, absSum_rename]
  split
  · rfl
  · exact congrArg some (g.map_rename fun _ _ => rfl)

theorem slope_rename [Zero α] [Add α] [Mul α] (g d : Point α) :
    slope (g.rename f) (d.rename f) = slope g d :=
  g.sumBy_rename fun name x => congrArg (x * ·) (d.component_rename f name)

theorem advance_rename [Zero α] [Add α] [Mul α] (p d : Point α) (stepSize : α) :
    advance (p.rename f) (d.rename f) stepSize = (advance p d stepSize).rename f :=
  p.map_rename fun name x => congrArg (x + stepSize * ·) (d.component_rename f name)

/-! ### One turn -/

section

variable [Zero α] [One α] [Add α] [Sub α] [Mul α] [BEq α] [LT α] [DecidableLT α]

/-- **The search for the renamed objective looks at the renamed candidates.** -/
theorem backtrack_rename (e : Expr α) (shrink : α) (probe : Probe α) (remaining shrinks : Nat)
    (stepSize : α) (log : Log α) :
    backtrack (.ofExpr (e.rename f)) shrink (probe.rename f) remaining shrinks stepSize log =
      (backtrack (.ofExpr e) shrink probe remaining shrinks stepSize log).map
        (fun found => (found.mapError (EvalError.rename f)).map (Option.map (Candidate.rename f)))
        id := by
  induction remaining generalizing shrinks stepSize log with
  | zero => rfl
  | succ remaining ih =>
      have cost_eq : (Objective.ofExpr (e.rename f)).cost
          (advance (probe.rename f).start (probe.rename f).direction (stepSize * shrink)) =
          ((Objective.ofExpr e).cost
            (advance probe.start probe.direction (stepSize * shrink))).mapError
              (EvalError.rename f) := by
        rw [Probe.rename, advance_rename]
        exact e.eval_rename f _
      rw [backtrack, backtrack]
      dsimp only
      rw [cost_eq]
      cases (Objective.ofExpr e).cost (advance probe.start probe.direction (stepSize * shrink)) with
      | error err => rfl
      | ok cost =>
          have same : (probe.rename f).isInsufficient (stepSize * shrink) cost =
            probe.isInsufficient (stepSize * shrink) cost := rfl
          dsimp only [Except.mapError]
          rw [same]
          split
          · exact ih _ _ _
          · rw [Probe.rename, advance_rename]
            rfl

variable [Neg α] [Div α] [LE α] [DecidableLE α] [Magnitude α]

/-- **A turn from the renamed point comes to the renamed turn**, and logs the same. -/
theorem turn_rename (e : Expr α) (config : Config α) (iter : Nat) (p : Point α) (cost : α)
    (log : Log α) :
    turn (.ofExpr (e.rename f)) config iter (p.rename f) cost log =
      (turn (.ofExpr e) config iter p cost log).map
        (fun found => (found.mapError (SolveError.rename f)).map (Turn.rename f)) id := by
  rw [turn, turn]
  split
  · rfl
  rw [Objective.gradient_rename]
  cases (Objective.ofExpr e).gradient p with
  | error err => rfl
  | ok g =>
      dsimp only [Except.mapError, Except.map]
      rw [isStationary_rename, direction?_rename]
      split
      · rfl
      cases direction? g with
      | none => rfl
      | some d =>
          dsimp only [Option.map_some]
          have probe_eq : Probe.along config.lineSearch (p.rename f) cost (g.rename f)
              (d.rename f) = (Probe.along config.lineSearch p cost g d).rename f := by
            rw [Probe.along, slope_rename]
            rfl
          rw [lineSearch, lineSearch, probe_eq, backtrack_rename]
          rcases backtrack (.ofExpr e) config.lineSearch.shrink
            (.along config.lineSearch p cost g d) config.lineSearch.maxShrinks 0
            config.lineSearch.initialStep log with ⟨err | none | c, log'⟩
          · rfl
          · rfl
          · have finite_eq : (c.rename f).point.isFinite = c.point.isFinite :=
              c.point.isFinite_rename f
            dsimp only [Prod.map, Except.mapError, Except.map, Option.map_some]
            rw [finite_eq]
            split <;> rfl

end

/-! ### The run -/

namespace Progress

theorem event_rename (s : Progress α σ) : (s.rename f).event = s.event.rename f := by
  rw [event, rename, Trajectory.last_rename]
  rfl

theorem accept_rename (s : Progress α σ) (c : Candidate α) :
    (s.rename f).accept (c.rename f) = (s.accept c).rename f := by
  simp only [accept, rename, Candidate.rename, Trajectory.push_rename]

/-- An observer of the renamed run answers as the observer does that renames what it sees. -/
theorem observed_rename (observer : Observer (Event α) σ) (s : Progress α σ)
    {next next' : Progress α σ → Report α σ} (h : ∀ s, next' (s.rename f) = (next s).rename f) :
    (s.rename f).observed observer next' =
      (s.observed (observer.comap (Event.rename f)) next).rename f := by
  have same_state : (s.rename f).observer = s.observer := rfl
  have comap_next : (observer.comap (Event.rename f)).next s.observer s.event =
    observer.next s.observer (s.event.rename f) := rfl
  rw [observed, observed, event_rename, same_state, comap_next]
  rcases observer.next s.observer (s.event.rename f) with ⟨state, _ | _⟩
  · exact h { s with observer := state }
  · rfl

end Progress

section

variable [Zero α] [One α] [Add α] [Sub α] [Mul α] [Neg α] [Div α] [BEq α] [LT α] [LE α]
  [DecidableLT α] [DecidableLE α] [Magnitude α]

/-- **The renamed run goes on along the renamed points.** -/
theorem descend_rename (e : Expr α) (config : Config α) (observer : Observer (Event α) σ)
    (remaining : Nat) (s : Progress α σ) :
    descend (.ofExpr (e.rename f)) config observer remaining (s.rename f) =
      (descend (.ofExpr e) config (observer.comap (Event.rename f)) remaining s).rename f := by
  induction remaining generalizing s with
  | zero => rfl
  | succ remaining ih =>
      have turn_eq : turn (.ofExpr (e.rename f)) config (s.rename f).iters
          (s.rename f).trajectory.last (s.rename f).cost (s.rename f).log =
          (turn (.ofExpr e) config s.iters s.trajectory.last s.cost s.log).map
            (fun found => (found.mapError (SolveError.rename f)).map (Turn.rename f)) id := by
        rw [← turn_rename, ← Trajectory.last_rename]
        rfl
      rw [descend, descend, turn_eq]
      rcases turn (.ofExpr e) config s.iters s.trajectory.last s.cost s.log with
        ⟨err | status | c, log⟩
      · rfl
      · rfl
      · have accepted := Progress.accept_rename f { s with log } c
        exact (congrArg (Progress.observed observer · _) accepted).trans
          (Progress.observed_rename f observer _ ih)

end

end Descent

section

variable [Zero α] [One α] [Add α] [Sub α] [Mul α] [Neg α] [Div α] [BEq α] [LT α] [LE α]
  [DecidableLT α] [DecidableLE α] [Magnitude α] (f : Renaming)

/-- **A solve under other names is the solve, renamed.**  The observer that it is compared with
renames what it sees; it answers alike and ends in the same state, and the log is the same. -/
theorem solve_rename (e : Expr α) (start : Point α) (config : Config α)
    (observer : Observer (Event α) σ) (state : σ) (log : Log α) :
    solve (.ofExpr (e.rename f)) (start.rename f) config observer state log =
      (solve (.ofExpr e) start config (observer.comap (Event.rename f)) state log).rename f := by
  have cost_eq : (Objective.ofExpr (e.rename f)).cost (start.rename f) =
      ((Objective.ofExpr e).cost start).mapError (EvalError.rename f) := e.eval_rename f start
  rw [solve, solve, cost_eq]
  cases (Objective.ofExpr e).cost start with
  | error err => rfl
  | ok cost =>
      dsimp only [Except.mapError]
      rw [Trajectory.startingAt_rename]
      exact Descent.Progress.observed_rename f observer
        ⟨.startingAt start, cost, 0, state, log.emit (.descentStarted cost)⟩
        (Descent.descend_rename f e config observer config.maxIters)

/-- **Solving commutes with renaming.**  From the renamed start, the renamed objective has the
same solution along the renamed points, or the same error about the new name, bit for bit and
whatever the numbers do; and an observer sees the same events at the renamed points. -/
theorem solve_equivariant (e : Expr α) (start : Point α) (config : Config α) :
    solveUnobserved (.ofExpr (e.rename f)) (start.rename f) config =
        ((solveUnobserved (.ofExpr e) start config).mapError (SolveError.rename f)).map
          (Solution.rename f) ∧
      ∀ (σ : Type) (observer : Observer (Event α) σ) (state : σ) (log : Log α),
        solve (.ofExpr (e.rename f)) (start.rename f) config observer state log =
          (solve (.ofExpr e) start config (observer.comap (Event.rename f)) state
            log).rename f := by
  refine ⟨?_, fun σ observer => solve_rename f e start config observer⟩
  rw [solveUnobserved, solve_rename]
  rfl

end

namespace Descent

/-- The slope of the bowl over `vx` and `vy`, and a start that binds the first of them only. -/
theorem solve_equivariant_bowl :
    (∃ s, solveUnobserved (.ofExpr (bowl.expr.rename (.withPrefix "v")))
        (.ofList [("vx", 1), ("vy", 2)]) .standard = .ok s ∧
      s.status = .converged ∧ s.iters = 3 ∧ ∀ p ∈ s.trajectory.toList, p.keys = ["vx", "vy"]) ∧
    solveUnobserved (.ofExpr (bowl.expr.rename (.withPrefix "v"))) (.ofList [("vx", 1)])
      .standard = .error (.eval (.unbound "vy")) := by
  have solved : (solveUnobserved (.ofExpr bowl.expr) slopePoint .standard).toOption.any (fun s =>
      s.status == .converged && s.iters == 3 &&
        s.trajectory.toList.all (·.keys == ["x", "y"])) = true := by
    decide +kernel
  have failed : (Objective.ofExpr bowl.expr).cost (.ofList [("x", 1)]) = .error (.unbound "y") :=
    Expr.eval_eq_error_iff.mpr (by decide +kernel)
  have start_eq : slopePoint.rename (.withPrefix "v") = .ofList [("vx", 1), ("vy", 2)] := by
    rw [slopePoint, Bindings.rename_ofList]
    rfl
  refine ⟨?_, ?_⟩
  · obtain ⟨s, hs, tested⟩ := exists_ok_of_any solved
    obtain ⟨renamed, -⟩ := solve_equivariant (.withPrefix "v") bowl.expr slopePoint .standard
    rw [start_eq, hs] at renamed
    simp only [Bool.and_eq_true, beq_iff_eq, List.all_eq_true] at tested
    obtain ⟨⟨converged, three⟩, keys⟩ := tested
    refine ⟨_, renamed, converged, three, ?_⟩
    intro p mem
    obtain ⟨q, mem', rfl⟩ := List.mem_map.mp (Trajectory.toList_rename _ s.trajectory ▸ mem)
    rw [Bindings.keys_rename, keys q mem']
    rfl
  · obtain ⟨renamed, -⟩ := solve_equivariant (.withPrefix "v") bowl.expr (.ofList [("x", 1)])
      .standard
    rw [Bindings.rename_ofList] at renamed
    refine renamed.trans ?_
    rw [solveUnobserved, solve_of_error _ failed]
    rfl

end Descent

end Downhill
