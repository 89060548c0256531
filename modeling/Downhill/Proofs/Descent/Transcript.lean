/-
What a solve writes to its log.

A turn writes down the candidates of its search and, if the search was to no avail, a warning
(`SearchWrites`, `Writes`).  The run adds a record of the step that it takes, or of its end.

So a log is read like this: a descent has begun; a block of candidates and an accepted step
for each event after the first (`Narrates`); and how the run ended at the last event
(`Closing`).  `solve_transcript` says that the log of every solve can be read so, and that
what it says agrees with the solution and with what was shown to the observer.

The records name what happened.  The level, the message and the fields with which each of them
is written stand in a table of their own (`Record.ReadsAs`), and no solve writes a record that
is not in it.
-/
import Downhill.Proofs.Descent.Succession

namespace Downhill

/-! ### Logs -/

namespace Log

variable {α : Type}

theorem threshold_emit (log : Log α) (r : Record α) : (log.emit r).threshold = log.threshold := by
  unfold emit
  split <;> rfl

/-- A log keeps those records that it admits. -/
theorem toList_records_emitAll (records : List (Record α)) :
    ∀ log : Log α, (log.emitAll records).records.toList =
      log.records.toList ++ records.filter fun r => log.admits r.level := by
  induction records with
  | nil => intro log; simp [emitAll]
  | cons r rest ih =>
      intro log
      have admits_eq : (log.emit r).admits = log.admits := by
        unfold admits
        rw [threshold_emit]
      show ((log.emit r).emitAll rest).records.toList = _
      rw [ih, admits_eq, emit, List.filter_cons]
      split
      · simp
      · rfl

/-- A log that keeps even the least severe level keeps everything. -/
theorem toList_records_of_trace {log : Log α} (all : log.threshold = some .trace)
    (records : List (Record α)) :
    (log.emitAll records).records.toList = log.records.toList ++ records := by
  have admits : ∀ level, log.admits level = true := by
    intro level
    rw [Log.admits, all]
    cases level <;> rfl
  simp [toList_records_emitAll, admits]

end Log

/-! ### Records -/

namespace Record

variable {α : Type}

theorem level_descentEnded_eq_warn_iff {status : Status} {cost : α} {iters : Nat} :
    (descentEnded status cost iters).level = .warn ↔
      status = .diverged ∨ status = .lineSearchStalled ∨ status = .maxIters := by
  cases status <;> simp [level, Status.isWarning]

/-- How the records of a descent read: at which level, with which message and with which fields.
Records of batches and grids are not among them. -/
inductive ReadsAs : Record α → Level → String → List (String × FieldValue α) → Prop where
  | descentStarted (cost : α) :
      ReadsAs (.descentStarted cost) .debug "starting gradient descent" [("cost", .number cost)]
  | candidate (shrinks : Nat) (stepSize cost : α) (insufficient : Bool) :
      ReadsAs (.candidate shrinks stepSize cost insufficient) .trace "line search candidate"
        [("shrinks", .count shrinks), ("step_size", .number stepSize), ("cost", .number cost),
          ("insufficient", .flag insufficient)]
  | searchStalled (shrinks : Nat) (stepSize startCost : α) :
      ReadsAs (.searchStalled shrinks stepSize startCost) .warn "line search stalled"
        [("shrinks", .count shrinks), ("step_size", .number stepSize),
          ("start_cost", .number startCost)]
  | domainLeft (step : Nat) (stepSize : α) :
      ReadsAs (.domainLeft step stepSize) .warn "step left the finite domain"
        [("step", .count step), ("step_size", .number stepSize)]
  | stepAccepted (step : Nat) (cost stepSize : α) (shrinks : Nat) :
      ReadsAs (.stepAccepted step cost stepSize shrinks) .debug "accepted step"
        [("step", .count step), ("cost", .number cost), ("step_size", .number stepSize),
          ("shrinks", .count shrinks)]
  | stoppedShort {status : Status} (cost : α) (iters : Nat)
      (short : status = .diverged ∨ status = .lineSearchStalled ∨ status = .maxIters) :
      ReadsAs (.descentEnded status cost iters) .warn "gradient descent stopped without a root"
        [("status", .status status), ("cost", .number cost), ("iters", .count iters)]
  | finished {status : Status} (cost : α) (iters : Nat)
      (answered : status = .converged ∨ status = .localMinimum ∨ status = .stoppedByObserver) :
      ReadsAs (.descentEnded status cost iters) .debug "gradient descent finished"
        [("status", .status status), ("cost", .number cost), ("iters", .count iters)]

theorem readsAs_descentEnded (status : Status) (cost : α) (iters : Nat) :
    let r := descentEnded status cost iters
    r.ReadsAs r.level r.message r.fields := by
  cases status with
  | diverged | lineSearchStalled | maxIters => exact .stoppedShort cost iters (by simp)
  | converged | localMinimum | stoppedByObserver => exact .finished cost iters (by simp)

end Record

namespace Descent

variable {α σ : Type} [Zero α] [One α] [Add α] [Sub α] [Mul α] [Neg α] [Div α] [BEq α]
  [LT α] [LE α] [Magnitude α]

/-! ### The grammar of a log -/

section

variable (objective : Objective α) (config : Config α)

/-- What a run writes between two events, one step apart. -/
def Accepts (e e' : Event α) (records : List (Record α)) : Prop :=
  ∃ c written, Writes objective config e.point e.cost e.step (.ok (.step c)) written ∧
    e' = e.next c ∧ records = written ++ [.stepAccepted e'.step e'.cost c.stepSize c.shrinks]

/-- Each block of records is what a run writes between an event and the next. -/
structure Narrates (events : List (Event α)) (blocks : List (List (Record α))) : Prop where
  length_eq : events.length = blocks.length + 1
  accepts : ∀ k e e' records, events[k]? = some e → events[k + 1]? = some e' →
    blocks[k]? = some records → Accepts objective config e e' records

/-- What a run writes after its last event, by how it ends. -/
inductive Closing (e : Event α) : Except SolveError Status → List (Record α) → Prop where
  | plain {status : Status} (not_stalled : status ≠ .lineSearchStalled)
      (not_diverged : status ≠ .diverged) :
      Closing e (.ok status) [.descentEnded status e.cost e.step]
  | stalled {records : List (Record α)}
      (writes : Writes objective config e.point e.cost e.step (.ok (.halt .lineSearchStalled))
        records) :
      Closing e (.ok .lineSearchStalled)
        (records ++ [.descentEnded .lineSearchStalled e.cost e.step])
  | diverged {records : List (Record α)}
      (writes : Writes objective config e.point e.cost e.step (.ok (.halt .diverged)) records) :
      Closing e (.ok .diverged) (records ++ [.descentEnded .diverged e.cost e.step])
  | degenerate : Closing e (.error .degenerateGradient) []

end

section

variable {objective : Objective α} {config : Config α}

theorem narrates_singleton (e : Event α) : Narrates objective config [e] [] := by
  refine ⟨rfl, ?_⟩
  intro k _ _ records _ _ found
  cases found

theorem Narrates.cons {e e' : Event α} {events : List (Event α)} {records : List (Record α)}
    {blocks : List (List (Record α))} (head : events.head? = some e')
    (accepts : Accepts objective config e e' records)
    (rest : Narrates objective config events blocks) :
    Narrates objective config (e :: events) (records :: blocks) := by
  refine ⟨congrArg (· + 1) rest.length_eq, ?_⟩
  intro k e₁ e₂ records' here next block
  cases k with
  | zero =>
      rw [List.head?_eq_getElem?] at head
      cases here
      cases block
      cases head.symm.trans next
      exact accepts
  | succ k => exact rest.accepts k e₁ e₂ records' here next block

/-- A run that has a status says so at last. -/
theorem Closing.exists_append {e : Event α} {status : Status} {records : List (Record α)}
    (closes : Closing objective config e (.ok status) records) :
    ∃ earlier, records = earlier ++ [.descentEnded status e.cost e.step] := by
  cases closes with
  | plain not_stalled not_diverged => exact ⟨[], rfl⟩
  | stalled writes | diverged writes => exact ⟨_, rfl⟩

/-- How a run closes that a turn ends. -/
theorem closing_of_halt {e : Event α} {status : Status} {records : List (Record α)}
    (writes : Writes objective config e.point e.cost e.step (.ok (.halt status)) records) :
    Closing objective config e (.ok status)
      (records ++ [.descentEnded status e.cost e.step]) := by
  cases writes with
  | root | stationary => exact .plain (by decide) (by decide)
  | stalled searches written => exact .stalled (.stalled searches written)
  | diverged searches written not_finite => exact .diverged (.diverged searches written not_finite)

/-! ### How a log reads

A descent writes records of its own only, so the lines of its log are those of `Record.ReadsAs`.
Each of the relations that say what is written gives its part. -/

omit [Add α] [Sub α] [Neg α] [Div α] [BEq α] in
theorem readsAs_of_mem_rejected (search : LineSearch α) (costs : List α) :
    ∀ r ∈ rejected search costs, r.ReadsAs r.level r.message r.fields := by
  intro r mem
  obtain ⟨k, inside, rfl⟩ := List.mem_mapIdx.mp mem
  exact .candidate _ _ _ _

theorem SearchWrites.readsAs {search : LineSearch α} {p gradient : Point α} {cost : α}
    {result : Except EvalError (Option (Candidate α))} {records : List (Record α)}
    (written : SearchWrites objective search p cost gradient result records) :
    ∀ r ∈ records, r.ReadsAs r.level r.message r.fields := by
  cases written with
  | found =>
      rw [settled, List.forall_mem_append, List.forall_mem_singleton]
      exact ⟨readsAs_of_mem_rejected search _, .candidate _ _ _ _⟩
  | stalled =>
      rw [List.forall_mem_append, List.forall_mem_singleton]
      exact ⟨readsAs_of_mem_rejected search _, .searchStalled _ _ _⟩
  | failed => exact readsAs_of_mem_rejected search _

theorem Writes.readsAs {p : Point α} {cost : α} {iter : Nat}
    {result : Except SolveError (Turn α)} {records : List (Record α)}
    (writes : Writes objective config p cost iter result records) :
    ∀ r ∈ records, r.ReadsAs r.level r.message r.fields := by
  cases writes with
  | root | noGradient | stationary | degenerate => exact List.forall_mem_nil _
  | noCost _ written | stalled _ written | step _ written => exact written.readsAs
  | diverged _ written =>
      rw [List.forall_mem_append, List.forall_mem_singleton]
      exact ⟨written.readsAs, .domainLeft _ _⟩

theorem Accepts.readsAs {e e' : Event α} {records : List (Record α)}
    (accepts : Accepts objective config e e' records) :
    ∀ r ∈ records, r.ReadsAs r.level r.message r.fields := by
  obtain ⟨c, written, writes, -, rfl⟩ := accepts
  rw [List.forall_mem_append, List.forall_mem_singleton]
  exact ⟨writes.readsAs, .stepAccepted _ _ _ _⟩

/-- Each block is written between two events. -/
theorem Narrates.exists_accepts {events : List (Event α)} {blocks : List (List (Record α))}
    (narrates : Narrates objective config events blocks) {records : List (Record α)}
    (mem : records ∈ blocks) : ∃ e e', Accepts objective config e e' records := by
  obtain ⟨k, inside, rfl⟩ := List.getElem_of_mem mem
  have length_eq := narrates.length_eq
  have here : k < events.length := by omega
  have next : k + 1 < events.length := by omega
  exact ⟨_, _, narrates.accepts k _ _ _ (List.getElem?_eq_getElem here)
    (List.getElem?_eq_getElem next) (List.getElem?_eq_getElem inside)⟩

theorem Narrates.readsAs {events : List (Event α)} {blocks : List (List (Record α))}
    (narrates : Narrates objective config events blocks) :
    ∀ r ∈ blocks.flatten, r.ReadsAs r.level r.message r.fields := by
  intro r mem
  obtain ⟨records, block, inside⟩ := List.mem_flatten.mp mem
  obtain ⟨e, e', accepts⟩ := narrates.exists_accepts block
  exact accepts.readsAs r inside

theorem Closing.readsAs {e : Event α} {ending : Except SolveError Status}
    {records : List (Record α)} (closes : Closing objective config e ending records) :
    ∀ r ∈ records, r.ReadsAs r.level r.message r.fields := by
  cases closes with
  | plain =>
      rw [List.forall_mem_singleton]
      exact Record.readsAs_descentEnded _ _ _
  | stalled writes | diverged writes =>
      rw [List.forall_mem_append, List.forall_mem_singleton]
      exact ⟨writes.readsAs, Record.readsAs_descentEnded _ _ _⟩
  | degenerate => exact List.forall_mem_nil _

end

/-! ### Runs -/

variable [DecidableLT α] [DecidableLE α] {objective : Objective α} {config : Config α}

theorem writes_of_turn {iter : Nat} {p : Point α} {cost : α} {log log' : Log α}
    {result : Except SolveError (Turn α)}
    (turn_eq : turn objective config iter p cost log = (result, log')) :
    ∃ records, Writes objective config p cost iter result records ∧
      log' = log.emitAll records := by
  have written := writes_turn objective config iter p cost log
  rw [turn_eq] at written
  exact written

/-- **What a run writes is read off its course.** -/
theorem Run.transcript {observer : Observer (Event α) σ} {n : Nat} {s : Progress α σ}
    {r : Report α σ} (run : Run objective config observer n s r)
    (cost_eq : objective.cost s.trajectory.last = .ok s.cost) :
    let K := (course objective config n s.trajectory.last s.cost).under observer s.observer s.event
    ∃ blocks closing, r.log = s.log.emitAll (blocks.flatten ++ closing) ∧
      Narrates objective config (K.events s.event) blocks ∧
      Closing objective config (K.steps.foldl Event.next s.event) K.ending closing := by
  induction run with
  | @stopped n s state verdict =>
      simp only [Course.under_of_stop verdict, Course.events_nil]
      exact ⟨[], _, rfl, narrates_singleton _, .plain (by decide) (by decide)⟩
  | @spent s state verdict =>
      simp only [course, Course.under_nil verdict, Course.events_nil]
      refine ⟨[], [.descentEnded (if isRoot config s.cost then .converged else .maxIters) s.cost
        s.iters], rfl, narrates_singleton _, ?_⟩
      split
      · exact .plain (by decide) (by decide)
      · exact .plain (by decide) (by decide)
  | @failed n s state e log verdict turn_eq =>
      have outcome_eq := outcome_of_turn turn_eq
      obtain ⟨records, written, rfl⟩ := writes_of_turn turn_eq
      simp only [course_of_error outcome_eq n, Course.under_nil verdict, Course.events_nil]
      -- The last point has a cost, so no evaluation fails there.
      cases written with
      | noGradient | noCost => exact absurd outcome_eq (outcome_ne_eval cost_eq config _)
      | degenerate => exact ⟨[], [], rfl, narrates_singleton _, .degenerate⟩
  | @halted n s state status log verdict turn_eq =>
      obtain ⟨records, written, rfl⟩ := writes_of_turn turn_eq
      simp only [course_of_halt (outcome_of_turn turn_eq) n, Course.under_nil verdict,
        Course.events_nil]
      refine ⟨[], _, ?_, narrates_singleton _, closing_of_halt written⟩
      exact (Log.emitAll_concat _ _ _).symm
  | @stepped n s state c log r verdict turn_eq rest ih =>
      obtain ⟨records, written, rewrites⟩ := writes_of_turn turn_eq
      simp only [course_of_step (outcome_of_turn turn_eq) n, Course.under_cons verdict,
        Course.events_cons]
      have last_eq : (Progress.accept { s with observer := state, log } c).trajectory.last =
          c.point := Trajectory.last_push s.trajectory c.point
      rw [last_eq, Progress.event_accept] at ih
      have accepted : (Progress.accept { s with observer := state, log } c).log = s.log.emitAll
          (records ++ [.stepAccepted (s.iters + 1) c.cost c.stepSize c.shrinks]) := by
        rw [Log.emitAll_concat, ← rewrites]
        rfl
      obtain ⟨blocks, closing, log_eq, narrates, closes⟩ := ih (isStep_of_turn cost_eq turn_eq).2
      refine ⟨(records ++ [.stepAccepted (s.iters + 1) c.cost c.stepSize c.shrinks]) :: blocks,
        closing, ?_, narrates.cons ?_ ⟨c, records, written, rfl, rfl⟩, closes⟩
      · rw [log_eq, accepted, ← Log.emitAll_append, List.flatten_cons,
          List.append_assoc _ blocks.flatten]
      · rw [Course.events, List.head?_scanl]

/-! ### Solves -/

theorem solve_log_of_cost {start : Point α} {cost : α} (config : Config α)
    (h : objective.cost start = .ok cost)
    (observer : Observer (Event α) σ) (state : σ) (log : Log α) :
    ∃ blocks closing e,
      (solve objective start config observer state log).log =
        log.emitAll (.descentStarted cost :: (blocks.flatten ++ closing)) ∧
      Narrates objective config (shown objective start config observer state log) blocks ∧
      (shown objective start config observer state log).getLast? = some e ∧
      Closing objective config e
        ((solve objective start config observer state log).result.map Solution.status) closing := by
  obtain ⟨blocks, closing, log_eq, narrates, closes⟩ :=
    (run_solve config observer state log h).transcript h
  obtain ⟨result_eq, -⟩ := solve_of_cost config h observer state log
  rw [shown_of_cost h, result_eq, Course.map_status_result]
  exact ⟨blocks, closing, _, log_eq, narrates, List.getLast?_scanl, closes⟩

/-- **The log of a solve is a transcript of it.** -/
theorem solve_transcript (objective : Objective α) (start : Point α) (config : Config α)
    (observer : Observer (Event α) σ) (state : σ) (log : Log α) :
    let report := solve objective start config observer state log
    let seen := shown objective start config observer state log
    ∃ records, report.log = log.emitAll records ∧
      (log.threshold = some .trace →
        report.log.records.toList = log.records.toList ++ records) ∧
      (∀ r ∈ records, r.ReadsAs r.level r.message r.fields) ∧
      (∀ err, objective.cost start = .error err → records = []) ∧
      ∀ cost, objective.cost start = .ok cost → ∃ (blocks : List (List (Record α)))
        (closing : List (Record α)) (e : Event α),
        records = .descentStarted cost :: (blocks.flatten ++ closing) ∧
        Narrates objective config seen blocks ∧
        (∀ (k : Nat) (e' : Event α), seen[k]? = some e' → e'.step = k) ∧
        seen.getLast? = some e ∧
        Closing objective config e (report.result.map Solution.status) closing ∧
        ∀ s, report.result = .ok s → e = s.event ∧ blocks.length = s.iters ∧
          (∃ earlier, records = earlier ++ [.descentEnded s.status s.cost s.iters]) ∧
          ((Record.descentEnded s.status s.cost s.iters).level = .warn ↔
            s.status = .diverged ∨ s.status = .lineSearchStalled ∨ s.status = .maxIters) := by
  intro report seen
  rcases h : objective.cost start with err | cost
  · have nothing : report.log = log :=
      congrArg Report.log (solve_of_error config h observer state log)
    refine ⟨[], nothing, ?_, List.forall_mem_nil _, fun _ _ => rfl, ?_⟩
    · intro _
      rw [nothing, List.append_nil]
    · rintro cost ⟨⟩
  · obtain ⟨blocks, closing, e, log_eq, narrates, last, closes⟩ :=
      solve_log_of_cost config h observer state log
    refine ⟨_, log_eq, ?_, ?_, ?_, ?_⟩
    · intro all
      rw [← Log.toList_records_of_trace all, ← log_eq]
    · rw [List.forall_mem_cons, List.forall_mem_append]
      exact ⟨.descentStarted cost, narrates.readsAs, closes.readsAs⟩
    · rintro err ⟨⟩
    · rintro _ ⟨⟩
      refine ⟨blocks, closing, e, rfl, narrates, fun _ _ => step_of_getElem?_shown, last,
        closes, ?_⟩
      intro s hs
      have e_eq : e = s.event := Option.some.inj (last.symm.trans (getLast?_shown hs))
      have seen_length := (bookkeeping_of_ok hs).seen_length
      rw [hs, e_eq] at closes
      refine ⟨e_eq, ?_, ?_, Record.level_descentEnded_eq_warn_iff⟩
      · exact Nat.succ.inj (narrates.length_eq.symm.trans seen_length)
      · obtain ⟨earlier, rfl⟩ := closes.exists_append
        exact ⟨.descentStarted cost :: (blocks.flatten ++ earlier), by simp [Solution.event]⟩

/-- A descent into the bowl, with a log of everything. -/
def bowlReport : Report Float Unit :=
  solve bowl slopePoint .standard Observer.silent () (.upTo .trace)

/-- It takes three steps. -/
theorem solve_transcript_bowl :
    ∃ s cost blocks closing, bowlReport.result = .ok s ∧ s.iters = 3 ∧ s.status = .converged ∧
      bowlReport.log.records.toList = .descentStarted cost :: (blocks.flatten ++ closing) ∧
      Narrates bowl .standard
        (shown bowl slopePoint .standard Observer.silent () (.upTo .trace)) blocks ∧
      blocks.length = 3 ∧ Closing bowl .standard s.event (.ok .converged) closing ∧
      ∀ r ∈ bowlReport.log.records.toList, r.ReadsAs r.level r.message r.fields := by
  have solved : bowlReport.result.toOption.any
      (fun s => s.iters == 3 && s.status == .converged) = true := by decide +kernel
  unfold bowlReport at solved ⊢
  obtain ⟨s, hs, expected⟩ := exists_ok_of_any solved
  obtain ⟨three, converged⟩ := (Bool.and_eq_true _ _).mp expected
  obtain ⟨cost, cost_eq⟩ := cost_of_solve hs
  obtain ⟨records, -, everything, reads, -, transcript⟩ :=
    solve_transcript bowl slopePoint .standard Observer.silent () (.upTo .trace)
  obtain ⟨blocks, closing, e, rfl, narrates, -, -, closes, solution⟩ := transcript cost cost_eq
  obtain ⟨rfl, length_eq, -⟩ := solution s hs
  rw [hs] at closes
  refine ⟨s, cost, blocks, closing, hs, eq_of_beq three, eq_of_beq converged, everything rfl,
    narrates, length_eq.trans (eq_of_beq three), ?_, ?_⟩
  · rw [← eq_of_beq converged]
    exact closes
  · rw [everything rfl]
    exact reads

end Descent

end Downhill
