/-
Observers of a running computation.

An observer is a state machine that is fed the events of a run, one after the
other, and says after each whether the run may go on.  Its state is a value that
the run hands back at the end, which is how what it saw gets out.
-/
namespace Downhill

/-- An observer's answer to an event. -/
inductive Verdict where
  /-- The run may go on. -/
  | proceed
  /-- The run is to stop here. -/
  | stop
  deriving DecidableEq, Repr

/-- A state machine over events of type `ε` with states of type `σ`. -/
structure Observer (ε σ : Type) where
  /-- The state after an event, and the verdict on it. -/
  next : σ → ε → σ × Verdict

namespace Observer

variable {ε ε' σ τ : Type}

/-- The observer that sees nothing and never stops a run. -/
def silent : Observer ε Unit := ⟨fun s _ => (s, .proceed)⟩

/-- Stops a run at every event that passes a test. -/
def stopWhen (p : ε → Bool) : Observer ε Unit := ⟨fun s e => (s, if p e then .stop else .proceed)⟩

/-- The same observer, fed a reading of each event instead of the event. -/
def comap (read : ε' → ε) (o : Observer ε σ) : Observer ε' σ := ⟨fun s e => o.next s (read e)⟩

/-- The same observer, which also keeps every event that it is shown. -/
def recording (o : Observer ε σ) : Observer ε (σ × Array ε) where
  next := fun (s, seen) e =>
    let (s, verdict) := o.next s e
    ((s, seen.push e), verdict)

end Observer

end Downhill
