/-
Observers that are fed a list of events.

A run feeds its observer one event at a time and ends when the observer says stop.
Here the events come as a list.  `firstStop?` is the place of the first event at which
an observer would end the run, and `feed` is the state in which the events leave it.

A recording observer answers as the one inside it does, so what it has kept at the end
is what either of them was shown.
-/
import Downhill.Observer.Reading
import Mathlib.Data.List.Chain

namespace Downhill

namespace Observer

variable {ε σ : Type}

/-- The state after some events. -/
def feed (o : Observer ε σ) (state : σ) (events : List ε) : σ :=
  events.foldl (fun s e => (o.next s e).1) state

/-- The place, counted from zero, of the first event at which the observer says stop. -/
def firstStop? (o : Observer ε σ) : σ → List ε → Option Nat
  | _, [] => none
  | state, e :: rest =>
    match o.next state e with
    | (_, .stop) => some 0
    | (state, .proceed) => (o.firstStop? state rest).map (· + 1)

@[simp] theorem feed_nil (o : Observer ε σ) (state : σ) : o.feed state [] = state := rfl

@[simp] theorem feed_cons (o : Observer ε σ) (state : σ) (e : ε) (rest : List ε) :
    o.feed state (e :: rest) = o.feed (o.next state e).1 rest := rfl

section

variable {o : Observer ε σ} {state state' : σ} {e : ε}

theorem firstStop?_of_stop (h : o.next state e = (state', .stop)) (rest : List ε) :
    o.firstStop? state (e :: rest) = some 0 := by
  simp [firstStop?, h]

theorem firstStop?_of_proceed (h : o.next state e = (state', .proceed)) (rest : List ε) :
    o.firstStop? state (e :: rest) = (o.firstStop? state' rest).map (· + 1) := by
  simp [firstStop?, h]

end

theorem firstStop?_lt (o : Observer ε σ) :
    ∀ (events : List ε) (state : σ) {k : Nat}, o.firstStop? state events = some k →
      k < events.length := by
  intro events
  induction events with
  | nil => intro state k h; cases h
  | cons e rest ih =>
      intro state k h
      rcases verdict : o.next state e with ⟨state', proceed | stop⟩
      · rw [firstStop?_of_proceed verdict, Option.map_eq_some_iff] at h
        obtain ⟨j, hj, rfl⟩ := h
        exact Nat.succ_lt_succ (ih state' hj)
      · rw [firstStop?_of_stop verdict] at h
        cases h
        exact Nat.succ_pos _

/-- Where an observer stops does not depend on what would come after. -/
theorem firstStop?_take (o : Observer ε σ) :
    ∀ (events : List ε) (state : σ) {k : Nat}, o.firstStop? state events = some k →
      o.firstStop? state (events.take (k + 1)) = some k := by
  intro events
  induction events with
  | nil => intro state k h; cases h
  | cons e rest ih =>
      intro state k h
      rcases verdict : o.next state e with ⟨state', proceed | stop⟩
      · rw [firstStop?_of_proceed verdict, Option.map_eq_some_iff] at h
        obtain ⟨j, hj, rfl⟩ := h
        rw [List.take_succ_cons, firstStop?_of_proceed verdict, ih state' hj, Option.map_some]
      · rw [firstStop?_of_stop verdict] at h
        cases h
        exact firstStop?_of_stop verdict _

/-- An observer that never says stop lets every event pass. -/
theorem firstStop?_eq_none (o : Observer ε σ) (h : ∀ state e, (o.next state e).2 = .proceed) :
    ∀ (events : List ε) (state : σ), o.firstStop? state events = none := by
  intro events
  induction events with
  | nil => intro state; rfl
  | cons e rest ih =>
      intro state
      rw [firstStop?_of_proceed (Prod.ext rfl (h state e)), ih, Option.map_none]

/-! ### What a recording observer keeps -/

/-- Recording does not change the answers. -/
theorem firstStop?_recording (o : Observer ε σ) :
    ∀ (events : List ε) (state : σ) (seen : Array ε),
      o.recording.firstStop? (state, seen) events = o.firstStop? state events := by
  intro events
  induction events with
  | nil => intro state seen; rfl
  | cons e rest ih =>
      intro state seen
      rcases verdict : o.next state e with ⟨state', proceed | stop⟩
      · have recorded : o.recording.next (state, seen) e = ((state', seen.push e), .proceed) := by
          simp [recording, verdict]
        rw [firstStop?_of_proceed verdict, firstStop?_of_proceed recorded, ih]
      · have recorded : o.recording.next (state, seen) e = ((state', seen.push e), .stop) := by
          simp [recording, verdict]
        rw [firstStop?_of_stop verdict, firstStop?_of_stop recorded]

/-- **A recording observer keeps exactly what it is fed.** -/
theorem feed_recording (o : Observer ε σ) :
    ∀ (events : List ε) (state : σ) (seen : Array ε),
      o.recording.feed (state, seen) events = (o.feed state events, seen ++ events.toArray) := by
  intro events
  induction events with
  | nil => intro state seen; simp
  | cons e rest ih =>
      intro state seen
      rw [feed_cons, feed_cons]
      show o.recording.feed ((o.next state e).1, seen.push e) rest = _
      rw [ih]
      simp

end Observer

/-- A cost history that is fed events keeps the step and the cost of each. -/
theorem CostHistory.entries_feed {α ε : Type} (read : ε → Reading α) :
    ∀ (events : List ε) (h : CostHistory α),
      ((CostHistory.observer.comap read).feed h events).entries.toList =
        h.entries.toList ++ events.map read := by
  intro events
  induction events with
  | nil => intro h; simp
  | cons e rest ih =>
      intro h
      rw [Observer.feed_cons]
      show ((CostHistory.observer.comap read).feed (h.push (read e)) rest).entries.toList = _
      rw [ih]
      simp [CostHistory.push]

/-- A history is monotone when its costs are a falling chain. -/
theorem CostHistory.isMonotone_eq_true_iff {α : Type} [LE α] [DecidableLE α] {h : CostHistory α} :
    h.isMonotone = true ↔ h.costs.IsChain fun before after => after ≤ before := by
  rw [isMonotone]
  induction h.costs with
  | nil => simp
  | cons c rest ih =>
      cases rest with
      | nil => simp
      | cons c' rest =>
          rw [List.isChain_cons_cons, ← ih]
          simp

end Downhill
