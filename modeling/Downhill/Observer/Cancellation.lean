/-
Stopping runs from outside.

A cancellation handle can be cloned, and all clones share one flag: cancelling
any of them cancels them all, for good.  Handles are numbered in the order in
which they were made.  A run that is observed by a handle stops at its next event
once the flag is up.
-/
import Downhill.Observer.Basic

namespace Downhill

/-- Some cancellation handles and the flags behind them. -/
structure Handles where
  /-- For each handle, the flag that it shares with its clones. -/
  flagOf : Array Nat
  /-- The flags that are up. -/
  raised : List Nat

namespace Handles

/-- No handle has been made. -/
def empty : Handles := ⟨#[], []⟩

/-- Makes a handle with a flag of its own.  No handle has that flag yet, since
there are at most as many flags as handles. -/
def create (h : Handles) : Handles := { h with flagOf := h.flagOf.push h.flagOf.size }

/-- Makes a handle that shares the flag of handle `i`. -/
def clone (h : Handles) (i : Nat) : Handles :=
  match h.flagOf[i]? with
  | some flag => { h with flagOf := h.flagOf.push flag }
  | none => h

/-- Raises the flag of handle `i`. -/
def cancel (h : Handles) (i : Nat) : Handles :=
  match h.flagOf[i]? with
  | some flag => { h with raised := flag :: h.raised }
  | none => h

/-- Whether the flag of handle `i` is up. -/
def isCancelled (h : Handles) (i : Nat) : Bool :=
  match h.flagOf[i]? with
  | some flag => h.raised.contains flag
  | none => false

/-- Whether the flag is up, for each handle. -/
def cancelled (h : Handles) : List Bool := (List.range h.flagOf.size).map h.isCancelled

end Handles

namespace Observer

variable {ε : Type}

/-- The observer that a handle is: its state is the flag, and it stops the run at
any event that finds the flag up. -/
def cancellable : Observer ε Bool :=
  ⟨fun flag _ => (flag, if flag then .stop else .proceed)⟩

/-- A handle whose flag goes up by itself at the events that pass a test, just
before the handle looks at it. -/
def cancellableWhen (p : ε → Bool) : Observer ε Bool :=
  ⟨fun flag e => cancellable.next (flag || p e) e⟩

end Observer

end Downhill
