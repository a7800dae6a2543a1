import SvServer.Path

/-!
Passes that wait for a quiet period. Every scheduled pass has a ticket; scheduling a file again
cancels the pass that was waiting for it.
-/

namespace SvServer

/-- The passes that wait, and what became of those before them. -/
structure Debounce where
  /-- The ticket of the waiting pass, by file -/
  pending : PathMap Nat
  /-- Tickets handed out so far -/
  issued : Nat
  /-- Tickets whose passes must not run any more -/
  cancelled : List Nat

namespace Debounce

def empty : Debounce := ⟨∅, 0, []⟩

instance : Inhabited Debounce := ⟨empty⟩

/-- Whether the pass of a ticket must not run any more. -/
def isCancelled (debounce : Debounce) (ticket : Nat) : Bool := debounce.cancelled.contains ticket

/-- Number of passes that wait. -/
def pendingCount (debounce : Debounce) : Nat := debounce.pending.size

/-- Cancels the pass that waits for a file, if there is one. -/
def cancel (debounce : Debounce) (path : Path) : Debounce :=
  match debounce.pending[path]? with
  | none => debounce
  | some ticket =>
    { debounce with
      pending := debounce.pending.erase path
      cancelled := ticket :: debounce.cancelled }

/-- Schedules a pass for a file. Its ticket is the number of tickets handed out before. -/
def schedule (debounce : Debounce) (path : Path) : Debounce :=
  let cleared := debounce.cancel path
  { cleared with
    pending := cleared.pending.insert path cleared.issued
    issued := cleared.issued + 1 }

/-- Notes that the pass of a file begins. -/
def complete (debounce : Debounce) (path : Path) : Debounce :=
  { debounce with pending := debounce.pending.erase path }

/-- Cancels every waiting pass. -/
def cancelAll (debounce : Debounce) : Debounce :=
  { debounce with
    pending := ∅
    cancelled := debounce.pending.values ++ debounce.cancelled }

/-- For every ticket handed out, in order, whether it is cancelled. -/
def cancellations (debounce : Debounce) : List Bool :=
  (List.range debounce.issued).map debounce.isCancelled

end Debounce

end SvServer
