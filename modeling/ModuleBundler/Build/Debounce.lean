/-!
# Debounce

Changes of files often come in swarms.  Every change starts a timer; a timer
starts a pass when it goes off, unless another change came after its own.

Main results:

- Theorem {lit}`Debounce.advance_request_of_lt`: before a timer goes off nothing is started.
- Theorem {lit}`Debounce.advance_request_of_le`: after a quiet window a pass is started.
-/

namespace ModuleBundler
namespace Build

/-- A timer. -/
structure Timer where
  /-- When the timer goes off. -/
  deadline : Nat
  /-- The number of the change that started the timer. -/
  change : Nat
deriving DecidableEq, Repr

/-- The timers of a build; times are in milliseconds. -/
structure Debounce where
  clock : Nat := 0
  /-- How many changes there were. -/
  changes : Nat := 0
  /-- The timers that have not gone off. -/
  timers : List Timer := []
deriving DecidableEq, Repr

namespace Debounce

/-- How long it has to be quiet after a change. -/
def window : Nat := 100

/-- Take note of a change. -/
def request (debounce : Debounce) : Debounce :=
  { debounce with
    changes := debounce.changes + 1
    timers := debounce.timers ++ [⟨debounce.clock + window, debounce.changes + 1⟩] }

/-- Let time pass.  The first part of the result says whether a pass has to be started. -/
def advance (debounce : Debounce) (milliseconds : Nat) : Bool × Debounce :=
  let clock := debounce.clock + milliseconds
  let due := debounce.timers.filter fun timer => decide (timer.deadline ≤ clock)
  (due.any fun timer => timer.change == debounce.changes,
    { debounce with
      clock
      timers := debounce.timers.filter fun timer => decide (clock < timer.deadline) })

theorem advance_request_of_le (debounce : Debounce) {milliseconds : Nat} (h : window ≤ milliseconds) :
    (debounce.request.advance milliseconds).1 = true := by
  simp [advance, request, h]

theorem advance_request_of_lt {debounce : Debounce} (h : debounce.timers = []) {milliseconds : Nat}
    (hlt : milliseconds < window) : (debounce.request.advance milliseconds).1 = false := by
  simp [advance, request, h, Nat.not_le.2 hlt]

end Debounce
end Build
end ModuleBundler
