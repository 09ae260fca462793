import Tarpit.Rate.Limiter
import Tarpit.Time.Ticker

/-!
# Sweeping in the background

A limiter with tasks that sweep it once per period until they are stopped.
Sweeps that fell due while nobody looked all happen at the present instant, one
after the other.
-/

namespace Tarpit.Rate

open Tarpit.Time (Ticker)

variable {R : Type} [Level R]

/-- The limiter after several sweeps at one instant. -/
def Limiter.sweptTimes (l : Limiter R) (now : Instant) : Nat → Limiter R
  | 0 => l
  | n + 1 => (l.swept now).sweptTimes now n

/--
A limiter with its clock and its sweeping tasks.  The running time, in
milliseconds, is what the periods of the tasks are counted in.
-/
structure Swept (R : Type) where
  limiter : Limiter R
  now : Instant
  running : Nat
  sweepers : List Ticker
  stopped : Bool

namespace Swept

def start (limiter : Limiter R) (now : Instant) : Swept R :=
  ⟨limiter, now, 0, [], false⟩

/-- Requests of a client now, with the answers in order. -/
def allowTimes (s : Swept R) (key : String) (n : Nat) : List Bool × Swept R :=
  let (answers, limiter) := s.limiter.allowTimes key s.now n
  (answers, { s with limiter })

def sweep (s : Swept R) : Nat × Swept R :=
  let (removed, limiter) := s.limiter.sweep s.now
  (removed, { s with limiter })

/-- Moves the clock, forward or back, without time passing for the tasks. -/
def moveClock (s : Swept R) (nanos : Int) : Swept R :=
  { s with now := s.now + nanos }

/-- Starts a task.  One without a period ends at once, and so does one after a stop. -/
def startSweeper (s : Swept R) (period : Nat) : Swept R :=
  if s.stopped ∨ period = 0 then s else { s with sweepers := s.sweepers ++ [.start period s.running] }

/-- Lets time pass.  Then each task sweeps once for each of its ticks that fell due. -/
def advance (s : Swept R) (ms : Nat) : Swept R :=
  let now := s.now + (ms * 1000000 : Nat)
  let running := s.running + ms
  { s with
    limiter := s.sweepers.foldl (fun l t => l.sweptTimes now (t.ticks running)) s.limiter
    now
    running
    sweepers := s.sweepers.map fun t => t.advance running }

def stop (s : Swept R) : Swept R :=
  { s with sweepers := [], stopped := true }

def allEnded (s : Swept R) : Bool :=
  s.sweepers.isEmpty

omit [Level R] in
theorem allEnded_stop (s : Swept R) : s.stop.allEnded = true := rfl

/-- After a stop time passes without a sweep. -/
theorem limiter_advance_stop (s : Swept R) (ms : Nat) :
    (s.stop.advance ms).limiter = s.limiter := rfl

end Swept

end Tarpit.Rate
