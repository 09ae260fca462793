import Tarpit.Time.Calendar

/-!
# Timestamps

An instant of universal time as whole seconds since the epoch and nanoseconds
upward from the second.  A leap second is told apart by a count of at least
`10 ^ 9` nanoseconds on the second before it.
-/

namespace Tarpit.Time

/-- An instant of universal time. -/
structure Timestamp where
  seconds : Int
  nanos : Nat
  deriving DecidableEq, Repr

namespace Timestamp

def nanosPerSecond : Nat := 1000000000

def secondsPerDay : Int := 86400

def before (s t : Timestamp) : Bool :=
  s.seconds < t.seconds || (s.seconds == t.seconds && s.nanos < t.nanos)

def latest (s t : Timestamp) : Timestamp :=
  if s.before t then t else s

def day (t : Timestamp) : Int :=
  t.seconds / secondsPerDay

/-- The second of the day, from 0 to 86399. -/
def secondOfDay (t : Timestamp) : Nat :=
  (t.seconds % secondsPerDay).toNat

def isLeapSecond (t : Timestamp) : Bool :=
  nanosPerSecond ≤ t.nanos

/-- The first and the last year with timestamps. -/
def firstYear : Int := -262143

def lastYear : Int := 262142

def yearInRange (year : Int) : Bool :=
  firstYear ≤ year && year ≤ lastYear

/--
The instants there are: a year in range, less than a second of nanoseconds, and
one second more of them only on the last second of a minute.
-/
def Representable (t : Timestamp) : Prop :=
  yearInRange (dateOfDay t.day).year = true ∧
    (t.nanos < nanosPerSecond ∨ (t.nanos < 2 * nanosPerSecond ∧ t.seconds % 60 = 59))

instance (t : Timestamp) : Decidable t.Representable := by
  unfold Representable
  infer_instance

/-- A clock that stands at the instant can be read: it is not before the epoch and in range. -/
def isReadable (t : Timestamp) : Bool :=
  0 ≤ t.seconds && yearInRange (dateOfDay t.day).year

def toNanos (t : Timestamp) : Int :=
  t.seconds * 1000000000 + t.nanos

/-- The instant a number of nanoseconds after the epoch. -/
def ofNanos (n : Int) : Timestamp :=
  ⟨n / 1000000000, (n % 1000000000).toNat⟩

def plusNanos (t : Timestamp) (n : Int) : Timestamp :=
  if n = 0 then t else ofNanos (t.toNanos + n)

/-- A span of time that is not negative. -/
structure Span where
  seconds : Nat
  nanos : Nat
  deriving DecidableEq, Repr

/--
The span from one instant to a later one, nothing if it is not later.  A leap
second counts when it lies between the two times of day.
-/
def since (t start : Timestamp) : Span :=
  let adjust : Int :=
    if start.secondOfDay < t.secondOfDay then (if start.isLeapSecond then 1 else 0)
    else if t.secondOfDay < start.secondOfDay then (if t.isLeapSecond then -1 else 0)
    else 0
  let seconds := t.seconds - start.seconds + adjust
  let total := seconds * 1000000000 + ((t.nanos : Int) - (start.nanos : Int))
  if total < 0 then ⟨0, 0⟩
  else ⟨(total / 1000000000).toNat, (total % 1000000000).toNat⟩

theorem before_irrefl (t : Timestamp) : t.before t = false := by
  simp [before]

theorem before_trans {s t u : Timestamp} (hst : s.before t = true) (htu : t.before u = true) :
    s.before u = true := by
  simp only [before, Bool.or_eq_true, decide_eq_true_eq, Bool.and_eq_true, beq_iff_eq] at *
  omega

end Timestamp

/-- A clock that can be read, at the instant at which it stands. -/
structure Clock where
  time : Timestamp
  readable : time.isReadable = true
  deriving DecidableEq, Repr

namespace Clock

def of? (t : Timestamp) : Option Clock :=
  if h : t.isReadable = true then some ⟨t, h⟩ else none

/-- The clock some nanoseconds later; behind the last year that it can tell it stands still. -/
def later (c : Clock) (nanos : Nat) : Clock :=
  (of? (c.time.plusNanos nanos)).getD c

end Clock

end Tarpit.Time
