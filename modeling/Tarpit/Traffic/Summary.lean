import Tarpit.Time.Timestamp

/-!
# Summaries

The totals that every store keeps, and what they are at one moment.
-/

namespace Tarpit.Traffic

open Tarpit.Time (Timestamp)

/-- The totals of a store. -/
structure Summary where
  startTime : Timestamp
  totalRequests : Nat
  uniqueKeys : Nat
  uniqueAgents : Nat
  deriving DecidableEq, Repr

/-- The time since the start of the statistics. -/
def Summary.uptime (s : Summary) (now : Timestamp) : Timestamp.Span :=
  now.since s.startTime

end Tarpit.Traffic
