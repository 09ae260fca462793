import Tarpit.Traffic.Snapshot
import Tarpit.Traffic.Summary
import Tarpit.Traffic.Tally

/-!
# Bounded statistics

Statistics that never outgrow their limits: two tallies with ceilings and a
window on the latest visits.  The number of all visits is one word, as the counts
of the tallies are.
-/

namespace Tarpit.Traffic

open Tarpit.Time (Timestamp)

/-- How much is kept. -/
structure Limits where
  keys : Nat := 10000
  agents : Nat := 1000
  recent : Nat := 100
  deriving DecidableEq, Repr

def lastN {α : Type} (n : Nat) (items : List α) : List α :=
  items.drop (items.length - n)

/-- The items after the foremost ones were taken away, one by one while there are more than `n`. -/
def window {α : Type} (n : Nat) : List α → List α
  | [] => []
  | x :: rest => if n < (x :: rest).length then window n rest else x :: rest

/-- The counts from the heaviest to the lightest; of equal counts the lower label comes first. -/
def rankedCounts (counts : Counts) : Counts :=
  counts.mergeSort fun a b => b.2 < a.2 || (a.2 == b.2 && !decide (b.1 < a.1))

/-- Statistics in memory.  The latest visits stand with the oldest first. -/
structure MemoryStats where
  startTime : Timestamp
  total : Nat
  keys : Tally
  agents : Tally
  recent : List Visit
  deriving DecidableEq, Repr

namespace MemoryStats

def empty (limits : Limits) (startTime : Timestamp) : MemoryStats :=
  ⟨startTime, 0, .empty limits.keys, .empty limits.agents, []⟩

def record (limits : Limits) (s : MemoryStats) (v : Visit) : MemoryStats :=
  { s with
    total := Number.wrapped (s.total + 1)
    keys := (s.keys.increment v.clientKey v.timestamp).2
    agents := (s.agents.increment v.userAgent v.timestamp).2
    recent := window limits.recent (s.recent ++ [v]) }

def summary (s : MemoryStats) : Summary :=
  ⟨s.startTime, s.total, s.keys.size, s.agents.size⟩

def recentVisits (s : MemoryStats) (n : Nat) : List Visit :=
  s.recent.reverse.take n

def toSnapshot (s : MemoryStats) : Snapshot :=
  ⟨s.startTime, s.total, s.keys.counts, s.agents.counts, s.recent⟩

/-- A tally of given counts, the heaviest first, so that a ceiling keeps the heaviest. -/
def tallyOf (limit : Nat) (counts : Counts) (time : Timestamp) : Tally :=
  (rankedCounts counts).foldl (fun t c => (t.add c.1 c.2 time).2) (.empty limit)

/-- The statistics with all but the start time taken from a snapshot. -/
def restore (limits : Limits) (s : MemoryStats) (p : Snapshot) : MemoryStats :=
  { startTime := s.startTime
    total := p.totalRequests
    keys := tallyOf limits.keys p.keyCounts p.startTime
    agents := tallyOf limits.agents p.agentCounts p.startTime
    recent := lastN limits.recent p.recent }

end MemoryStats

/-! ## Windows -/

theorem length_lastN {α : Type} (n : Nat) (items : List α) :
    (lastN n items).length = min n items.length := by
  simp [lastN]
  omega

theorem lastN_eq_self {α : Type} {n : Nat} {items : List α} (h : items.length ≤ n) :
    lastN n items = items := by
  simp [lastN, h]

/-- Taking away the foremost items one by one leaves the last few. -/
theorem window_eq_lastN {α : Type} (n : Nat) (items : List α) : window n items = lastN n items := by
  induction items with
  | nil => rw [window, lastN, List.drop_nil]
  | cons x rest ih =>
      rw [window]
      split
      · next hmore =>
          have hskip : (x :: rest).length - n = rest.length - n + 1 := by
            rw [List.length_cons] at hmore ⊢
            omega
          rw [ih, lastN, lastN, hskip, List.drop_succ_cons]
      · next hfits => exact (lastN_eq_self (Nat.le_of_not_lt hfits)).symm

/-- Keeping the last few after each of two additions is keeping the last few once. -/
theorem lastN_lastN_append {α : Type} (n : Nat) (items more : List α) :
    lastN n (lastN n items ++ more) = lastN n (items ++ more) := by
  simp only [lastN, List.length_append, List.length_drop, List.drop_append]
  by_cases h : items.length ≤ n
  · simp [show items.length - n = 0 by omega]
  · rw [List.drop_drop]
    congr 1
    · congr 1
      omega
    · congr 1
      omega

theorem MemoryStats.recent_record (limits : Limits) (s : MemoryStats) (v : Visit) :
    (s.record limits v).recent = lastN limits.recent (s.recent ++ [v]) :=
  window_eq_lastN limits.recent (s.recent ++ [v])

end Tarpit.Traffic
