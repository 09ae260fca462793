import Tarpit.Traffic.Visit

/-!
# Snapshots

The totals, the counts and the latest visits at one moment, and the JSON text in
which they outlive the process.
-/

namespace Tarpit.Traffic

open Tarpit.Time (Timestamp)
open Tarpit.Json (Value required? optional? orNull? namedMembers?)

/-- Counts by label.  Each label stands in the list once. -/
abbrev Counts := List (String × Nat)

/-- The counts with the count of one label set. -/
def Counts.set (counts : Counts) (label : String) (n : Nat) : Counts :=
  if counts.any fun c => c.1 == label then
    counts.map fun c => if c.1 == label then (label, n) else c
  else counts ++ [(label, n)]

/-- The state of the statistics at one moment.  The latest visits stand with the oldest first. -/
structure Snapshot where
  startTime : Timestamp
  totalRequests : Nat
  keyCounts : Counts
  agentCounts : Counts
  recent : List Visit
  deriving DecidableEq, Repr

namespace Snapshot

def countsValue (counts : Counts) : Value :=
  Value.ofMembers (counts.map fun c => (c.1, Value.count c.2))

/-- The counts behind those read so far.  The last of several counts of a label holds. -/
def countsFrom? (counts : Counts) : List (String × Value) → Option Counts
  | [] => some counts
  | m :: rest =>
      match m.2.count? with
      | some n => countsFrom? (counts.set m.1 n) rest
      | none => none

def counts? : Value → Option Counts
  | .object members => (namedMembers? members).bind (countsFrom? [])
  | _ => none

def visits? : Value → Option (List Visit)
  | .array items => items.mapM Visit.ofJson?
  | _ => none

def toJson (s : Snapshot) : Value :=
  Value.ofMembers
    [("startTime", Visit.timeValue s.startTime), ("totalRequests", Value.count s.totalRequests),
      ("ipCounts", countsValue s.keyCounts), ("userAgents", countsValue s.agentCounts),
      ("recentRequests", .array (s.recent.map Visit.toJson))]

/-- The snapshot that the members of an object describe.  Only the start time is required. -/
def ofMembers? (members : List (String × Value)) : Option Snapshot := do
  let startTime ← required? members "startTime" Visit.time?
  let totalRequests ← optional? members "totalRequests" 0 Value.count?
  let keyCounts ← optional? members "ipCounts" [] (orNull? [] counts?)
  let agentCounts ← optional? members "userAgents" [] (orNull? [] counts?)
  let recent ← optional? members "recentRequests" [] (orNull? [] visits?)
  some ⟨startTime, totalRequests, keyCounts, agentCounts, recent⟩

/-- Reads the first item of an array, with a default where the array is at its end. -/
def item? {α : Type} (items : List Value) (default : α) (read : Value → Option α) : Option α :=
  match items with
  | [] => some default
  | v :: _ => read v

/-- The snapshot that the fields in their order describe; fields at the end may be missing. -/
def ofItems? (items : List Value) : Option Snapshot := do
  let startTime ← items.head?.bind Visit.time?
  let totalRequests ← item? (items.drop 1) 0 Value.count?
  let keyCounts ← item? (items.drop 2) [] (orNull? [] counts?)
  let agentCounts ← item? (items.drop 3) [] (orNull? [] counts?)
  let recent ← item? (items.drop 4) [] (orNull? [] visits?)
  if items.length ≤ 5 then some ⟨startTime, totalRequests, keyCounts, agentCounts, recent⟩
  else none

def ofJson? : Value → Option Snapshot
  | .object members => (namedMembers? members).bind ofMembers?
  | .array items => ofItems? items
  | _ => none

def encode (s : Snapshot) : Bytes :=
  s.toJson.pretty

def decode? (s : Bytes) : Option Snapshot :=
  (Value.parse? s).bind ofJson?

end Snapshot

theorem Counts.labels_set (counts : Counts) (label : String) (n : Nat) :
    (counts.set label n).map Prod.fst =
      if label ∈ counts.map Prod.fst then counts.map Prod.fst
      else counts.map Prod.fst ++ [label] := by
  unfold Counts.set
  by_cases h : label ∈ counts.map Prod.fst
  · have hany : (counts.any fun c => c.1 == label) = true := by
      simpa [List.any_eq_true] using h
    rw [if_pos hany, if_pos h, List.map_map]
    apply List.map_congr_left
    intro c hc
    by_cases hlabel : c.1 = label
    · simp [hlabel]
    · simp [hlabel]
  · have hany : ¬ (counts.any fun c => c.1 == label) = true := by
      simpa [List.any_eq_true] using h
    rw [if_neg hany, if_neg h]
    simp

end Tarpit.Traffic
