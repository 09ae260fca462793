import Tarpit.Traffic.Store

/-!
# Charts

Ranked labels with their counts as series to draw, with long user agents cut to
a length that a chart has room for.
-/

namespace Tarpit.Traffic

open Tarpit.Json (Value)

def ellipsis : List Char := ['.', '.', '.']

/-- A label of at most `max` characters; a longer one is cut and ends in the mark. -/
def truncateLabel (label : List Char) (max : Nat) : List Char :=
  if label.length ≤ max then label
  else if max ≤ ellipsis.length then ellipsis.take max
  else label.take (max - ellipsis.length) ++ ellipsis

def truncatedLabel (label : String) (max : Nat) : String :=
  String.ofList (truncateLabel label.toList max)

/-- Labels and the counts that belong to them. -/
structure Series where
  labels : List String
  data : List Nat
  deriving DecidableEq, Repr

/-- The series of ranked labels.  With a length given, labels are cut to it. -/
def Series.of (ranked : List Ranked) (max : Option Nat) : Series :=
  { labels := ranked.map fun r => match max with
      | some n => truncatedLabel r.label n
      | none => r.label
    data := ranked.map Ranked.count }

def Series.toJson (s : Series) : Value :=
  Value.ofMembers
    [("labels", .array (s.labels.map Value.text)), ("data", .array (s.data.map Value.count))]

/-- The chart of the busiest clients and the commonest user agents. -/
structure Chart where
  topKeys : Series
  topAgents : Series
  deriving DecidableEq, Repr

namespace Chart

/-- The chart of a store.  Client keys are never cut. -/
def of (s : Store) (patience : Patience) (n max : Nat) : Except Failure Chart := do
  let keys ← s.topKeys patience n
  let agents ← s.topAgents patience.next n
  .ok ⟨.of keys none, .of agents (some max)⟩

def toJson (c : Chart) : Value :=
  Value.ofMembers [("topIPs", c.topKeys.toJson), ("topUserAgents", c.topAgents.toJson)]

def encode (c : Chart) : Bytes :=
  c.toJson.compact

end Chart

theorem length_truncateLabel (label : List Char) (max : Nat) :
    (truncateLabel label max).length = min label.length max := by
  unfold truncateLabel
  split
  · next h => omega
  · next h =>
      have hdots : ellipsis.length = 3 := rfl
      split
      · rw [List.length_take]
        omega
      · rw [List.length_append, List.length_take]
        omega

theorem truncateLabel_eq_self {label : List Char} {max : Nat} (h : label.length ≤ max) :
    truncateLabel label max = label := by
  simp [truncateLabel, h]

theorem length_labels_of (ranked : List Ranked) (max : Option Nat) :
    (Series.of ranked max).labels.length = (Series.of ranked max).data.length := by
  simp [Series.of]

end Tarpit.Traffic
