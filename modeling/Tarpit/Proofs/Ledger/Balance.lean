import Tarpit.Proofs.Ledger.Record

/-!
# Tables in balance

The tables after some visits were recorded: how the log, the counts and the
totals hang together.
-/

namespace Tarpit.Traffic

open Tarpit.Time (Timestamp)

namespace Ledger

/-- The tables hold exactly the given visits, each counted by its key and its user agent. -/
structure Holds (l : Ledger) (visits : List Visit) : Prop where
  total_eq : l.total = visits.length
  log_eq : l.log = visits.map clamped
  keys : Tabulates l.keys (l.log.map Visit.clientKey)
  agents : Tabulates l.agents (l.log.map Visit.userAgent)

theorem holds_empty (start : Timestamp) : Holds (empty start) [] :=
  ⟨rfl, rfl, tabulates_nil, tabulates_nil⟩

theorem Holds.recorded {l : Ledger} {visits : List Visit} (h : Holds l visits) (v : Visit) :
    Holds (recorded v l) (visits ++ [v]) := by
  constructor
  · simp [Ledger.recorded, h.total_eq]
  · simp [Ledger.recorded, h.log_eq]
  · have hkeys := h.keys.countLabel (clamped v).clientKey v.timestamp
    simpa [Ledger.recorded] using hkeys
  · have hagents := h.agents.countLabel (clamped v).userAgent v.timestamp
    simpa [Ledger.recorded] using hagents

theorem Holds.adoptStart {l : Ledger} {visits : List Visit} (h : Holds l visits)
    (time : Timestamp) : Holds (l.adoptStart time).2 visits := by
  unfold Ledger.adoptStart
  split
  · exact ⟨h.total_eq, h.log_eq, h.keys, h.agents⟩
  · exact h

/-- The number of logged visits with a label. -/
def loggedWith (l : Ledger) (field : Visit → String) (label : String) : Nat :=
  (l.log.filter fun v => field v == label).length

/--
The rows of a table of counts agree with the log: one row for each label that occurs in the field,
with the number of its occurrences.
-/
structure CountsLog (l : Ledger) (rows : List CountRow) (field : Visit → String) : Prop where
  one_row : (rows.map CountRow.label).Nodup
  row_iff : ∀ label, (∃ r ∈ rows, r.label = label) ↔ ∃ v ∈ l.log, field v = label
  count_eq : ∀ r ∈ rows, r.count = l.loggedWith field r.label
  sum_eq : (rows.map CountRow.count).sum = l.log.length

/-- The tables agree with each other and with the visits that were recorded. -/
structure Balanced (l : Ledger) (visits : List Visit) : Prop where
  log_eq : l.log = visits.map clamped
  total_eq_log : l.total = l.log.length
  total_eq_visits : l.total = visits.length
  keys : CountsLog l l.keys Visit.clientKey
  agents : CountsLog l l.agents Visit.userAgent
  unique_keys : l.summary.uniqueKeys =
    (visits.map fun v => clamp maxKeyLength v.clientKey).toFinset.card
  unique_agents : l.summary.uniqueAgents =
    (visits.map fun v => clamp maxAgentLength v.userAgent).toFinset.card

theorem countsLog_of_tabulates {l : Ledger} {rows : List CountRow} {field : Visit → String}
    (h : Tabulates rows (l.log.map field)) : CountsLog l rows field := by
  constructor
  · exact h.distinct
  · intro label
    have hiff := h.labels_iff label
    simpa only [List.mem_map] using hiff
  · intro r hr
    rw [h.count_eq r hr, loggedWith, List.count, List.countP_map, List.countP_eq_length_filter]
    rfl
  · rw [h.sum_eq, List.length_map]

theorem Holds.balanced {l : Ledger} {visits : List Visit} (h : Holds l visits) :
    Balanced l visits := by
  have hlength : l.log.length = visits.length := by rw [h.log_eq, List.length_map]
  refine ⟨h.log_eq, ?_, h.total_eq, countsLog_of_tabulates h.keys, countsLog_of_tabulates h.agents,
    ?_, ?_⟩
  · rw [h.total_eq, hlength]
  · have hrows := h.keys.length_eq
    rw [h.log_eq, List.map_map] at hrows
    exact hrows
  · have hrows := h.agents.length_eq
    rw [h.log_eq, List.map_map] at hrows
    exact hrows

end Ledger

end Tarpit.Traffic
