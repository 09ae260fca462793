import Tarpit.Proofs.Import.Log
import Tarpit.Proofs.Ledger.Balance
import Tarpit.Proofs.Store.Recorded
import Tarpit.Proofs.Tally.Ranking
import Tarpit.Proofs.Time.Order

/-!
# Backends that agree

A memory store with room for everything and a durable store that took the same
visits answer alike, up to the order of labels with equal counts.
-/

namespace Tarpit.Traffic

open Tarpit.Time (Timestamp)

/-! ## Recording -/

/-- The limits, each of which is a word, let so many visits be kept whatever their labels are. -/
structure Limits.HasRoom (limits : Limits) (n : Nat) : Prop where
  keys : n ≤ limits.keys
  agents : n ≤ limits.agents
  recent : n ≤ limits.recent
  word : limits.recent < Number.wordBound

/-- The statistics show what the tables show, and can take some visits more. -/
structure MemoryStats.Mirrors (limits : Limits) (s : MemoryStats) (l : Ledger) (room : Nat) :
    Prop where
  total : s.total = l.total
  keys : s.keys.Mirrors l.keys room
  agents : s.agents.Mirrors l.agents room
  recent : s.recent = l.log
  room_le : s.recent.length + room ≤ limits.recent
  word : l.total + room < Number.wordBound

namespace MemoryStats.Mirrors

variable {limits : Limits} {s : MemoryStats} {l : Ledger} {room : Nat} {v : Visit}

theorem empty {n : Nat} (h : limits.HasRoom n) (now now' : Timestamp) :
    (MemoryStats.empty limits now).Mirrors limits (Ledger.empty now') n := by
  have hword : 0 + n < Number.wordBound :=
    (Nat.zero_add n).symm ▸ Nat.lt_of_le_of_lt h.recent h.word
  have hnothing : ∀ limit, n ≤ limit → (Tally.empty limit).Mirrors [] n :=
    fun limit hn => ⟨rfl, (Nat.zero_add n).symm ▸ hn, 0, by simp, hword⟩
  exact ⟨rfl, hnothing _ h.keys, hnothing _ h.agents, rfl, (Nat.zero_add n).symm ▸ h.recent, hword⟩

theorem record (h : s.Mirrors limits l (room + 1)) (hv : Ledger.clamped v = v) :
    (s.record limits v).Mirrors limits (Ledger.recorded v l) room := by
  have hroom := h.room_le
  have hword := h.word
  have hrecent : (s.record limits v).recent = s.recent ++ [v] := by
    rw [recent_record]
    exact lastN_eq_self (by rw [List.length_append, List.length_singleton]; omega)
  unfold Ledger.recorded
  rw [hv]
  refine ⟨?_, h.keys.increment _ _, h.agents.increment _ _, ?_, ?_, by simp only; omega⟩
  · show Number.wrapped (s.total + 1) = l.total + 1
    rw [h.total]
    exact Number.wrapped_of_lt (by omega)
  · rw [hrecent, h.recent]
  · rw [hrecent, List.length_append, List.length_singleton]
    omega

theorem recordAll {visits : List Visit} (h : s.Mirrors limits l visits.length)
    (hvisits : ∀ v ∈ visits, Ledger.clamped v = v) :
    (MemoryStats.recordAll limits visits s).Mirrors limits (Ledger.recordedAll visits l) 0 := by
  induction visits generalizing s l with
  | nil => exact h
  | cons v rest ih =>
      exact ih (h.record (hvisits v List.mem_cons_self))
        fun u hu => hvisits u (List.mem_cons_of_mem v hu)

end MemoryStats.Mirrors

/-! ## The latest visits -/

theorem newestFirst_eq_reverse {log : List Visit}
    (h : log.Pairwise fun v w => ¬ w.timestamp.stored < v.timestamp.stored) :
    newestFirst log = log.reverse := by
  have hsorted : (log.reverse.map fun v => (v.timestamp.stored, v)).Pairwise fun a b =>
      (!decide (a.1 < b.1)) = true := by
    rw [List.pairwise_map, List.pairwise_reverse]
    exact h.imp fun hle => by simpa using hle
  rw [newestFirst, List.mergeSort_of_pairwise hsorted, List.map_map]
  exact List.map_id _

/-- The visits came in the order of their times, each of them in a year of four digits. -/
structure InOrder (visits : List Visit) : Prop where
  times : ∀ v ∈ visits, v.timestamp.Representable ∧ v.timestamp.HasPlainYear
  ordered : visits.Pairwise fun v w => w.timestamp.before v.timestamp = false

theorem InOrder.newestFirst {visits : List Visit} (h : InOrder visits) :
    newestFirst visits = visits.reverse := by
  apply newestFirst_eq_reverse
  apply h.ordered.imp_of_mem
  intro v w hv hw hbefore hlt
  have hv' := h.times v hv
  have hw' := h.times w hw
  rw [Timestamp.stored_lt_iff hw'.1 hv'.1 hw'.2 hv'.2, hbefore] at hlt
  cases hlt

/-! ## Stores -/

/-- The texts of the visit are within the widths of the columns, and its labels are not refused. -/
structure Visit.FitsColumns (v : Visit) : Prop where
  key_length : v.clientKey.length ≤ maxKeyLength
  agent_length : v.userAgent.length ≤ maxAgentLength
  path_length : v.path.length ≤ maxPathLength
  key_begins : BeginsPlain v.clientKey
  agent_begins : BeginsPlain v.userAgent

instance (v : Visit) : Decidable v.FitsColumns :=
  decidable_of_iff
    (v.clientKey.length ≤ maxKeyLength ∧ v.userAgent.length ≤ maxAgentLength ∧
      v.path.length ≤ maxPathLength ∧ BeginsPlain v.clientKey ∧ BeginsPlain v.userAgent)
    ⟨fun ⟨hkey, hagent, hpath, hkey', hagent'⟩ => ⟨hkey, hagent, hpath, hkey', hagent'⟩,
      fun h => ⟨h.key_length, h.agent_length, h.path_length, h.key_begins, h.agent_begins⟩⟩

theorem Visit.FitsColumns.clamped_eq {v : Visit} (h : v.FitsColumns) : Ledger.clamped v = v := by
  have hlength : ∀ {width : Nat} {s : String}, s.length ≤ width → clamp width s = s := by
    intro width s hle
    exact clamp_eq_self (by rw [String.length_toList]; exact hle)
  rw [Ledger.clamped, hlength h.key_length, hlength h.agent_length, hlength h.path_length]

theorem Ledger.Holds.recordedAll {l : Ledger} {xs : List Visit} (h : l.Holds xs)
    (ys : List Visit) : (Ledger.recordedAll ys l).Holds (xs ++ ys) := by
  induction ys generalizing l xs with
  | nil => rwa [List.append_nil]
  | cons v rest ih =>
      rw [← List.singleton_append, ← List.append_assoc]
      exact ih (h.recorded v)

namespace Store

/-- The store after some visits were recorded one after the other, if none of them was refused. -/
def recordAll (s : Store) (vol : Volume) : List Visit → Except Failure (Store × Volume)
  | [] => .ok (s, vol)
  | v :: rest => do
      let (s, vol) ← s.record vol .waiting v
      s.recordAll vol rest

theorem recordAll_memory (m : MemoryStore) (vol : Volume) (visits : List Visit) :
    ∃ vol', recordAll (.memory m) vol visits =
      .ok (.memory { m with stats := .recordAll m.limits visits m.stats }, vol') := by
  induction visits generalizing m vol with
  | nil => exact ⟨vol, rfl⟩
  | cons v rest ih =>
      rw [recordAll, record_memory]
      exact ih _ _

theorem recordAll_durable (d : DurableStore) (vol : Volume) {visits : List Visit}
    (h : ∀ v ∈ visits, Ledger.accepts v = true) :
    ∃ d' vol', recordAll (.durable d) vol visits = .ok (.durable d', vol') ∧
      d'.tables = Ledger.recordedAll visits d.tables := by
  induction visits generalizing d vol with
  | nil => exact ⟨d, vol, rfl, rfl⟩
  | cons v rest ih =>
      have hrecord := record_durable (h v List.mem_cons_self) d vol
      have hcounted := DurableStore.tables_commit d vol (Ledger.recorded v d.tables)
      generalize d.commit vol (Ledger.recorded v d.tables) = changed at hrecord hcounted
      obtain ⟨d', vol', hrun, htables⟩ :=
        ih changed.1 changed.2 fun u hu => h u (List.mem_cons_of_mem v hu)
      rw [hcounted] at htables
      refine ⟨d', vol', ?_, htables⟩
      rw [recordAll, hrecord]
      exact hrun

/--
The stores answer alike about the visits.  Among labels with equal counts their rankings may differ,
and the latest visits are the same where the times are in order.
-/
structure AnswersAlike (s t : Store) (visits : List Visit) : Prop where
  summary : ∃ a b, s.summary .waiting = .ok a ∧ t.summary .waiting = .ok b ∧
    a.totalRequests = b.totalRequests ∧ a.uniqueKeys = b.uniqueKeys ∧
    a.uniqueAgents = b.uniqueAgents
  topKeys : ∀ n, ∃ xs ys, s.topKeys .waiting n = .ok xs ∧ t.topKeys .waiting n = .ok ys ∧
    RankAlike (visits.map Visit.clientKey).toFinset.card n xs ys
  topAgents : ∀ n, ∃ xs ys, s.topAgents .waiting n = .ok xs ∧ t.topAgents .waiting n = .ok ys ∧
    RankAlike (visits.map Visit.userAgent).toFinset.card n xs ys
  recent : InOrder visits →
    ∀ n, ∃ xs, s.recent .waiting n = .ok xs ∧ t.recent .waiting n = .ok xs

theorem answersAlike {m : MemoryStore} {d : DurableStore} {limits : Limits} {visits : List Visit}
    (h : m.stats.Mirrors limits d.tables 0) (hholds : d.tables.Holds visits)
    (hlog : d.tables.log = visits) : (Store.memory m).AnswersAlike (.durable d) visits := by
  have hkeys := hholds.keys.length_eq
  have hagents := hholds.agents.length_eq
  rw [hlog] at hkeys hagents
  refine ⟨?_, ?_, ?_, ?_⟩
  · refine ⟨m.stats.summary, d.tables.summary, rfl, rfl, h.total, ?_, ?_⟩
    · exact h.keys.size_eq
    · exact h.agents.size_eq
  · intro n
    refine ⟨m.stats.keys.top n, d.tables.topKeys n, rfl, rfl, ?_⟩
    rw [← hkeys]
    exact rankAlike_top (.of_eq h.keys.counts) n
  · intro n
    refine ⟨m.stats.agents.top n, d.tables.topAgents n, rfl, rfl, ?_⟩
    rw [← hagents]
    exact rankAlike_top (.of_eq h.agents.counts) n
  · intro horder n
    refine ⟨m.stats.recentVisits n, rfl, ?_⟩
    show Except.ok ((newestFirst d.tables.log).take n) = .ok (m.stats.recent.reverse.take n)
    rw [hlog, horder.newestFirst, h.recent, hlog]

/-- Empty stores of the two backends answer alike after the same visits. -/
theorem recordAll_answersAlike {m : MemoryStore} {d : DurableStore} {visits : List Visit}
    (hm : (Store.memory m).Recorded []) (hd : (Store.durable d).Recorded [])
    (hroom : m.limits.HasRoom visits.length) (hfits : ∀ v ∈ visits, v.FitsColumns)
    (vol vol' : Volume) :
    ∃ s t volₛ volₜ, recordAll (.memory m) vol visits = .ok (s, volₛ) ∧
      recordAll (.durable d) vol' visits = .ok (t, volₜ) ∧ s.AnswersAlike t visits := by
  obtain ⟨volₛ, hmemory⟩ := recordAll_memory m vol visits
  obtain ⟨d', volₜ, hdurable, htables⟩ := recordAll_durable d vol' fun v hv =>
    Ledger.accepts_of_begins (hfits v hv).key_begins (hfits v hv).agent_begins
  have hclamped : ∀ v ∈ visits, Ledger.clamped v = v := fun v hv => (hfits v hv).clamped_eq
  refine ⟨_, _, volₛ, volₜ, hmemory, hdurable, ?_⟩
  have hstats : m.stats = .empty m.limits m.stats.startTime := hm
  have hempty : d.tables = .empty d.tables.startTime := hd
  have hmirrors := (MemoryStats.Mirrors.empty hroom m.stats.startTime d.tables.startTime).recordAll
    hclamped
  have hholds := (Ledger.holds_empty d.tables.startTime).recordedAll visits
  rw [← hstats, ← hempty, ← htables] at hmirrors
  rw [← hempty, ← htables] at hholds
  have hlog : d'.tables.log = visits := by
    rw [hholds.log_eq, List.nil_append, List.map_congr_left hclamped]
    exact List.map_id visits
  exact answersAlike hmirrors hholds hlog

/-- Visits around the leap second at the end of 2016, the last two at the same time. -/
def leapNight : List Visit :=
  [⟨"192.0.2.7", "bot", "/", ⟨1483228799, 250000000⟩⟩,
    ⟨"2001:db8::1", "curl/8.5.0", "/a", ⟨1483228799, 1000000000⟩⟩,
    ⟨"192.0.2.7", "bot", "/b", ⟨1483228800, 0⟩⟩,
    ⟨"198.51.100.9", "bot", "/b", ⟨1483228800, 0⟩⟩]

theorem recordAll_leapNight_answersAlike :
    (∀ v ∈ leapNight, v.FitsColumns) ∧ InOrder leapNight ∧
      ∃ s t volₛ volₜ,
        recordAll (.memory (.empty {} ⟨0, 0⟩)) .empty leapNight = .ok (s, volₛ) ∧
        recordAll (.durable (.inMemory ⟨0, 0⟩)) .empty leapNight = .ok (t, volₜ) ∧
        s.AnswersAlike t leapNight ∧
        ∀ n, ∃ xs, s.recent .waiting n = .ok xs ∧ t.recent .waiting n = .ok xs := by
  have hfits : ∀ v ∈ leapNight, v.FitsColumns := by decide
  have horder : InOrder leapNight := ⟨by decide, by decide⟩
  obtain ⟨s, t, volₛ, volₜ, hmemory, hdurable, halike⟩ :=
    recordAll_answersAlike (recorded_memory {} ⟨0, 0⟩) (recorded_durable ⟨0, 0⟩)
      ⟨by decide, by decide, by decide, by decide⟩ hfits .empty .empty
  exact ⟨hfits, horder, s, t, volₛ, volₜ, hmemory, hdurable, halike, halike.recent horder⟩

end Store

end Tarpit.Traffic
