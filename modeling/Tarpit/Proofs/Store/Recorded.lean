import Tarpit.Proofs.History.Lifetime

/-!
# What a store has recorded

A store of either backend by the visits that it took since it was empty.
-/

namespace Tarpit.Traffic

namespace MemoryStats

def recordAll (limits : Limits) (visits : List Visit) (s : MemoryStats) : MemoryStats :=
  visits.foldl (record limits) s

variable {limits : Limits}

theorem recordAll_append (xs ys : List Visit) (s : MemoryStats) :
    recordAll limits (xs ++ ys) s = recordAll limits ys (recordAll limits xs s) :=
  List.foldl_append

theorem startTime_recordAll (visits : List Visit) (s : MemoryStats) :
    (recordAll limits visits s).startTime = s.startTime := by
  induction visits generalizing s with
  | nil => rfl
  | cons v rest ih => exact ih (s.record limits v)

theorem total_recordAll {s : MemoryStats} (h : s.total < Number.wordBound) (visits : List Visit) :
    (recordAll limits visits s).total = Number.wrapped (s.total + visits.length) := by
  induction visits generalizing s with
  | nil => exact (Number.wrapped_of_lt h).symm
  | cons v rest ih =>
      have hrest := @ih (s.record limits v) (Number.wrapped_lt _)
      rw [record, Number.wrapped_wrapped_add, Nat.add_assoc, Nat.add_comm 1] at hrest
      exact hrest

theorem length_recent_record_le (limits : Limits) (s : MemoryStats) (v : Visit) :
    (s.record limits v).recent.length ≤ limits.recent := by
  rw [recent_record, length_lastN]
  exact Nat.min_le_left _ _

theorem recent_recordAll {s : MemoryStats} (h : s.recent.length ≤ limits.recent)
    (visits : List Visit) :
    (recordAll limits visits s).recent = lastN limits.recent (s.recent ++ visits) := by
  induction visits generalizing s with
  | nil => rw [List.append_nil, lastN_eq_self h, recordAll, List.foldl_nil]
  | cons v rest ih =>
      have hrest := ih (length_recent_record_le limits s v)
      rw [recent_record, lastN_lastN_append, List.append_assoc, List.singleton_append] at hrest
      exact hrest

end MemoryStats

/-- A memory store takes every visit, and the log gets its line if there is one. -/
theorem MemoryStore.record_eq (m : MemoryStore) (vol : Volume) (v : Visit) :
    m.record vol .waiting v =
      .ok ({ m with stats := m.stats.record m.limits v },
        m.log?.elim vol fun log => log.append v.line vol) := by
  unfold MemoryStore.record
  cases m.log? with
  | none => rfl
  | some log => rfl

theorem MemoryStore.record_eq_of_patience (m : MemoryStore) (vol : Volume) (patience : Patience)
    (v : Visit) :
    m.record vol patience v =
      if patience.lasts 2 then m.record vol .waiting v else .error .cancelled :=
  Patience.check_check_bind patience 0 _

namespace Store

/-- The store is what the visits make of an empty one. -/
def Recorded : Store → List Visit → Prop
  | .memory m, visits =>
      m.stats = .recordAll m.limits visits (.empty m.limits m.stats.startTime)
  | .durable d, visits => d.tables.Tables visits

/-- The visits that the store still has, the one that it took first in front. -/
def log : Store → List Visit
  | .memory m => m.stats.recent
  | .durable d => d.tables.log

/-- What the store keeps of the visits that it takes. -/
def kept : Store → List Visit → List Visit
  | .memory m, visits => lastN m.limits.recent visits
  | .durable _, visits => visits.map Ledger.clamped

/-- What the store shows of a number of visits; in memory it is counted in one word. -/
def shownTotal : Store → Nat → Nat
  | .memory _, n => Number.wrapped n
  | .durable _, n => n

variable {s s' : Store} {vol vol' : Volume} {visits : List Visit} {v : Visit}

theorem record_memory (m : MemoryStore) (vol : Volume) (v : Visit) :
    record (.memory m) vol .waiting v =
      .ok (.memory { m with stats := m.stats.record m.limits v },
        m.log?.elim vol fun log => log.append v.line vol) := by
  rw [record, MemoryStore.record_eq]
  rfl

theorem record_durable (h : Ledger.accepts v = true) (d : DurableStore) (vol : Volume) :
    record (.durable d) vol .waiting v =
      .ok (.durable (d.commit vol (Ledger.recorded v d.tables)).1,
        (d.commit vol (Ledger.recorded v d.tables)).2) := by
  rw [record, DurableStore.record_eq, Ledger.refusal?_eq_none_iff.2 ⟨rfl, h⟩]
  rfl

theorem recorded_memory (limits : Limits) (now : Tarpit.Time.Timestamp) :
    (Store.memory (.empty limits now)).Recorded [] := rfl

theorem recorded_durable (now : Tarpit.Time.Timestamp) :
    (Store.durable (.inMemory now)).Recorded [] := rfl

theorem Recorded.log (h : s.Recorded visits) : s.log = s.kept visits := by
  cases s with
  | memory m =>
      show m.stats.recent = lastN m.limits.recent visits
      rw [show m.stats = _ from h, MemoryStats.recent_recordAll (Nat.zero_le _)]
      rfl
  | durable d =>
      show d.tables.log = visits.map Ledger.clamped
      rw [show d.tables = _ from h, Ledger.log_recordedAll]
      rfl

theorem Recorded.summary (h : s.Recorded visits) :
    ∃ summary, s.summary .waiting = .ok summary ∧
      summary.totalRequests = s.shownTotal visits.length := by
  cases s with
  | memory m =>
      refine ⟨m.stats.summary, rfl, ?_⟩
      have hzero : (MemoryStats.empty m.limits m.stats.startTime).total < Number.wordBound :=
        show 0 < Number.wordBound by decide
      show m.stats.total = Number.wrapped visits.length
      rw [show m.stats = _ from h, MemoryStats.total_recordAll hzero]
      exact congrArg Number.wrapped (Nat.zero_add _)
  | durable d =>
      refine ⟨d.tables.summary, rfl, ?_⟩
      show d.tables.total = visits.length
      rw [show d.tables = _ from h, Ledger.total_recordedAll]
      exact Nat.zero_add _

/-- Recording a visit adds it to those that were recorded. -/
theorem Recorded.record (h : s.Recorded visits)
    (hrecord : s.record vol .waiting v = .ok (s', vol')) : s'.Recorded (visits ++ [v]) := by
  cases s with
  | memory m =>
      rw [record_memory] at hrecord
      cases hrecord
      show m.stats.record m.limits v =
        .recordAll m.limits (visits ++ [v]) (.empty m.limits m.stats.startTime)
      rw [MemoryStats.recordAll_append, ← show m.stats = _ from h]
      rfl
  | durable d =>
      rw [Store.record, DurableStore.record_eq] at hrecord
      cases hrefusal : Ledger.refusal? .waiting v with
      | some e =>
          rw [hrefusal] at hrecord
          cases hrecord
      | none =>
          rw [hrefusal] at hrecord
          cases hrecord
          show (d.commit vol (Ledger.recorded v d.tables)).1.tables.Tables (visits ++ [v])
          rw [DurableStore.tables_commit]
          exact Ledger.Tables.recordedAll h [v]

end Store

end Tarpit.Traffic
