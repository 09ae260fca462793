import Tarpit.Proofs.Ledger.Record
import Tarpit.Proofs.Store.Recorded
import Tarpit.Proofs.Tally.Appearance

/-!
# Calls on a memory store

What a memory store answers after any calls, by the visits that it took: the
labels with room in each of the two tallies, which know nothing of each other,
and the window on the latest visits.
-/

namespace Tarpit.Traffic

open Tarpit.Time (Timestamp)

/-! ## Calls -/

namespace MemoryStore

inductive Call where
  | record (patience : Patience) (v : Visit)
  | summary (patience : Patience)
  | recent (patience : Patience) (n : Nat)
  | topKeys (patience : Patience) (n : Nat)
  | topAgents (patience : Patience) (n : Nat)
  | keyCount (key : String)
  | agentCount (agent : String)
  | flush
  deriving DecidableEq, Repr

inductive Reply where
  | done
  | summary (s : Summary)
  | visits (visits : List Visit)
  | ranked (ranked : List Ranked)
  | count (n? : Option Nat)
  deriving DecidableEq, Repr

/-- The visit that the store takes with a call: its caller waits until the store is held. -/
def Call.taken? : Call → Option Visit
  | .record patience v => if patience.lasts 2 then some v else none
  | _ => none

def reply (m : MemoryStore) (vol : Volume) : Call → Except Failure Reply
  | .record patience v => (m.record vol patience v).map fun _ => .done
  | .summary patience => ((Store.memory m).summary patience).map .summary
  | .recent patience n => ((Store.memory m).recent patience n).map .visits
  | .topKeys patience n => ((Store.memory m).topKeys patience n).map .ranked
  | .topAgents patience n => ((Store.memory m).topAgents patience n).map .ranked
  | .keyCount key => .ok (.count (m.stats.keys.count? key))
  | .agentCount agent => .ok (.count (m.stats.agents.count? agent))
  | .flush => (m.save vol).1.map fun _ => .done

/-- The store and the volume after a call; one that fails changes nothing of the store. -/
def after (m : MemoryStore) (vol : Volume) : Call → MemoryStore × Volume
  | .record patience v =>
      match m.record vol patience v with
      | .ok changed => changed
      | .error _ => (m, vol)
  | .flush => (m, (m.save vol).2)
  | _ => (m, vol)

def afterAll (m : MemoryStore) (vol : Volume) : List Call → MemoryStore × Volume
  | [] => (m, vol)
  | call :: rest =>
      let (m, vol) := m.after vol call
      m.afterAll vol rest

theorem after_fst (m : MemoryStore) (vol : Volume) (call : Call) :
    (m.after vol call).1 =
      { m with stats := .recordAll m.limits call.taken?.toList m.stats } := by
  cases call with
  | record patience v =>
      rw [after, record_eq_of_patience, Call.taken?]
      cases patience.lasts 2 with
      | true =>
          rw [if_pos rfl, if_pos rfl, record_eq]
          rfl
      | false => rfl
  | summary patience => rfl
  | recent patience n => rfl
  | topKeys patience n => rfl
  | topAgents patience n => rfl
  | keyCount key => rfl
  | agentCount agent => rfl
  | flush => rfl

theorem afterAll_fst (m : MemoryStore) (vol : Volume) (calls : List Call) :
    (m.afterAll vol calls).1 =
      { m with stats := .recordAll m.limits (calls.filterMap Call.taken?) m.stats } := by
  induction calls generalizing m vol with
  | nil => rfl
  | cons call rest ih =>
      have hstep := m.after_fst vol call
      rw [afterAll]
      simp only
      rw [ih, hstep]
      simp only [← MemoryStats.recordAll_append]
      cases hcall : call.taken? with
      | none => rw [List.filterMap_cons_none hcall]; rfl
      | some v => rw [List.filterMap_cons_some hcall]; rfl

end MemoryStore

/-! ## Statistics of visits -/

theorem lastN_lastN {α : Type} (n m : Nat) (items : List α) :
    lastN n (lastN m items) = lastN (min n m) items := by
  rw [lastN, length_lastN, lastN, List.drop_drop, lastN]
  congr 1
  omega

/-- The statistics are what is left of some visits that were recorded one by one. -/
structure MemoryStats.Reflects (limits : Limits) (now : Timestamp) (s : MemoryStats)
    (visits : List Visit) : Prop where
  startTime : s.startTime = now
  total : s.total = Number.wrapped visits.length
  keys : s.keys.Reflects limits.keys (visits.map Visit.clientKey)
  agents : s.agents.Reflects limits.agents (visits.map Visit.userAgent)
  recent : s.recent = lastN limits.recent visits

namespace MemoryStats

variable {limits : Limits} {now : Timestamp} {s : MemoryStats} {visits : List Visit}

theorem reflects_empty (limits : Limits) (now : Timestamp) :
    (MemoryStats.empty limits now).Reflects limits now [] :=
  ⟨rfl, rfl, Tally.reflects_empty _, Tally.reflects_empty _, List.drop_nil.symm⟩

theorem Reflects.record (h : s.Reflects limits now visits) (v : Visit) :
    (s.record limits v).Reflects limits now (visits ++ [v]) := by
  refine ⟨h.startTime, ?_, ?_, ?_, ?_⟩
  · rw [List.length_append, List.length_singleton, ← Number.wrapped_wrapped_add, ← h.total]
    rfl
  · rw [List.map_append]
    exact h.keys.increment v.clientKey v.timestamp
  · rw [List.map_append]
    exact h.agents.increment v.userAgent v.timestamp
  · rw [recent_record, h.recent, lastN_lastN_append]

theorem Reflects.recordAll (h : s.Reflects limits now visits) (more : List Visit) :
    (recordAll limits more s).Reflects limits now (visits ++ more) := by
  induction more generalizing s visits with
  | nil => rwa [List.append_nil]
  | cons v rest ih =>
      rw [← List.singleton_append, ← List.append_assoc]
      exact ih (h.record v)

theorem Reflects.recentVisits (h : s.Reflects limits now visits) (n : Nat) :
    s.recentVisits n = (lastN (min n limits.recent) visits).reverse := by
  rw [MemoryStats.recentVisits, h.recent, List.take_reverse, ← lastN, lastN_lastN]

theorem Reflects.summary (h : s.Reflects limits now visits) :
    s.summary =
      ⟨now, Number.wrapped visits.length,
        min limits.keys (visits.map Visit.clientKey).eraseDups.length,
        min limits.agents (visits.map Visit.userAgent).eraseDups.length⟩ := by
  rw [MemoryStats.summary, h.startTime, h.total, h.keys.size_eq, h.agents.size_eq]

end MemoryStats

/-! ## Answers -/

/--
What the store answers, and what it counts, once it has taken some visits.  It counts in words, so
that below `Number.wordBound` visits every number is shown as it is (`Number.wrapped_of_lt`).
-/
structure MemoryStore.Answers (limits : Limits) (now : Timestamp) (visits : List Visit)
    (m : MemoryStore) (vol : Volume) : Prop where
  summary : ∀ patience, m.reply vol (.summary patience) =
    if patience.lasts 2 then
      .ok (.summary ⟨now, Number.wrapped visits.length,
        min limits.keys (visits.map Visit.clientKey).eraseDups.length,
        min limits.agents (visits.map Visit.userAgent).eraseDups.length⟩)
    else .error .cancelled
  recent : ∀ patience n, m.reply vol (.recent patience n) =
    if patience.lasts 2 then .ok (.visits (lastN (min n limits.recent) visits).reverse)
    else .error .cancelled
  keyCount : ∀ key, m.reply vol (.keyCount key) = .ok (.count
    (if key ∈ firstLabels limits.keys (visits.map Visit.clientKey) then
      some (Number.wrapped ((visits.map Visit.clientKey).count key)) else none))
  agentCount : ∀ agent, m.reply vol (.agentCount agent) = .ok (.count
    (if agent ∈ firstLabels limits.agents (visits.map Visit.userAgent) then
      some (Number.wrapped ((visits.map Visit.userAgent).count agent)) else none))
  keys : m.stats.keys.Reflects limits.keys (visits.map Visit.clientKey)
  agents : m.stats.agents.Reflects limits.agents (visits.map Visit.userAgent)
  keys_le : m.stats.summary.uniqueKeys ≤ limits.keys
  agents_le : m.stats.summary.uniqueAgents ≤ limits.agents
  sum_keys : visits.length < Number.wordBound → (m.stats.keys.counts.map Prod.snd).sum =
    visits.length - visits.countP fun v =>
      v.clientKey ∉ firstLabels limits.keys (visits.map Visit.clientKey)
  wrapped_sum_keys : Number.wrapped (m.stats.keys.counts.map Prod.snd).sum =
    Number.wrapped (visits.length - visits.countP fun v =>
      v.clientKey ∉ firstLabels limits.keys (visits.map Visit.clientKey))

theorem MemoryStats.Reflects.answers {limits : Limits} {now : Timestamp} {visits : List Visit}
    {m : MemoryStore} (h : m.stats.Reflects limits now visits) (vol : Volume) :
    m.Answers limits now visits vol := by
  constructor
  case summary =>
    intro patience
    rw [← h.summary, MemoryStore.reply, Store.summary, Patience.check_check_bind]
    cases patience.lasts 2 with
    | true => rfl
    | false => rfl
  case recent =>
    intro patience n
    rw [← h.recentVisits, MemoryStore.reply, Store.recent, Patience.check_check_bind]
    cases patience.lasts 2 with
    | true => rfl
    | false => rfl
  case keyCount =>
    intro key
    rw [← h.keys.count?_eq]
    rfl
  case agentCount =>
    intro agent
    rw [← h.agents.count?_eq]
    rfl
  case keys => exact h.keys
  case agents => exact h.agents
  case keys_le =>
    show m.stats.keys.size ≤ limits.keys
    rw [h.keys.size_eq]
    exact Nat.min_le_left _ _
  case agents_le =>
    show m.stats.agents.size ≤ limits.agents
    rw [h.agents.size_eq]
    exact Nat.min_le_left _ _
  case sum_keys =>
    intro hword
    rw [h.keys.counts, sum_firstCounts (by rwa [List.length_map]), List.length_map,
      List.countP_map]
    rfl
  case wrapped_sum_keys =>
    rw [h.keys.counts, wrapped_sum_firstCounts, List.length_map, List.countP_map]
    rfl

/-- A store that was empty answers by the visits that it has taken, whatever was asked of it. -/
theorem MemoryStore.answers_afterAll (limits : Limits) (now : Timestamp) (snapshot? : Option Path)
    (log? : Option RequestLog) (vol : Volume) (calls : List Call) :
    let fresh : MemoryStore := { MemoryStore.empty limits now with snapshot?, log? }
    let done := fresh.afterAll vol calls
    done.1.Answers limits now (calls.filterMap Call.taken?) done.2 := by
  intro fresh done
  apply MemoryStats.Reflects.answers
  rw [show done.1 = _ from fresh.afterAll_fst vol calls]
  exact (MemoryStats.reflects_empty limits now).recordAll (calls.filterMap Call.taken?)

end Tarpit.Traffic
