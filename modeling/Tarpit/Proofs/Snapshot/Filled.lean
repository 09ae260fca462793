import Tarpit.Proofs.Snapshot.Reload
import Tarpit.Proofs.Tally.Heaviest
import Tarpit.Traffic.Store

/-!
# Stores filled from a snapshot

What a memory store in any state shows after a snapshot was restored: the
heaviest counts of the snapshot and its latest visits, as far as the ceilings
let it.  Of what was in the store before only the start time is left.
-/

namespace Tarpit.Traffic

open Tarpit.Time (Timestamp)

/-- Every label has one count, as the maps have it that snapshots are made of. -/
structure Snapshot.Distinct (p : Snapshot) : Prop where
  keys : (p.keyCounts.map Prod.fst).Nodup
  agents : (p.agentCounts.map Prod.fst).Nodup

namespace MemoryStore

/--
The store shows the totals of a snapshot, the heaviest of its counts by their rankings, and the
latest of its visits from the last to the first.
-/
structure Shows (m : MemoryStore) (start : Timestamp) (p : Snapshot) (keys agents : Counts) :
    Prop where
  summary : (Store.memory m).summary .waiting =
    .ok ⟨start, p.totalRequests, min m.limits.keys keys.length, min m.limits.agents agents.length⟩
  saved : m.stats.toSnapshot = ⟨start, p.totalRequests, keys.take m.limits.keys,
    agents.take m.limits.agents, lastN m.limits.recent p.recent⟩
  keyCount : ∀ key, m.stats.keys.count? key = (keys.take m.limits.keys).lookup key
  agentCount : ∀ agent, m.stats.agents.count? agent = (agents.take m.limits.agents).lookup agent
  topKeys : ∀ n, (Store.memory m).topKeys .waiting n =
    .ok (((keys.take m.limits.keys).take n).map rankedOf)
  topAgents : ∀ n, (Store.memory m).topAgents .waiting n =
    .ok (((agents.take m.limits.agents).take n).map rankedOf)
  recent : ∀ n, (Store.memory m).recent .waiting n =
    .ok ((lastN m.limits.recent p.recent).reverse.take n)

theorem shows_restore (m : MemoryStore) {p : Snapshot} (h : p.Distinct) :
    (m.restore p).Shows m.stats.startTime p (heaviest p.keyCounts) (heaviest p.agentCounts) := by
  have hkeys := MemoryStats.keeps_tallyOf h.keys m.limits.keys p.startTime
  have hagents := MemoryStats.keeps_tallyOf h.agents m.limits.agents p.startTime
  have hsize : ∀ {t : Tally} {limit : Nat} {counts : Counts}, t.Keeps limit counts →
      t.size = min limit counts.length := by
    intro t limit counts hkeeps
    rw [← Tally.length_counts, hkeeps.counts, List.length_take]
  refine ⟨?_, ?_, hkeys.count?, hagents.count?, fun n => ?_, fun n => ?_, fun n => rfl⟩
  · show Except.ok (Summary.mk _ _ (MemoryStats.tallyOf _ _ _).size
      (MemoryStats.tallyOf _ _ _).size) = _
    rw [hsize hkeys, hsize hagents]
    rfl
  · show Snapshot.mk _ _ (MemoryStats.tallyOf _ _ _).counts (MemoryStats.tallyOf _ _ _).counts _ = _
    rw [hkeys.counts, hagents.counts]
    rfl
  · exact congrArg Except.ok (hkeys.top n)
  · exact congrArg Except.ok (hagents.top n)

/-- Restoring keeps nothing of the statistics but the start time, and the order of counts is lost. -/
theorem stats_restore_eq {m m' : MemoryStore} {p q : Snapshot} (hlimits : m'.limits = m.limits)
    (hstart : m'.stats.startTime = m.stats.startTime) (halike : q.Alike p) :
    (m'.restore q).stats = (m.restore p).stats := by
  show m'.stats.restore m'.limits q = m.stats.restore m.limits p
  unfold MemoryStats.restore
  rw [hlimits, hstart, halike.total, halike.startTime, halike.recent,
    MemoryStats.tallyOf_eq_of_perm halike.keyCounts,
    MemoryStats.tallyOf_eq_of_perm halike.agentCounts]

end MemoryStore

/--
A store in whatever state shows a snapshot after restoring it: for the keys and for the agents
there is one ranking of the counts that are not zero, of which as much is kept as the ceilings let.
Any other store with the same limits and start time is the same after restoring the snapshot with
its counts in any order.
-/
theorem restore_shows (m : MemoryStore) {p : Snapshot} (h : p.Distinct) :
    (∃ keys agents, HeaviestFirst p.keyCounts keys ∧ HeaviestFirst p.agentCounts agents ∧
      (m.restore p).Shows m.stats.startTime p keys agents ∧
      (∀ other, HeaviestFirst p.keyCounts other → other = keys) ∧
      ∀ other, HeaviestFirst p.agentCounts other → other = agents) ∧
    ∀ (m' : MemoryStore) (q : Snapshot), m'.limits = m.limits →
      m'.stats.startTime = m.stats.startTime → q.Alike p →
      (m'.restore q).stats = (m.restore p).stats := by
  have hkeys := heaviestFirst_heaviest h.keys
  have hagents := heaviestFirst_heaviest h.agents
  refine ⟨⟨heaviest p.keyCounts, heaviest p.agentCounts, hkeys, hagents, m.shows_restore h, ?_, ?_⟩,
    fun m' q hlimits hstart halike => MemoryStore.stats_restore_eq hlimits hstart halike⟩
  · exact fun other hother => hother.unique hkeys
  · exact fun other hother => hother.unique hagents

/-- More keys than there is room for, two of them as heavy as each other and one with no requests. -/
def crowdedSnapshot : Snapshot :=
  ⟨⟨5, 0⟩, 99, [("b", 2), ("z", 0), ("c", 7), ("a", 2)], [("agent", 0), ("bot", 3)],
    [earlyVisit, lateVisit, earlyVisit, lateVisit]⟩

theorem restore_shows_crowded :
    (visitedStore.restore crowdedSnapshot).Shows ⟨0, 0⟩ crowdedSnapshot
      [("c", 7), ("a", 2), ("b", 2)] [("bot", 3)] ∧
    ((Store.memory (visitedStore.restore crowdedSnapshot)).topKeys .waiting 5).toOption =
      some [⟨"c", 7⟩, ⟨"a", 2⟩] ∧
    ((MemoryStore.empty ⟨2, 1, 3⟩ ⟨0, 0⟩).restore
        { crowdedSnapshot with keyCounts := crowdedSnapshot.keyCounts.reverse }).stats =
      (visitedStore.restore crowdedSnapshot).stats := by
  have hdistinct : crowdedSnapshot.Distinct := ⟨by decide, by decide⟩
  have hkeys : HeaviestFirst crowdedSnapshot.keyCounts [("c", 7), ("a", 2), ("b", 2)] :=
    ⟨by decide, by decide⟩
  have hagents : HeaviestFirst crowdedSnapshot.agentCounts [("bot", 3)] := ⟨by decide, by decide⟩
  obtain ⟨⟨keys, agents, -, -, hshows, honekeys, honeagents⟩, halike⟩ :=
    restore_shows visitedStore hdistinct
  obtain rfl := honekeys _ hkeys
  obtain rfl := honeagents _ hagents
  refine ⟨hshows, ?_, halike _ _ rfl rfl ⟨rfl, rfl, ?_, .refl _, rfl⟩⟩
  · rw [hshows.topKeys]
    rfl
  · exact List.reverse_perm _

end Tarpit.Traffic
