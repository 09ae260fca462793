import Tarpit.Proofs.Snapshot.Codec
import Tarpit.Proofs.Store.Calls

/-!
# Statistics from a snapshot

Statistics that were restored from the text of a snapshot show what those
showed that it was taken of, and go on to do so with every further visit.
-/

namespace Tarpit.Traffic.MemoryStats

open Tarpit.Time (Timestamp)

variable {limits : Limits} {s u : MemoryStats} {visits : List Visit}

/-- The statistics show the same and have the same room, whenever they were started. -/
structure Agrees (s u : MemoryStats) : Prop where
  total : s.total = u.total
  keys : s.keys.Agrees u.keys
  agents : s.agents.Agrees u.agents
  recent : s.recent = u.recent

theorem Agrees.trans {w : MemoryStats} (h : s.Agrees u) (h' : u.Agrees w) : s.Agrees w :=
  ⟨h.total.trans h'.total, h.keys.trans h'.keys, h.agents.trans h'.agents,
    h.recent.trans h'.recent⟩

theorem Agrees.record (h : s.Agrees u) (limits : Limits) (v : Visit) :
    (s.record limits v).Agrees (u.record limits v) := by
  constructor
  · exact congrArg (fun n => Number.wrapped (n + 1)) h.total
  · exact h.keys.add _ _ _
  · exact h.agents.add _ _ _
  · simp only [MemoryStats.record, h.recent]

theorem Agrees.recordAll (h : s.Agrees u) (limits : Limits) (visits : List Visit) :
    (MemoryStats.recordAll limits visits s).Agrees (MemoryStats.recordAll limits visits u) := by
  induction visits generalizing s u with
  | nil => exact h
  | cons v rest ih => exact ih (h.record limits v)

/-- The statistics keep to their limits, and all of them can stand in the text of a snapshot. -/
structure Proper (limits : Limits) (s : MemoryStats) : Prop where
  total : s.total < Number.wordBound
  keys : s.keys.Bounded limits.keys
  agents : s.agents.Bounded limits.agents
  recent_le : s.recent.length ≤ limits.recent
  times : ∀ v ∈ s.recent, v.timestamp.Representable

theorem proper_empty (limits : Limits) (now : Timestamp) : (empty limits now).Proper limits :=
  ⟨show 0 < Number.wordBound by decide, .empty _, .empty _, Nat.zero_le _, by simp [empty]⟩

theorem times_record (h : ∀ w ∈ s.recent, w.timestamp.Representable) {v : Visit}
    (hv : v.timestamp.Representable) :
    ∀ w ∈ (s.record limits v).recent, w.timestamp.Representable := by
  intro w hw
  rw [recent_record] at hw
  rcases List.mem_append.1 (List.mem_of_mem_drop hw) with hold | hnew
  · exact h w hold
  · rw [List.mem_singleton.1 hnew]
    exact hv

theorem Proper.record (h : s.Proper limits) {v : Visit} (hv : v.timestamp.Representable) :
    (s.record limits v).Proper limits :=
  ⟨Number.wrapped_lt _, h.keys.increment _ _, h.agents.increment _ _,
    length_recent_record_le limits s v, times_record h.times hv⟩

theorem Proper.recordAll (h : s.Proper limits)
    (hvisits : ∀ v ∈ visits, v.timestamp.Representable) :
    (MemoryStats.recordAll limits visits s).Proper limits := by
  induction visits generalizing s with
  | nil => exact h
  | cons v rest ih =>
      exact ih (h.record (hvisits v List.mem_cons_self))
        fun w hw => hvisits w (List.mem_cons_of_mem v hw)

/-! ## Through a snapshot -/

theorem Proper.writable (h : s.Proper limits) (hstart : s.startTime.Representable) :
    s.toSnapshot.Writable :=
  ⟨hstart, h.total, h.keys.fit.labels, h.keys.fit.words, h.agents.fit.labels, h.agents.fit.words,
    h.times⟩

theorem Proper.restore (s : MemoryStats) {p : Snapshot} (hp : p.Writable) :
    (s.restore limits p).Proper limits := by
  refine ⟨hp.total, bounded_tallyOf _ hp.keyCounts _, bounded_tallyOf _ hp.agentCounts _, ?_, ?_⟩
  · rw [MemoryStats.restore, length_lastN]
    exact Nat.min_le_left _ _
  · exact fun v hv => hp.recent v (List.mem_of_mem_drop hv)

/-- No label is held with a count that shows zero. -/
structure Positive (s : MemoryStats) : Prop where
  keys : ∀ c ∈ s.keys.counts, 0 < c.2
  agents : ∀ c ∈ s.agents.counts, 0 < c.2

theorem restore_agrees (h : s.Proper limits) (hpos : s.Positive) (fresh : MemoryStats) :
    (fresh.restore limits s.toSnapshot).Agrees s := by
  have hfilled : ∀ {t : Tally} {limit : Nat}, t.Bounded limit → (∀ c ∈ t.counts, 0 < c.2) →
      (tallyOf limit t.counts s.startTime).Agrees t := by
    intro t limit ht hcounts
    have hperm := ht.perm_tallyOf (Nat.le_refl limit) (.refl _) s.startTime
    rw [List.filter_eq_self.2 fun c hc => decide_eq_true (hcounts c hc)] at hperm
    exact ⟨(limit_tallyOf _ _ _).trans ht.limit_eq.symm, hperm⟩
  exact ⟨rfl, hfilled h.keys hpos.keys, hfilled h.agents hpos.agents, lastN_eq_self h.recent_le⟩

/-! ## What is shown -/

/-- The statistics show what those show that were fed the visits one after the other. -/
def Shows (limits : Limits) (s : MemoryStats) (visits : List Visit) : Prop :=
  s.Agrees (recordAll limits visits (.empty limits s.startTime))

theorem shows_empty (limits : Limits) (now : Timestamp) : (empty limits now).Shows limits [] :=
  ⟨rfl, .refl _, .refl _, rfl⟩

theorem empty_agrees (limits : Limits) (now later : Timestamp) :
    (empty limits now).Agrees (empty limits later) :=
  ⟨rfl, .refl _, .refl _, rfl⟩

theorem Shows.record (h : s.Shows limits visits) (v : Visit) :
    (s.record limits v).Shows limits (visits ++ [v]) := by
  unfold Shows
  rw [recordAll_append]
  exact Agrees.record h limits v

/-- As long as the visits can be counted in a word, every label that is held was counted. -/
theorem Shows.positive (h : s.Shows limits visits) (hword : visits.length < Number.wordBound) :
    s.Positive := by
  have hreflects := (reflects_empty limits s.startTime).recordAll visits
  rw [List.nil_append] at hreflects
  exact ⟨(Agrees.keys h).pos_of_reflects hreflects.keys (by rwa [List.length_map]),
    (Agrees.agents h).pos_of_reflects hreflects.agents (by rwa [List.length_map])⟩

/-- Statistics that were restored show what those did that the snapshot was taken of. -/
theorem Shows.restore (h : s.Shows limits visits) (hword : visits.length < Number.wordBound)
    (hproper : s.Proper limits) (fresh : MemoryStats) :
    (fresh.restore limits s.toSnapshot).Shows limits visits :=
  (restore_agrees hproper (h.positive hword) fresh).trans
    (Agrees.trans h ((empty_agrees limits _ _).recordAll limits visits))

/-- Nothing that is asked of the statistics tells them apart. -/
structure LooksLike (s u : MemoryStats) : Prop where
  summary : s.summary = u.summary
  keys : ∀ label, s.keys.count? label = u.keys.count? label
  agents : ∀ label, s.agents.count? label = u.agents.count? label
  recent : ∀ n, s.recentVisits n = u.recentVisits n

theorem Agrees.looksLike (h : s.Agrees u) (hs : s.Proper limits)
    (hstart : s.startTime = u.startTime) : s.LooksLike u := by
  refine ⟨?_, fun label => ?_, fun label => ?_, fun n => ?_⟩
  · rw [summary, summary, hstart, h.total, h.keys.size_eq, h.agents.size_eq]
  · exact h.keys.count?_eq hs.keys.fit.labels label
  · exact h.agents.count?_eq hs.agents.fit.labels label
  · rw [recentVisits, recentVisits, h.recent]

/-- Statistics that show some visits look like those of one store that took these and the others. -/
theorem Shows.looksLike (h : s.Shows limits visits) (hs : s.Proper limits) {more : List Visit}
    (hmore : ∀ v ∈ more, v.timestamp.Representable) :
    (recordAll limits more s).LooksLike
      (recordAll limits (visits ++ more) (.empty limits s.startTime)) := by
  rw [recordAll_append]
  apply (Agrees.recordAll h limits more).looksLike (hs.recordAll hmore)
  rw [startTime_recordAll, startTime_recordAll, startTime_recordAll]
  rfl

end Tarpit.Traffic.MemoryStats
