import Tarpit.Proofs.Lookup
import Tarpit.Traffic.MemoryStats

/-!
# Tallies that agree

What a tally shows of its counts is how they stand by label, whatever their
order.  Counting keeps two tallies in agreement, and a tally that was filled
from the counts of another one agrees with it.
-/

namespace Tarpit.Traffic

open Tarpit.Time (Timestamp)

/-! ## Counting on counts alone -/

/-- Counts after a known label was counted `n` times more. -/
def Counts.bump (counts : Counts) (label : String) (n : Nat) : Counts :=
  counts.map fun c => if c.1 == label then (c.1, Number.wrapped (c.2 + n)) else c

/-- Counts after a label was counted `n` times, if it is known or there is room. -/
def Counts.add (limit : Nat) (counts : Counts) (label : String) (n : Nat) : Counts :=
  if n = 0 then counts
  else if label ∈ counts.map Prod.fst then counts.bump label n
  else if limit ≤ counts.length then counts
  else counts ++ [(label, n)]

namespace Tally

theorem length_counts (t : Tally) : t.counts.length = t.size := by
  rw [counts, List.length_map, size]

theorem count?_eq_lookup (t : Tally) (label : String) : t.count? label = t.counts.lookup label := by
  unfold count? find? counts
  induction t.entries with
  | nil => rfl
  | cons e rest ih =>
      by_cases he : e.label = label
      · subst he
        simp
      · have hne : (e.label == label) = false := by simpa using he
        have hne' : (label == e.label) = false := by
          simpa using fun h : label = e.label => he h.symm
        simp only [List.find?_cons, hne, List.map_cons, List.lookup_cons, hne']
        exact ih

theorem isSome_find?_iff (t : Tally) (label : String) :
    (t.find? label).isSome = true ↔ label ∈ t.counts.map Prod.fst := by
  simp [find?, counts]

theorem counts_bump (t : Tally) (label : String) (n : Nat) (time : Timestamp) :
    (t.bump label n time).counts = Counts.bump t.counts label n := by
  unfold bump counts Counts.bump
  rw [List.map_map, List.map_map]
  apply List.map_congr_left
  intro e _
  simp only [Function.comp]
  split
  · rfl
  · rfl

theorem counts_insert (t : Tally) (label : String) (n : Nat) (time : Timestamp) :
    (t.insert label n time).counts = t.counts ++ [(label, n)] := by
  rw [counts, insert, List.map_append]
  rfl

theorem counts_add (t : Tally) (label : String) (n : Nat) (time : Timestamp) :
    (t.add label n time).2.counts = Counts.add t.limit t.counts label n := by
  unfold add Counts.add
  rw [length_counts]
  by_cases hn : n = 0
  · rw [if_pos hn, if_pos hn]
  · rw [if_neg hn, if_neg hn]
    by_cases hknown : (t.find? label).isSome = true
    · rw [if_pos hknown, if_pos ((isSome_find?_iff t label).1 hknown), counts_bump]
    · rw [if_neg hknown, if_neg fun h => hknown ((isSome_find?_iff t label).2 h)]
      split
      · rfl
      · rw [counts_insert]

end Tally

namespace Counts

variable {xs ys : Counts} {limit : Nat}

theorem labels_bump (counts : Counts) (label : String) (n : Nat) :
    (counts.bump label n).map Prod.fst = counts.map Prod.fst := by
  rw [bump, List.map_map]
  apply List.map_congr_left
  intro c _
  simp only [Function.comp]
  split
  · rfl
  · rfl

theorem perm_add (h : xs.Perm ys) (limit : Nat) (label : String) (n : Nat) :
    (xs.add limit label n).Perm (ys.add limit label n) := by
  unfold add
  simp only [(h.map Prod.fst).mem_iff, h.length_eq]
  split
  · exact h
  · split
    · exact h.map _
    · split
      · exact h
      · exact h.append_right _

/-- Every label stands once, its count is a word, and there are not more than a limit. -/
structure Fit (counts : Counts) (limit : Nat) : Prop where
  labels : (counts.map Prod.fst).Nodup
  length_le : counts.length ≤ limit
  words : ∀ c ∈ counts, c.2 < Number.wordBound

theorem fit_nil (limit : Nat) : Fit [] limit :=
  ⟨List.nodup_nil, Nat.zero_le limit, by simp⟩

theorem Fit.of_perm (h : xs.Fit limit) (hperm : xs.Perm ys) : ys.Fit limit := by
  refine ⟨(hperm.map Prod.fst).nodup_iff.1 h.labels, ?_, ?_⟩
  · rw [← hperm.length_eq]
    exact h.length_le
  · exact fun c hc => h.words c (hperm.mem_iff.2 hc)

theorem Fit.widen (h : xs.Fit limit) {larger : Nat} (hle : limit ≤ larger) : xs.Fit larger :=
  ⟨h.labels, Nat.le_trans h.length_le hle, h.words⟩

theorem Fit.bump (h : xs.Fit limit) (label : String) (n : Nat) : (xs.bump label n).Fit limit := by
  refine ⟨?_, ?_, ?_⟩
  · rw [labels_bump]
    exact h.labels
  · rw [Counts.bump, List.length_map]
    exact h.length_le
  · intro c hc
    obtain ⟨d, hd, rfl⟩ := List.mem_map.1 hc
    split
    · exact Number.wrapped_lt _
    · exact h.words d hd

theorem Fit.append (h : xs.Fit limit) {label : String} {n : Nat} (hn : n < Number.wordBound)
    (hnew : label ∉ xs.map Prod.fst) (hroom : ¬ limit ≤ xs.length) :
    Fit (xs ++ [(label, n)]) limit := by
  refine ⟨?_, ?_, ?_⟩
  · rw [List.map_append, List.map_singleton]
    exact List.nodup_append_comm.1 (List.nodup_cons.2 ⟨hnew, h.labels⟩)
  · rw [List.length_append, List.length_singleton]
    omega
  · intro c hc
    rcases List.mem_append.1 hc with hc | hc
    · exact h.words c hc
    · rw [List.mem_singleton.1 hc]
      exact hn

theorem Fit.add (h : xs.Fit limit) (label : String) {n : Nat} (hn : n < Number.wordBound) :
    (xs.add limit label n).Fit limit := by
  unfold Counts.add
  split
  · exact h
  · split
    · exact h.bump label n
    · next hnew =>
        split
        · exact h
        · next hroom => exact h.append hn hnew hroom

end Counts

/-! ## Agreement -/

namespace Tally

/-- The tallies have the same counts and take the same labels from now on. -/
structure Agrees (t u : Tally) : Prop where
  limit : t.limit = u.limit
  counts : t.counts.Perm u.counts

variable {t u w : Tally}

theorem Agrees.refl (t : Tally) : t.Agrees t :=
  ⟨rfl, List.Perm.refl _⟩

theorem Agrees.trans (h : t.Agrees u) (h' : u.Agrees w) : t.Agrees w :=
  ⟨h.limit.trans h'.limit, h.counts.trans h'.counts⟩

theorem Agrees.add (h : t.Agrees u) (label : String) (n : Nat) (time : Timestamp) :
    (t.add label n time).2.Agrees (u.add label n time).2 := by
  constructor
  · rw [limit_add, limit_add, h.limit]
  · rw [counts_add, counts_add, h.limit]
    exact Counts.perm_add h.counts _ _ _

theorem Agrees.size_eq (h : t.Agrees u) : t.size = u.size := by
  rw [← length_counts, ← length_counts, h.counts.length_eq]

theorem Agrees.count?_eq (h : t.Agrees u) (hlabels : (t.counts.map Prod.fst).Nodup)
    (label : String) : t.count? label = u.count? label := by
  rw [count?_eq_lookup, count?_eq_lookup, lookup_eq_of_perm h.counts hlabels]

/-! ## Filling a tally -/

theorem limit_foldl_add (counts : Counts) (time : Timestamp) (t : Tally) :
    (counts.foldl (fun t c => (t.add c.1 c.2 time).2) t).limit = t.limit := by
  induction counts generalizing t with
  | nil => rfl
  | cons c rest ih => exact (ih (t.add c.1 c.2 time).2).trans (limit_add t c.1 c.2 time)

/-- Different labels are taken in their order until there is no room, but for zero counts. -/
theorem counts_foldl_add {counts : Counts} {t : Tally} (time : Timestamp)
    (hlabels : ((t.counts ++ counts).map Prod.fst).Nodup) (hlength : t.counts.length ≤ t.limit) :
    (counts.foldl (fun t c => (t.add c.1 c.2 time).2) t).counts =
      (t.counts ++ counts.filter fun c => 0 < c.2).take t.limit := by
  induction counts generalizing t with
  | nil =>
      rw [List.filter_nil, List.append_nil, List.take_of_length_le hlength]
      rfl
  | cons c rest ih =>
      have hnew : c.1 ∉ t.counts.map Prod.fst := by
        intro hmem
        rw [List.map_append, List.map_cons] at hlabels
        exact List.disjoint_of_nodup_append hlabels hmem List.mem_cons_self
      have hskipped : ((t.counts ++ rest).map Prod.fst).Nodup :=
        hlabels.sublist (((List.sublist_cons_self c rest).append_left t.counts).map Prod.fst)
      have hstep := @ih (t.add c.1 c.2 time).2
      rw [limit_add, counts_add, Counts.add, if_neg hnew] at hstep
      rw [List.foldl_cons]
      by_cases hzero : c.2 = 0
      · rw [if_pos hzero] at hstep
        rw [hstep hskipped hlength, List.filter_cons_of_neg (by simp [hzero])]
      · rw [if_neg hzero] at hstep
        rw [List.filter_cons_of_pos (by simpa using Nat.pos_of_ne_zero hzero)]
        by_cases hfull : t.limit ≤ t.counts.length
        · -- A full tally stays as it is.
          have hexact : t.limit = t.counts.length := Nat.le_antisymm hfull hlength
          rw [if_pos hfull] at hstep
          rw [hstep hskipped hlength, hexact, List.take_left, List.take_left]
        · have happend : t.counts ++ c :: rest = t.counts ++ [c] ++ rest := by
            rw [List.append_assoc, List.singleton_append]
          rw [if_neg hfull] at hstep
          rw [hstep (happend ▸ hlabels) (by rw [List.length_append, List.length_singleton]; omega),
            List.append_assoc, List.singleton_append]

end Tally

namespace MemoryStats

variable {counts : Counts}

theorem limit_tallyOf (limit : Nat) (counts : Counts) (time : Timestamp) :
    (tallyOf limit counts time).limit = limit :=
  Tally.limit_foldl_add _ time (.empty limit)

/-- The heaviest of some counts with different labels, but for zero counts. -/
theorem counts_tallyOf (h : (counts.map Prod.fst).Nodup) (limit : Nat) (time : Timestamp) :
    (tallyOf limit counts time).counts =
      ((rankedCounts counts).filter fun c => 0 < c.2).take limit := by
  have hperm : (rankedCounts counts).Perm counts := List.mergeSort_perm _ _
  have hlabels : (((Tally.empty limit).counts ++ rankedCounts counts).map Prod.fst).Nodup :=
    (hperm.map Prod.fst).nodup_iff.2 h
  exact Tally.counts_foldl_add time hlabels (Nat.zero_le limit)

end MemoryStats

/-- A tally that was filled from counts that fit has these counts, but for zero counts. -/
theorem MemoryStats.tallyOf_perm {counts : Counts} {limit : Nat} (h : Counts.Fit counts limit)
    (time : Timestamp) :
    (tallyOf limit counts time).counts.Perm (counts.filter fun c => 0 < c.2) := by
  have hperm : (rankedCounts counts).Perm counts := List.mergeSort_perm _ _
  have hlength : ((rankedCounts counts).filter fun c => 0 < c.2).length ≤ limit :=
    Nat.le_trans (List.length_filter_le _ _) (hperm.length_eq ▸ h.length_le)
  rw [counts_tallyOf h.labels, List.take_of_length_le hlength]
  exact hperm.filter _

/-! ## Bounded tallies -/

/-- The tally has its limit, and counts that keep to it. -/
structure Tally.Bounded (t : Tally) (limit : Nat) : Prop where
  limit_eq : t.limit = limit
  fit : Counts.Fit t.counts limit

namespace Tally.Bounded

variable {t : Tally} {limit : Nat}

theorem empty (limit : Nat) : (Tally.empty limit).Bounded limit :=
  ⟨rfl, Counts.fit_nil limit⟩

theorem add (h : t.Bounded limit) (label : String) {n : Nat} (hn : n < Number.wordBound)
    (time : Timestamp) : (t.add label n time).2.Bounded limit := by
  refine ⟨(limit_add t label n time).trans h.limit_eq, ?_⟩
  rw [counts_add, h.limit_eq]
  exact h.fit.add label hn

theorem increment (h : t.Bounded limit) (label : String) (time : Timestamp) :
    (t.increment label time).2.Bounded limit :=
  h.add label (by decide) time

theorem foldl_add (h : t.Bounded limit) {counts : Counts}
    (hcounts : ∀ c ∈ counts, c.2 < Number.wordBound) (time : Timestamp) :
    (counts.foldl (fun t c => (t.add c.1 c.2 time).2) t).Bounded limit := by
  induction counts generalizing t with
  | nil => exact h
  | cons c rest ih =>
      exact ih (h.add c.1 (hcounts c List.mem_cons_self) time)
        fun d hd => hcounts d (List.mem_cons_of_mem c hd)

/-- Whoever is filled from the counts of a tally and has as much room has them, but for zeros. -/
theorem perm_tallyOf (h : t.Bounded limit) {larger : Nat} (hle : limit ≤ larger) {counts : Counts}
    (hperm : counts.Perm t.counts) (time : Timestamp) :
    (MemoryStats.tallyOf larger counts time).counts.Perm (t.counts.filter fun c => 0 < c.2) :=
  (MemoryStats.tallyOf_perm ((h.fit.of_perm hperm.symm).widen hle) time).trans (hperm.filter _)

end Tally.Bounded

theorem MemoryStats.bounded_tallyOf (limit : Nat) {counts : Counts}
    (h : ∀ c ∈ counts, c.2 < Number.wordBound) (time : Timestamp) :
    (tallyOf limit counts time).Bounded limit :=
  (Tally.Bounded.empty limit).foldl_add (fun c hc => h c (List.mem_mergeSort.1 hc)) time

end Tarpit.Traffic
