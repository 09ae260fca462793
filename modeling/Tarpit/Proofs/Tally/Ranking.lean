import Tarpit.Proofs.Ledger.CountTable
import Tarpit.Proofs.Tally.Top

/-!
# Tallies and tables

A tally below its ceiling and a table of counts that count the same labels show
the same counts and rank them alike.
-/

namespace Tarpit.Traffic

open Tarpit.Time (Timestamp)

/-! ## Rankings -/

def CountRow.shown (r : CountRow) : String × Nat :=
  (r.label, r.count)

def rankedOf (c : String × Nat) : Ranked :=
  ⟨c.1, c.2⟩

/--
Two rankings of the same counts: the counts are the same from place to place, and where there are
places for all the labels, these are the same as well.
-/
def RankAlike (labels places : Nat) (xs ys : List Ranked) : Prop :=
  xs.map Ranked.count = ys.map Ranked.count ∧ (labels ≤ places → xs.Perm ys)

theorem rankAlike_take {xs ys : List Ranked} (hperm : xs.Perm ys)
    (hxs : xs.Pairwise fun a b => b.count ≤ a.count)
    (hys : ys.Pairwise fun a b => b.count ≤ a.count) (n : Nat) :
    RankAlike xs.length n (xs.take n) (ys.take n) := by
  constructor
  · have hxcounts : (xs.map Ranked.count).Pairwise fun a b => b ≤ a := List.pairwise_map.2 hxs
    have hycounts : (ys.map Ranked.count).Pairwise fun a b => b ≤ a := List.pairwise_map.2 hys
    have hcounts : xs.map Ranked.count = ys.map Ranked.count :=
      (hperm.map Ranked.count).eq_of_pairwise (fun a b _ _ hab hba => Nat.le_antisymm hba hab)
        hxcounts hycounts
    rw [List.map_take, List.map_take, hcounts]
  · intro hall
    rw [List.take_of_length_le hall, List.take_of_length_le (hperm.length_eq ▸ hall)]
    exact hperm

theorem pairwise_count_ranked (entries : List Entry) :
    (entries.mergeSort Entry.ranksBefore).Pairwise fun e f => f.count ≤ e.count := by
  refine (pairwise_ranksBefore entries).imp ?_
  intro e f
  simp only [Entry.ranksBefore, Bool.or_eq_true, decide_eq_true_eq, Bool.and_eq_true, beq_iff_eq]
  omega

theorem pairwise_heaviestFirst (rows : List CountRow) :
    (heaviestFirst rows).Pairwise fun r q => q.count ≤ r.count := by
  refine (List.pairwise_mergeSort ?_ ?_ rows).imp ?_
  · intro p q r
    simp only [decide_eq_true_eq]
    omega
  · intro p q
    simp only [Bool.or_eq_true, decide_eq_true_eq]
    omega
  · intro p q hle
    simpa using hle

/-- A tally and a table with the same counts rank them alike. -/
theorem rankAlike_top {t : Tally} {rows : List CountRow}
    (h : t.counts.Perm (rows.map CountRow.shown)) (n : Nat) :
    RankAlike rows.length n (t.top n) (Ledger.topOf rows n) := by
  have hentries : ((t.entries.mergeSort Entry.ranksBefore).map fun e => ⟨e.label, e.count⟩).Perm
      (t.counts.map rankedOf) := by
    rw [Tally.counts, List.map_map]
    exact (List.mergeSort_perm _ _).map _
  have hrows : ((heaviestFirst rows).map fun r => ⟨r.label, r.count⟩).Perm
      ((rows.map CountRow.shown).map rankedOf) := by
    rw [List.map_map]
    exact (List.mergeSort_perm _ _).map _
  have hperm := hentries.trans ((h.map rankedOf).trans hrows.symm)
  have hlength := hperm.length_eq
  have halike := rankAlike_take hperm (List.pairwise_map.2 (pairwise_count_ranked _))
    (List.pairwise_map.2 (pairwise_heaviestFirst _)) n
  rw [hlength, List.length_map, heaviestFirst, List.length_mergeSort, ← heaviestFirst] at halike
  rw [Tally.top, Ledger.topOf, List.map_take, List.map_take]
  exact halike

/-! ## Counting -/

/-- Where there is room, a tally and a table count a label alike, as far as a word goes. -/
theorem shown_countLabel {limit : Nat} {rows : List CountRow} (hroom : rows.length < limit)
    (hwords : ∀ r ∈ rows, r.count + 1 < Number.wordBound) (label : String) (time : Timestamp) :
    (countLabel rows label time).map CountRow.shown =
      Counts.add limit (rows.map CountRow.shown) label 1 := by
  have hlabels : (rows.map CountRow.shown).map Prod.fst = rows.map CountRow.label := by
    rw [List.map_map]
    rfl
  unfold Counts.add Counts.bump
  rw [hlabels, List.length_map, if_neg Nat.one_ne_zero, if_neg (Nat.not_le_of_lt hroom)]
  by_cases hknown : label ∈ rows.map CountRow.label
  · rw [countLabel_of_mem hknown, if_pos hknown, List.map_map, List.map_map]
    apply List.map_congr_left
    intro r hr
    have hword := Number.wrapped_of_lt (hwords r hr)
    by_cases hlabel : r.label = label
    · simp [CountRow.shown, hlabel, hword]
    · simp [CountRow.shown, hlabel]
  · rw [countLabel_of_not_mem hknown, if_neg hknown, List.map_append]
    rfl

theorem length_countLabel_le (rows : List CountRow) (label : String) (time : Timestamp) :
    (countLabel rows label time).length ≤ rows.length + 1 := by
  by_cases h : label ∈ rows.map CountRow.label
  · rw [countLabel_of_mem h, List.length_map]
    exact Nat.le_succ _
  · rw [countLabel_of_not_mem h, List.length_append, List.length_singleton]

theorem count_countLabel_le {rows : List CountRow} {bound : Nat} (h : ∀ r ∈ rows, r.count ≤ bound)
    (label : String) (time : Timestamp) :
    ∀ r ∈ countLabel rows label time, r.count ≤ bound + 1 := by
  intro r hr
  by_cases hknown : label ∈ rows.map CountRow.label
  · rw [countLabel_of_mem hknown] at hr
    obtain ⟨q, hq, rfl⟩ := List.mem_map.1 hr
    have hle := h q hq
    split
    · exact Nat.add_le_add_right hle 1
    · omega
  · rw [countLabel_of_not_mem hknown] at hr
    rcases List.mem_append.1 hr with hold | hnew
    · exact Nat.le_succ_of_le (h r hold)
    · rw [List.mem_singleton.1 hnew]
      exact Nat.le_add_left 1 bound

/-- The tally shows the counts of the table, and has room for some labels and some counts more. -/
structure Tally.Mirrors (t : Tally) (rows : List CountRow) (room : Nat) : Prop where
  counts : t.counts = rows.map CountRow.shown
  room_le : t.size + room ≤ t.limit
  words : ∃ most, (∀ r ∈ rows, r.count ≤ most) ∧ most + room < Number.wordBound

theorem Tally.Mirrors.size_eq {t : Tally} {rows : List CountRow} {room : Nat}
    (h : t.Mirrors rows room) : t.size = rows.length := by
  rw [← Tally.length_counts, h.counts, List.length_map]

theorem Tally.Mirrors.increment {t : Tally} {rows : List CountRow} {room : Nat}
    (h : t.Mirrors rows (room + 1)) (label : String) (time : Timestamp) :
    (t.increment label time).2.Mirrors (countLabel rows label time) room := by
  have hsize := h.size_eq
  have hroom := h.room_le
  obtain ⟨most, hmost, hword⟩ := h.words
  have hwords : ∀ r ∈ rows, r.count + 1 < Number.wordBound := by
    intro r hr
    have hle := hmost r hr
    omega
  have hcounts : (t.increment label time).2.counts =
      (countLabel rows label time).map CountRow.shown := by
    rw [Tally.increment, Tally.counts_add, h.counts, ← shown_countLabel (by omega) hwords]
  refine ⟨hcounts, ?_, most + 1, count_countLabel_le hmost label time, by omega⟩
  have hlength := length_countLabel_le rows label time
  rw [← Tally.length_counts, hcounts, List.length_map, Tally.increment, Tally.limit_add]
  omega

end Tarpit.Traffic
