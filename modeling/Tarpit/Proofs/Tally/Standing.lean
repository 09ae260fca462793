import Tarpit.Proofs.Tally.Calls

/-!
# The ranking after any calls

How a tally ranks the labels that it holds after any calls on it: by the sums of
their amounts, and labels with equal sums in the order in which they were taken.
There is one such ranking, however the tally keeps its entries, and a shorter
answer is the beginning of a longer one.
-/

namespace Tarpit.Traffic

/-- A label with its sum goes before another: it has more, or as much and was taken first. -/
def RanksAbove (taken : List String) (r s : Ranked) : Prop :=
  s.count < r.count ∨ r.count = s.count ∧ taken.idxOf r.label < taken.idxOf s.label

namespace Tally

variable {t : Tally} {taken : List String} {limit : Nat} {calls : List Call}

/-- All labels with their sums in the order of the ranking. -/
def ranking (t : Tally) : List Ranked :=
  (t.entries.mergeSort Entry.ranksBefore).map fun e => ⟨e.label, e.count⟩

theorem top_eq_take (t : Tally) (n : Nat) : t.top n = t.ranking.take n := by
  rw [top, ranking, List.map_take]

theorem labels_ranking_perm (t : Tally) : (t.ranking.map Ranked.label).Perm t.labels := by
  rw [ranking, List.map_map]
  exact (List.mergeSort_perm _ _).map Entry.label

theorem mem_ranking_iff (h : t.labels.Nodup) (r : Ranked) :
    r ∈ t.ranking ↔ t.count? r.label = some r.count := by
  have hmem : r ∈ t.ranking ↔ (r.label, r.count) ∈ t.counts := by
    rw [ranking, counts, List.mem_map, List.mem_map]
    simp only [List.mem_mergeSort, Prod.mk.injEq]
    constructor
    · rintro ⟨e, he, rfl⟩
      exact ⟨e, he, rfl, rfl⟩
    · rintro ⟨e, he, hlabel, hcount⟩
      exact ⟨e, he, by rw [hlabel, hcount]⟩
  have hnodup : (t.counts.map Prod.fst).Nodup := by
    rw [counts, List.map_map]
    exact h
  rw [hmem, count?_eq_lookup, lookup_eq_some_iff_mem hnodup]

namespace Numbered

/-- Where the entries are numbered, they are ranked in one way. -/
theorem mergeSort_eq_of_perm (h : t.Numbered) {entries : List Entry}
    (hperm : entries.Perm t.entries) :
    entries.mergeSort Entry.ranksBefore = t.entries.mergeSort Entry.ranksBefore := by
  have hsorted : (entries.mergeSort Entry.ranksBefore).Perm
      (t.entries.mergeSort Entry.ranksBefore) :=
    (List.mergeSort_perm _ _).trans (hperm.trans (List.mergeSort_perm _ _).symm)
  refine hsorted.eq_of_pairwise ?_ (pairwise_ranksBefore _) (pairwise_ranksBefore _)
  intro e f he hf hef hfe
  -- Entries that rank before each other have one number.
  have hsequence : e.sequence = f.sequence := by
    simp only [Entry.ranksBefore, Bool.or_eq_true, decide_eq_true_eq, Bool.and_eq_true,
      beq_iff_eq] at hef hfe
    omega
  have he : e ∈ t.entries := hperm.mem_iff.1 (List.mem_mergeSort.1 he)
  have hf : f ∈ t.entries := List.mem_mergeSort.1 hf
  have hdistinct : (t.entries.map Entry.sequence).Nodup := by
    rw [h.sequences]
    exact List.nodup_range
  exact List.inj_on_of_nodup_map hdistinct he hf hsequence

theorem pairwise_ranking (h : t.Numbered)
    (hordered : t.labels.Pairwise fun a b => taken.idxOf a < taken.idxOf b) :
    t.ranking.Pairwise (RanksAbove taken) := by
  rw [ranking, List.pairwise_map]
  exact h.pairwise_ranked hordered

end Numbered

/-- What the tally answers when it is asked for the labels with the most, by the labels taken. -/
structure Standing (t : Tally) (taken : List String) : Prop where
  any_order : ∀ entries, entries.Perm t.entries →
    ∀ n, Tally.top { t with entries := entries } n = t.top n
  length_eq : ∀ n, (t.top n).length = min n t.size
  distinct : ∀ n, ((t.top n).map Ranked.label).Nodup
  counts : ∀ n, ∀ r ∈ t.top n, t.count? r.label = some r.count
  ordered : ∀ n, (t.top n).Pairwise (RanksAbove taken)
  left_out : ∀ n label count, t.count? label = some count →
    label ∉ (t.top n).map Ranked.label → ∀ r ∈ t.top n, RanksAbove taken r ⟨label, count⟩
  begins : ∀ m n, m ≤ n → t.top m <+: t.top n

theorem standing_afterCalls (limit : Nat) (calls : List Call) :
    ((empty limit).afterCalls calls).Standing ((empty limit).takenLabels calls) := by
  have htotals := Totals.afterCalls limit calls
  have hordered := idxOf_labels_afterCalls limit calls
  generalize (empty limit).afterCalls calls = t at htotals hordered ⊢
  have hlabels : t.labels.Nodup := htotals.labels_eq ▸ nodup_firstLabels limit _
  have hranking := htotals.numbered.pairwise_ranking hordered
  constructor
  case any_order =>
    intro entries hperm n
    rw [top, top]
    simp only [htotals.numbered.mergeSort_eq_of_perm hperm]
  case length_eq => exact length_top t
  case distinct =>
    intro n
    rw [top_eq_take, List.map_take]
    exact ((labels_ranking_perm t).nodup_iff.2 hlabels).sublist (List.take_sublist _ _)
  case counts =>
    intro n r hr
    rw [top_eq_take] at hr
    exact (mem_ranking_iff hlabels r).1 (List.mem_of_mem_take hr)
  case ordered =>
    intro n
    rw [top_eq_take]
    exact hranking.sublist (List.take_sublist _ _)
  case left_out =>
    intro n label count hcount hlabel r hr
    rw [top_eq_take] at hlabel hr
    have hmem : (⟨label, count⟩ : Ranked) ∈ t.ranking := (mem_ranking_iff hlabels _).2 hcount
    rw [← List.take_append_drop n t.ranking] at hmem hranking
    rcases List.mem_append.1 hmem with hlisted | hrest
    · exact absurd (List.mem_map_of_mem hlisted) hlabel
    · exact (List.pairwise_append.1 hranking).2.2 r hr _ hrest
  case begins =>
    intro m n hle
    rw [top_eq_take, top_eq_take]
    exact List.take_prefix_take_left hle

end Tally

end Tarpit.Traffic
