import Tarpit.Proofs.Tally.Ranking

/-!
# The heaviest counts

A tally that is filled from counts keeps the heaviest of them.  The order in
which they are taken depends on nothing but the counts themselves, since labels
with equal counts come in the order of their texts, and the tally ranks them in
the order in which it took them.
-/

namespace Tarpit.Traffic

open Tarpit.Time (Timestamp)

/-! ## Counts in order -/

/-- A label with its count goes before another: it is heavier, or as heavy and comes before it. -/
def IsHeavier (a b : String × Nat) : Prop :=
  b.2 < a.2 ∨ a.2 = b.2 ∧ a.1 < b.1

instance (a b : String × Nat) : Decidable (IsHeavier a b) := by
  unfold IsHeavier
  infer_instance

/--
The counts that are not zero, from the heaviest to the lightest, of equal ones the lower label
first.
-/
structure HeaviestFirst (counts ranking : Counts) : Prop where
  perm : ranking.Perm (counts.filter fun c => 0 < c.2)
  ordered : ranking.Pairwise IsHeavier

theorem IsHeavier.asymm {a b : String × Nat} (hab : IsHeavier a b) (hba : IsHeavier b a) :
    False := by
  rcases hab with hab | ⟨heq, hab⟩
  · rcases hba with hba | ⟨heq, -⟩
    · omega
    · omega
  · rcases hba with hba | ⟨-, hba⟩
    · omega
    · exact String.lt_irrefl _ (String.lt_trans hab hba)

variable {counts counts' ranking ranking' : Counts}

theorem HeaviestFirst.unique (h : HeaviestFirst counts ranking)
    (h' : HeaviestFirst counts ranking') : ranking = ranking' :=
  (h.perm.trans h'.perm.symm).eq_of_pairwise
    (fun _ _ _ _ hab hba => (hab.asymm hba).elim) h.ordered h'.ordered

/-- The counts as they are taken into a tally. -/
def heaviest (counts : Counts) : Counts :=
  (rankedCounts counts).filter fun c => 0 < c.2

theorem pairwise_rankedCounts (counts : Counts) :
    (rankedCounts counts).Pairwise fun a b => b.2 < a.2 ∨ a.2 = b.2 ∧ a.1 ≤ b.1 := by
  have htest : ∀ a b : String × Nat,
      (decide (b.2 < a.2) || (a.2 == b.2 && !decide (b.1 < a.1))) = true ↔
        b.2 < a.2 ∨ a.2 = b.2 ∧ a.1 ≤ b.1 := by
    simp only [Bool.or_eq_true, Bool.and_eq_true, decide_eq_true_eq, beq_iff_eq,
      Bool.not_eq_true', decide_eq_false_iff_not, String.not_lt, implies_true]
  refine (List.pairwise_mergeSort ?_ ?_ counts).imp fun {a b} => (htest a b).1
  · intro a b c
    rw [htest, htest, htest]
    rintro (hab | ⟨hab, hle⟩) (hbc | ⟨hbc, hle'⟩)
    · exact .inl (Nat.lt_trans hbc hab)
    · exact .inl (hbc ▸ hab)
    · exact .inl (hab ▸ hbc)
    · exact .inr ⟨hab.trans hbc, String.le_trans hle hle'⟩
  · intro a b
    rw [Bool.or_eq_true, htest, htest]
    rcases Nat.lt_trichotomy a.2 b.2 with hlt | heq | hlt
    · exact .inr (.inl hlt)
    · exact (String.le_total a.1 b.1).imp (fun hle => .inr ⟨heq, hle⟩)
        fun hle => .inr ⟨heq.symm, hle⟩
    · exact .inl (.inl hlt)

/-- The order in which the counts stand does not matter. -/
theorem rankedCounts_eq_of_perm (h : counts.Perm counts') :
    rankedCounts counts = rankedCounts counts' := by
  have hperm : (rankedCounts counts).Perm (rankedCounts counts') :=
    (List.mergeSort_perm _ _).trans (h.trans (List.mergeSort_perm _ _).symm)
  refine hperm.eq_of_pairwise ?_ (pairwise_rankedCounts counts) (pairwise_rankedCounts counts')
  rintro a b - - (hab | ⟨heq, hab⟩) (hba | ⟨heq', hba⟩)
  · omega
  · omega
  · omega
  · exact Prod.ext (String.le_antisymm hab hba) heq

theorem heaviestFirst_heaviest (h : (counts.map Prod.fst).Nodup) :
    HeaviestFirst counts (heaviest counts) := by
  have hperm : (rankedCounts counts).Perm counts := List.mergeSort_perm _ _
  have hlabels : (rankedCounts counts).Pairwise fun a b => a.1 ≠ b.1 :=
    List.pairwise_map.1 ((hperm.map Prod.fst).nodup_iff.2 h)
  refine ⟨hperm.filter _, List.Pairwise.filter _ ?_⟩
  refine ((pairwise_rankedCounts counts).and hlabels).imp ?_
  rintro a b ⟨hlt | ⟨heq, hle⟩, hne⟩
  · exact .inl hlt
  · refine .inr ⟨heq, ?_⟩
    rcases Std.lt_trichotomy a.1 b.1 with hlt | heq' | hlt
    · exact hlt
    · exact absurd heq' hne
    · exact absurd hlt (String.not_lt.2 hle)

/-! ## Tallies -/

namespace Tally

variable {t : Tally}

theorem Numbered.foldl_add (h : t.Numbered) (counts : Counts) (time : Timestamp) :
    (counts.foldl (fun t c => (t.add c.1 c.2 time).2) t).Numbered := by
  induction counts generalizing t with
  | nil => exact h
  | cons c rest ih => exact ih (h.add c.1 c.2 time)

/-- A tally that took its labels by falling counts ranks them in the order in which it took them. -/
theorem Numbered.top_eq (h : t.Numbered) (hordered : t.counts.Pairwise fun a b => b.2 ≤ a.2)
    (n : Nat) : t.top n = (t.counts.take n).map rankedOf := by
  have hranked : t.entries.Pairwise fun e f => e.ranksBefore f = true := by
    rw [List.pairwise_iff_getElem]
    intro i j hi hj hij
    have hcounts := List.pairwise_iff_getElem.1 (List.pairwise_map.1 hordered) i j hi hj hij
    have hsequence := h.sequence_getElem hi
    have hsequence' := h.sequence_getElem hj
    -- The places are the sequence numbers, so equal counts stay in the order they have.
    simp only [Entry.ranksBefore, Bool.or_eq_true, decide_eq_true_eq, Bool.and_eq_true, beq_iff_eq]
    simp only at hcounts
    omega
  rw [top, List.mergeSort_of_pairwise hranked, counts, ← List.map_take, List.map_map]
  rfl

/-- The tally has the first of some counts, and ranks them as they stand. -/
structure Keeps (t : Tally) (limit : Nat) (ranking : Counts) : Prop where
  counts : t.counts = ranking.take limit
  count? : ∀ label, t.count? label = (ranking.take limit).lookup label
  top : ∀ n, t.top n = ((ranking.take limit).take n).map rankedOf

end Tally

theorem MemoryStats.keeps_tallyOf (h : (counts.map Prod.fst).Nodup) (limit : Nat)
    (time : Timestamp) : (tallyOf limit counts time).Keeps limit (heaviest counts) := by
  have hcounts := counts_tallyOf h limit time
  have hnumbered : (tallyOf limit counts time).Numbered :=
    Tally.Numbered.foldl_add (t := .empty limit) ⟨rfl, rfl⟩ _ time
  have hordered : ((heaviest counts).take limit).Pairwise fun a b => b.2 ≤ a.2 := by
    refine ((heaviestFirst_heaviest h).ordered.imp ?_).sublist (List.take_sublist _ _)
    rintro a b (hlt | ⟨heq, -⟩)
    · exact Nat.le_of_lt hlt
    · exact Nat.le_of_eq heq.symm
  refine ⟨hcounts, fun label => ?_, fun n => ?_⟩
  · rw [Tally.count?_eq_lookup, hcounts]
    rfl
  · rw [hnumbered.top_eq (by rw [hcounts]; exact hordered), hcounts]
    rfl

theorem MemoryStats.tallyOf_eq_of_perm (h : counts.Perm counts') (limit : Nat)
    (time : Timestamp) : tallyOf limit counts time = tallyOf limit counts' time := by
  rw [tallyOf, tallyOf, rankedCounts_eq_of_perm h]

end Tarpit.Traffic
