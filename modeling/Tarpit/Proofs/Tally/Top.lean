import Tarpit.Proofs.Tally.Appearance

/-!
# Rankings of labels

How a tally ranks the labels that it holds: by the number of times each of them
came, as its count of one word shows it, and labels with equal counts in the
order of their first appearance.
-/

namespace Tarpit.Traffic

variable {limit : Nat} {labels ranking : List String}

theorem pairwise_ranksBefore (entries : List Entry) :
    (entries.mergeSort Entry.ranksBefore).Pairwise fun e f => e.ranksBefore f = true := by
  refine List.pairwise_mergeSort ?_ ?_ entries
  · intro e f g
    simp only [Entry.ranksBefore, Bool.or_eq_true, decide_eq_true_eq, Bool.and_eq_true, beq_iff_eq]
    omega
  · intro e f
    simp only [Entry.ranksBefore, Bool.or_eq_true, decide_eq_true_eq, Bool.and_eq_true, beq_iff_eq]
    omega

theorem idxOf_eraseDups (labels : List String) :
    labels.eraseDups.Pairwise fun a b => labels.idxOf a < labels.idxOf b := by
  induction labels using List.reverseRecOn with
  | nil => exact List.Pairwise.nil
  | append_singleton rest label ih =>
      have hrest : rest.eraseDups.Pairwise fun a b =>
          (rest ++ [label]).idxOf a < (rest ++ [label]).idxOf b := by
        refine ih.imp_of_mem fun ha hb hlt => ?_
        rw [List.idxOf_append, List.idxOf_append, if_pos (List.mem_eraseDups.1 ha),
          if_pos (List.mem_eraseDups.1 hb)]
        exact hlt
      rw [eraseDups_concat]
      by_cases h : label ∈ rest
      · rw [if_pos h]
        exact hrest
      · rw [if_neg h, List.pairwise_append]
        refine ⟨hrest, List.pairwise_singleton _ _, ?_⟩
        intro a ha b hb
        have hmem : a ∈ rest := List.mem_eraseDups.1 ha
        rw [List.mem_singleton.1 hb, List.idxOf_append, List.idxOf_append, if_pos hmem, if_neg h]
        exact Nat.lt_of_lt_of_le (List.idxOf_lt_length_of_mem hmem) (Nat.le_add_left _ _)

theorem idxOf_firstLabels (limit : Nat) (labels : List String) :
    (firstLabels limit labels).Pairwise fun a b => labels.idxOf a < labels.idxOf b :=
  (idxOf_eraseDups labels).sublist (List.take_sublist _ _)

/-- The first labels from the commonest to the rarest; of two as common the one that came first. -/
structure Ranks (limit : Nat) (labels ranking : List String) : Prop where
  perm : ranking.Perm (firstLabels limit labels)
  ordered : ranking.Pairwise fun a b =>
    Number.wrapped (labels.count b) < Number.wrapped (labels.count a) ∨
      Number.wrapped (labels.count a) = Number.wrapped (labels.count b) ∧
        labels.idxOf a < labels.idxOf b

namespace Tally

variable {t : Tally}

namespace Reflects

theorem map_label (h : t.Reflects limit labels) :
    t.entries.map Entry.label = firstLabels limit labels := by
  rw [← labels_firstCounts, ← h.counts, Tally.counts, List.map_map]
  rfl

theorem count_eq (h : t.Reflects limit labels) {e : Entry} (he : e ∈ t.entries) :
    e.count = Number.wrapped (labels.count e.label) := by
  have hmem : (e.label, e.count) ∈ firstCounts limit labels := by
    rw [← h.counts]
    exact List.mem_map.2 ⟨e, he, rfl⟩
  obtain ⟨label, -, heq⟩ := List.mem_map.1 hmem
  rw [← (Prod.mk.inj heq).2, (Prod.mk.inj heq).1]

end Reflects

theorem Numbered.sequence_getElem (h : t.Numbered) {i : Nat} (hi : i < t.entries.length) :
    (t.entries[i]).sequence = i := by
  have hmap : i < (t.entries.map Entry.sequence).length := by rwa [List.length_map]
  rw [← List.getElem_map Entry.sequence (h := hmap)]
  simp only [h.sequences, List.getElem_range]

/-- Of two entries the one with the lower number has the label that came first. -/
theorem Numbered.idxOf_lt (h : t.Numbered)
    (hordered : (t.entries.map Entry.label).Pairwise fun a b => labels.idxOf a < labels.idxOf b)
    {e f : Entry} (he : e ∈ t.entries) (hf : f ∈ t.entries) (hne : e ≠ f)
    (hle : e.sequence ≤ f.sequence) : labels.idxOf e.label < labels.idxOf f.label := by
  obtain ⟨i, hi, rfl⟩ := List.mem_iff_getElem.1 he
  obtain ⟨j, hj, rfl⟩ := List.mem_iff_getElem.1 hf
  rw [h.sequence_getElem hi, h.sequence_getElem hj] at hle
  have hij : i < j := by
    refine Nat.lt_of_le_of_ne hle ?_
    rintro rfl
    exact hne rfl
  exact List.pairwise_iff_getElem.1 (List.pairwise_map.1 hordered) i j hi hj hij

theorem Numbered.sequence_lt_iff (h : t.Numbered)
    (hordered : (t.entries.map Entry.label).Pairwise fun a b => labels.idxOf a < labels.idxOf b)
    {e f : Entry} (he : e ∈ t.entries) (hf : f ∈ t.entries) (hne : e ≠ f) :
    e.sequence ≠ f.sequence ∧
      (e.sequence < f.sequence ↔ labels.idxOf e.label < labels.idxOf f.label) := by
  have hforth := h.idxOf_lt hordered he hf hne
  have hback := h.idxOf_lt hordered hf he (Ne.symm hne)
  omega

/-- The entries are ranked by their counts, and those with equal counts as their labels came. -/
theorem Numbered.pairwise_ranked (h : t.Numbered)
    (hordered : (t.entries.map Entry.label).Pairwise fun a b => labels.idxOf a < labels.idxOf b) :
    (t.entries.mergeSort Entry.ranksBefore).Pairwise fun e f =>
      f.count < e.count ∨ e.count = f.count ∧ labels.idxOf e.label < labels.idxOf f.label := by
  have hperm := List.mergeSort_perm t.entries Entry.ranksBefore
  have hentries : t.entries.Nodup := by
    refine (List.pairwise_map.1 hordered).imp fun {e f} hlt heq => ?_
    exact Nat.lt_irrefl _ (heq ▸ hlt)
  refine ((pairwise_ranksBefore t.entries).and (hperm.nodup_iff.2 hentries)).imp_of_mem ?_
  intro e f he hf ⟨hbefore, hne⟩
  have he := hperm.mem_iff.1 he
  have hf := hperm.mem_iff.1 hf
  simp only [Entry.ranksBefore, Bool.or_eq_true, decide_eq_true_eq, Bool.and_eq_true,
    beq_iff_eq] at hbefore
  rcases hbefore with hlt | ⟨heq, hle⟩
  · exact .inl hlt
  · exact .inr ⟨heq.symm, h.idxOf_lt hordered he hf hne hle⟩

namespace Reflects

/-- The tally ranks the labels that it holds, however many of them are asked for. -/
theorem top_eq (h : t.Reflects limit labels) :
    ∃ ranking, Ranks limit labels ranking ∧
      ∀ n, t.top n =
        (ranking.take n).map fun label => ⟨label, Number.wrapped (labels.count label)⟩ := by
  have hperm := List.mergeSort_perm t.entries Entry.ranksBefore
  have hordered := h.map_label ▸ idxOf_firstLabels limit labels
  refine ⟨(t.entries.mergeSort Entry.ranksBefore).map Entry.label, ⟨?perm, ?ordered⟩, fun n => ?top⟩
  case perm =>
    rw [← h.map_label]
    exact hperm.map Entry.label
  case ordered =>
    rw [List.pairwise_map]
    refine (h.numbered.pairwise_ranked hordered).imp_of_mem ?_
    intro e f he hf habove
    rwa [h.count_eq (hperm.mem_iff.1 he), h.count_eq (hperm.mem_iff.1 hf)] at habove
  case top =>
    rw [Tally.top, ← List.map_take, List.map_map]
    apply List.map_congr_left
    intro e he
    rw [h.count_eq (hperm.mem_iff.1 (List.mem_of_mem_take he))]
    rfl

end Reflects

end Tally

end Tarpit.Traffic
