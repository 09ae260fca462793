import Mathlib.Algebra.BigOperators.Group.List.Basic
import Mathlib.Algebra.GroupWithZero.Nat
import Mathlib.Data.List.Induction
import Tarpit.Proofs.Tally.Agreement

/-!
# Labels in the order in which they came

What a tally holds after some labels were counted one by one: the labels that
came first, as many as its ceiling admits, each with the number of times it
came as one word shows it.  Labels that found no room leave no trace.
-/

namespace Tarpit.Traffic

open Tarpit.Time (Timestamp)

variable {limit : Nat} {labels : List String} {label : String}

/-! ## First labels -/

theorem eraseDups_concat (labels : List String) (label : String) :
    (labels ++ [label]).eraseDups =
      if label ∈ labels then labels.eraseDups else labels.eraseDups ++ [label] := by
  rw [List.eraseDups_append]
  by_cases h : label ∈ labels
  · have hgone : [label].removeAll labels = [] := by simp [List.removeAll, h]
    rw [if_pos h, hgone, List.eraseDups_nil, List.append_nil]
  · have hstays : [label].removeAll labels = [label] := by simp [List.removeAll, h]
    rw [if_neg h, hstays]
    rfl

theorem nodup_eraseDups (labels : List String) : labels.eraseDups.Nodup := by
  induction labels using List.reverseRecOn with
  | nil => exact List.nodup_nil
  | append_singleton rest label ih =>
      rw [eraseDups_concat]
      by_cases h : label ∈ rest
      · rw [if_pos h]
        exact ih
      · rw [if_neg h]
        have hnew : label ∉ rest.eraseDups := fun hmem => h (List.mem_eraseDups.1 hmem)
        exact List.nodup_append_comm.1 (List.nodup_cons.2 ⟨hnew, ih⟩)

/-- The labels for which there is room, in the order of their first appearance. -/
def firstLabels (limit : Nat) (labels : List String) : List String :=
  labels.eraseDups.take limit

example : firstLabels 2 ["b", "a", "b", "c", "a"] = ["b", "a"] := by decide

theorem nodup_firstLabels (limit : Nat) (labels : List String) :
    (firstLabels limit labels).Nodup :=
  (nodup_eraseDups labels).sublist (List.take_sublist _ _)

theorem length_firstLabels (limit : Nat) (labels : List String) :
    (firstLabels limit labels).length = min limit labels.eraseDups.length :=
  List.length_take

theorem mem_of_mem_firstLabels (h : label ∈ firstLabels limit labels) : label ∈ labels :=
  List.mem_eraseDups.1 (List.mem_of_mem_take h)

theorem firstLabels_concat (limit : Nat) (labels : List String) (label : String) :
    firstLabels limit (labels ++ [label]) =
      if label ∈ labels ∨ limit ≤ (firstLabels limit labels).length then firstLabels limit labels
      else firstLabels limit labels ++ [label] := by
  rw [length_firstLabels, firstLabels, eraseDups_concat]
  by_cases hknown : label ∈ labels
  · rw [if_pos hknown, if_pos (Or.inl hknown)]
    rfl
  · rw [if_neg hknown]
    by_cases hfull : limit ≤ labels.eraseDups.length
    · rw [if_pos (Or.inr (Nat.le_min.2 ⟨Nat.le_refl _, hfull⟩)),
        List.take_append_of_le_length hfull]
      rfl
    · have hroom : labels.eraseDups.length < limit := Nat.lt_of_not_le hfull
      have hnone : ¬ (label ∈ labels ∨ limit ≤ min limit labels.eraseDups.length) :=
        not_or.2 ⟨hknown, by omega⟩
      have hlength : (labels.eraseDups ++ [label]).length ≤ limit := by
        rw [List.length_append, List.length_singleton]
        exact hroom
      rw [if_neg hnone, firstLabels, List.take_of_length_le (Nat.le_of_lt hroom),
        List.take_of_length_le hlength]

/-- A label that came before and has no place came when there was no room, and there is none. -/
theorem length_firstLabels_of_not_mem (h : label ∈ labels)
    (hnot : label ∉ firstLabels limit labels) : (firstLabels limit labels).length = limit := by
  rw [length_firstLabels]
  by_contra hne
  have hall : firstLabels limit labels = labels.eraseDups :=
    List.take_of_length_le (by omega)
  rw [hall, List.mem_eraseDups] at hnot
  exact hnot h

/-! ## Their counts -/

/-- The first labels with the number of times that each of them came, as a word shows it. -/
def firstCounts (limit : Nat) (labels : List String) : Counts :=
  (firstLabels limit labels).map fun label => (label, Number.wrapped (labels.count label))

theorem labels_firstCounts (limit : Nat) (labels : List String) :
    (firstCounts limit labels).map Prod.fst = firstLabels limit labels := by
  rw [firstCounts, List.map_map]
  exact List.map_id _

theorem counts_concat_of_not_mem (limit : Nat) {labels : List String} {label : String}
    (h : label ∉ firstLabels limit labels) :
    ((firstLabels limit labels).map fun known =>
        (known, Number.wrapped ((labels ++ [label]).count known))) =
      firstCounts limit labels := by
  apply List.map_congr_left
  intro known hknown
  have hne : label ≠ known := fun heq => h (heq ▸ hknown)
  rw [List.count_append, List.count_singleton, beq_false_of_ne hne]
  rfl

theorem firstCounts_concat (limit : Nat) (labels : List String) (label : String) :
    firstCounts limit (labels ++ [label]) = (firstCounts limit labels).add limit label 1 := by
  have hlength : (firstCounts limit labels).length = (firstLabels limit labels).length :=
    List.length_map _
  unfold Counts.add Counts.bump
  rw [if_neg Nat.one_ne_zero, labels_firstCounts, hlength]
  by_cases hmem : label ∈ firstLabels limit labels
  · rw [if_pos hmem, firstCounts, firstLabels_concat,
      if_pos (Or.inl (mem_of_mem_firstLabels hmem)), firstCounts, List.map_map]
    apply List.map_congr_left
    intro known _
    rw [List.count_append, List.count_singleton]
    by_cases hknown : known = label
    · simp [hknown]
    · simp [hknown, Ne.symm hknown]
  · rw [if_neg hmem, firstCounts, firstLabels_concat]
    by_cases hfull : limit ≤ (firstLabels limit labels).length
    · rw [if_pos (Or.inr hfull), if_pos hfull]
      exact counts_concat_of_not_mem limit hmem
    · have hnew : label ∉ labels := fun hknown =>
        hfull (Nat.le_of_eq (length_firstLabels_of_not_mem hknown hmem).symm)
      have hcount : Number.wrapped ((labels ++ [label]).count label) = 1 := by
        rw [List.count_append, List.count_eq_zero.2 hnew, List.count_singleton_self]
        exact Number.wrapped_of_lt (by decide)
      rw [if_neg (not_or.2 ⟨hnew, hfull⟩), if_neg hfull, List.map_append,
        counts_concat_of_not_mem limit hmem, List.map_singleton, hcount]

theorem countP_mem_cons {known : List String} (h : label ∉ known) (labels : List String) :
    labels.countP (· ∈ label :: known) = labels.count label + labels.countP (· ∈ known) := by
  induction labels with
  | nil => rfl
  | cons l rest ih =>
      rw [List.countP_cons, List.countP_cons, List.count_cons, ih]
      by_cases hl : l = label
      · subst hl
        simp [h]
        omega
      · simp [hl]
        omega

/-- Distinct labels came together as often as there came one of them. -/
theorem sum_count_eq_countP {known : List String} (h : known.Nodup) (labels : List String) :
    (known.map fun label => labels.count label).sum = labels.countP (· ∈ known) := by
  induction known with
  | nil => simp
  | cons label rest ih =>
      obtain ⟨hnew, hrest⟩ := List.nodup_cons.1 h
      rw [List.map_cons, List.sum_cons, ih hrest, countP_mem_cons hnew]

theorem sum_count_firstLabels (limit : Nat) (labels : List String) :
    ((firstLabels limit labels).map fun label => labels.count label).sum =
      labels.length - labels.countP (· ∉ firstLabels limit labels) := by
  have hall := labels.length_eq_countP_add_countP (· ∈ firstLabels limit labels)
  have hsum := sum_count_eq_countP (nodup_firstLabels limit labels) labels
  simp only [decide_eq_true_eq] at hall
  rw [hsum]
  omega

/-- All that came was counted, but for the labels that found no room and for whole words. -/
theorem wrapped_sum_firstCounts (limit : Nat) (labels : List String) :
    Number.wrapped ((firstCounts limit labels).map Prod.snd).sum =
      Number.wrapped (labels.length - labels.countP (· ∉ firstLabels limit labels)) := by
  rw [← sum_count_firstLabels, firstCounts, List.map_map, Number.wrapped, Number.wrapped,
    List.sum_nat_mod ((firstLabels limit labels).map fun label => labels.count label),
    List.map_map]
  rfl

/-- A number of labels that is a word leaves the counts as they are. -/
theorem wrapped_count (h : labels.length < Number.wordBound) (label : String) :
    Number.wrapped (labels.count label) = labels.count label :=
  Number.wrapped_of_lt (Nat.lt_of_le_of_lt List.count_le_length h)

theorem sum_firstCounts (h : labels.length < Number.wordBound) (limit : Nat) :
    ((firstCounts limit labels).map Prod.snd).sum =
      labels.length - labels.countP (· ∉ firstLabels limit labels) := by
  rw [← sum_count_firstLabels, firstCounts, List.map_map]
  simp only [Function.comp_def, wrapped_count h]

theorem pos_of_mem_firstCounts (h : labels.length < Number.wordBound) {c : String × Nat}
    (hc : c ∈ firstCounts limit labels) : 0 < c.2 := by
  obtain ⟨label, hlabel, rfl⟩ := List.mem_map.1 hc
  rw [wrapped_count h]
  exact List.count_pos_iff.2 (mem_of_mem_firstLabels hlabel)

theorem lookup_firstCounts (limit : Nat) (labels : List String) (label : String) :
    (firstCounts limit labels).lookup label =
      if label ∈ firstLabels limit labels then some (Number.wrapped (labels.count label))
      else none := by
  unfold firstCounts
  induction firstLabels limit labels with
  | nil => rfl
  | cons known rest ih =>
      rw [List.map_cons, List.lookup_cons, ih]
      by_cases h : label = known
      · simp [h]
      · simp [h, beq_false_of_ne h]

/-! ## Tallies -/

namespace Tally

/-- The entries are numbered from 0 in the order in which they stand. -/
structure Numbered (t : Tally) : Prop where
  sequences : t.entries.map Entry.sequence = List.range t.size
  nextSequence : t.nextSequence = t.size

variable {t : Tally}

theorem Numbered.bump (h : t.Numbered) (label : String) (n : Nat) (time : Timestamp) :
    (t.bump label n time).Numbered := by
  constructor
  · rw [size_bump, ← h.sequences, Tally.bump, List.map_map]
    apply List.map_congr_left
    intro e _
    simp only [Function.comp]
    split
    · rfl
    · rfl
  · rw [size_bump]
    exact h.nextSequence

theorem Numbered.insert (h : t.Numbered) (label : String) (n : Nat) (time : Timestamp) :
    (t.insert label n time).Numbered := by
  constructor
  · rw [size_insert, List.range_succ, ← h.sequences, ← h.nextSequence, Tally.insert,
      List.map_append]
    rfl
  · rw [size_insert, ← h.nextSequence]
    rfl

theorem Numbered.add (h : t.Numbered) (label : String) (n : Nat) (time : Timestamp) :
    (t.add label n time).2.Numbered := by
  unfold Tally.add
  split
  · exact h
  · split
    · exact h.bump label n time
    · split
      · exact h
      · exact h.insert label n time

/-- The tally is what is left of some labels that were counted one by one. -/
structure Reflects (t : Tally) (limit : Nat) (labels : List String) : Prop where
  limit_eq : t.limit = limit
  counts : t.counts = firstCounts limit labels
  numbered : t.Numbered

theorem reflects_empty (limit : Nat) : (Tally.empty limit).Reflects limit [] := by
  refine ⟨rfl, ?_, rfl, rfl⟩
  rw [firstCounts, firstLabels, List.eraseDups_nil, List.take_nil]
  rfl

theorem Reflects.increment (h : t.Reflects limit labels) (label : String) (time : Timestamp) :
    (t.increment label time).2.Reflects limit (labels ++ [label]) := by
  refine ⟨(limit_add t label 1 time).trans h.limit_eq, ?_, h.numbered.add label 1 time⟩
  rw [Tally.increment, counts_add, h.limit_eq, h.counts, firstCounts_concat]

theorem Reflects.size_eq (h : t.Reflects limit labels) :
    t.size = min limit labels.eraseDups.length := by
  rw [← length_counts, h.counts, firstCounts, List.length_map, length_firstLabels]

theorem Reflects.count?_eq (h : t.Reflects limit labels) (label : String) :
    t.count? label =
      if label ∈ firstLabels limit labels then some (Number.wrapped (labels.count label))
      else none := by
  rw [count?_eq_lookup, h.counts, lookup_firstCounts]

/-- Where all labels can be counted in a word, no count shows zero. -/
theorem Agrees.pos_of_reflects {u : Tally} (h : t.Agrees u) (hu : u.Reflects limit labels)
    (hword : labels.length < Number.wordBound) : ∀ c ∈ t.counts, 0 < c.2 := by
  intro c hc
  have hmem := h.counts.mem_iff.1 hc
  rw [hu.counts] at hmem
  exact pos_of_mem_firstCounts hword hmem

end Tally

end Tarpit.Traffic
