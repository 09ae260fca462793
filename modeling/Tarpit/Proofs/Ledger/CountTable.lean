import Mathlib.Algebra.GroupWithZero.Nat
import Mathlib.Data.List.Dedup
import Mathlib.Data.Finset.Card
import Mathlib.Algebra.BigOperators.Group.List.Lemmas
import Tarpit.Traffic.Ledger

/-!
# Tables of counts

A table of counts is tied to the labels that were counted in it: one row for
each of them, with the number of times that it was counted.
-/

namespace Tarpit.Traffic

open Tarpit.Time (Timestamp)

/-- The rows count exactly the given labels. -/
structure Tabulates (rows : List CountRow) (labels : List String) : Prop where
  distinct : (rows.map CountRow.label).Nodup
  labels_iff : ∀ label, label ∈ rows.map CountRow.label ↔ label ∈ labels
  count_eq : ∀ r ∈ rows, r.count = labels.count r.label

theorem tabulates_nil : Tabulates [] [] :=
  ⟨List.nodup_nil, by simp, by simp⟩

/-! ## Counting one more label -/

theorem countLabel_of_mem {rows : List CountRow} {label : String}
    (h : label ∈ rows.map CountRow.label) (time : Timestamp) :
    countLabel rows label time = rows.map fun r =>
      if r.label == label then
        { r with count := r.count + 1, lastSeen := storedLatest r.lastSeen time }
      else r :=
  if_pos (by simpa [List.any_eq_true] using h)

theorem countLabel_of_not_mem {rows : List CountRow} {label : String}
    (h : label ∉ rows.map CountRow.label) (time : Timestamp) :
    countLabel rows label time = rows ++ [⟨label, 1, time, time⟩] :=
  if_neg (by simpa [List.any_eq_true] using h)

theorem labels_countLabel (rows : List CountRow) (label : String) (time : Timestamp) :
    (countLabel rows label time).map CountRow.label =
      if label ∈ rows.map CountRow.label then rows.map CountRow.label
      else rows.map CountRow.label ++ [label] := by
  by_cases h : label ∈ rows.map CountRow.label
  · rw [countLabel_of_mem h, if_pos h, List.map_map]
    apply List.map_congr_left
    intro r _
    by_cases hr : r.label = label
    · simp [hr]
    · simp [hr]
  · rw [countLabel_of_not_mem h, if_neg h]
    simp

/-- A row after the count is a row from before, the new one, or the one of the label. -/
theorem mem_countLabel {rows : List CountRow} {label : String} {time : Timestamp} {r : CountRow}
    (h : r ∈ countLabel rows label time) :
    (r ∈ rows ∧ r.label ≠ label) ∨
      (r.label = label ∧ r.count = 1 ∧ label ∉ rows.map CountRow.label) ∨
      (r.label = label ∧ ∃ old ∈ rows, old.label = label ∧ r.count = old.count + 1) := by
  by_cases hknown : label ∈ rows.map CountRow.label
  · rw [countLabel_of_mem hknown, List.mem_map] at h
    obtain ⟨old, hold, rfl⟩ := h
    by_cases hlabel : old.label = label
    · simp only [hlabel, beq_self_eq_true, if_true]
      exact Or.inr (Or.inr ⟨trivial, old, hold, hlabel, rfl⟩)
    · have hne : (old.label == label) = false := by simpa using hlabel
      simp only [hne, Bool.false_eq_true, if_false]
      exact Or.inl ⟨hold, hlabel⟩
  · rw [countLabel_of_not_mem hknown, List.mem_append, List.mem_singleton] at h
    rcases h with h | rfl
    · refine Or.inl ⟨h, ?_⟩
      rintro rfl
      exact hknown (List.mem_map_of_mem h)
    · exact Or.inr (Or.inl ⟨rfl, rfl, hknown⟩)

theorem Tabulates.countLabel {rows : List CountRow} {labels : List String}
    (h : Tabulates rows labels) (label : String) (time : Timestamp) :
    Tabulates (countLabel rows label time) (labels ++ [label]) := by
  constructor
  · rw [labels_countLabel]
    split
    · exact h.distinct
    · next hnew =>
        rw [List.nodup_append]
        refine ⟨h.distinct, List.nodup_singleton _, ?_⟩
        intro a ha b hb hab
        rw [List.mem_singleton] at hb
        exact hnew (hb ▸ hab ▸ ha)
  · intro other
    rw [labels_countLabel]
    split
    · next hold =>
        rw [h.labels_iff, List.mem_append, List.mem_singleton]
        constructor
        · exact Or.inl
        · rintro (hmem | rfl)
          · exact hmem
          · exact (h.labels_iff _).1 hold
    · rw [List.mem_append, List.mem_append, h.labels_iff]
  · intro r hr
    rcases mem_countLabel hr with ⟨hold, hne⟩ | ⟨rfl, hone, hnew⟩ | ⟨rfl, old, hold, hlabel, hcount⟩
    · rw [h.count_eq r hold, List.count_append, List.count_singleton]
      simp [Ne.symm hne]
    · have hzero : labels.count r.label = 0 :=
        List.count_eq_zero.2 fun hmem => hnew ((h.labels_iff _).2 hmem)
      rw [hone, List.count_append, hzero, List.count_singleton_self]
    · rw [hcount, h.count_eq old hold, hlabel, List.count_append, List.count_singleton_self]

/-! ## Totals of a table -/

theorem Tabulates.perm_dedup {rows : List CountRow} {labels : List String}
    (h : Tabulates rows labels) : (rows.map CountRow.label).Perm labels.dedup := by
  rw [List.perm_ext_iff_of_nodup h.distinct (List.nodup_dedup labels)]
  intro label
  rw [h.labels_iff, List.mem_dedup]

theorem Tabulates.length_eq {rows : List CountRow} {labels : List String}
    (h : Tabulates rows labels) : rows.length = labels.toFinset.card := by
  rw [List.card_toFinset, ← h.perm_dedup.length_eq, List.length_map]

/-- The counts add up to the number of labels that were counted. -/
theorem Tabulates.sum_eq {rows : List CountRow} {labels : List String}
    (h : Tabulates rows labels) : (rows.map CountRow.count).sum = labels.length := by
  have hcounts : rows.map CountRow.count = (rows.map CountRow.label).map labels.count := by
    rw [List.map_map]
    exact List.map_congr_left h.count_eq
  rw [hcounts, (h.perm_dedup.map labels.count).sum_eq]
  exact List.sum_map_count_dedup_eq_length labels

end Tarpit.Traffic
