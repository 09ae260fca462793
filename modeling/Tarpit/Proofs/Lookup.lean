import Mathlib.Data.List.Forall2
import Mathlib.Data.List.Nodup

/-!
# Lists of entries

Lists that are read entry by entry, and looking up a key after entries were
replaced, taken out or added.
-/

namespace Tarpit

/-! ## Reading every entry -/

section

variable {α β : Type} {read : α → Option β} {ys : List β}

theorem mapM_eq_some_iff {xs : List α} : xs.mapM read = some ys ↔ xs.map read = ys.map some := by
  induction xs generalizing ys with
  | nil =>
      rw [List.mapM_nil, List.map_nil, eq_comm (a := []), List.map_eq_nil_iff]
      exact Option.some_inj.trans eq_comm
  | cons x rest ih =>
      rw [List.mapM_cons, List.map_cons]
      constructor
      · intro h
        simp only [Option.bind_eq_bind, Option.bind_eq_some_iff] at h
        obtain ⟨y, hy, more, hmore, hys⟩ := h
        cases hys
        rw [hy, ih.1 hmore, List.map_cons]
      · intro h
        obtain ⟨y, more, rfl, hy, hmore⟩ := List.map_eq_cons_iff.1 h.symm
        rw [← hy, ih.2 hmore.symm]
        rfl

/-- Entries that are each read back as what they were written from. -/
theorem mapM_map_eq_some {write : β → α} (h : ∀ y ∈ ys, read (write y) = some y) :
    (ys.map write).mapM read = some ys := by
  rw [mapM_eq_some_iff, List.map_map]
  exact List.map_congr_left h

end

/-! ## Looking up a key -/

variable {α β : Type} [BEq α] [LawfulBEq α]

theorem lookup_filter_of_ne (entries : List (α × β)) {k other : α} (h : other ≠ k) :
    (entries.filter fun e => e.1 != k).lookup other = entries.lookup other := by
  induction entries with
  | nil => rfl
  | cons e rest ih =>
      obtain ⟨a, b⟩ := e
      by_cases hk : a = k
      · subst hk
        have hne : (other == a) = false := by simpa using h
        simpa [List.lookup_cons, hne] using ih
      · simp only [List.filter_cons, bne_iff_ne, ne_eq, hk, not_false_eq_true, if_true,
          List.lookup_cons, ih]

theorem lookup_filter_self (entries : List (α × β)) (k : α) :
    (entries.filter fun e => e.1 != k).lookup k = none := by
  rw [List.lookup_eq_none_iff]
  intro e he
  have hne : e.1 ≠ k := by simpa using (List.mem_filter.1 he).2
  simpa using hne.symm

theorem lookup_replace_self (entries : List (α × β)) (k : α) (b : β) :
    (entries.map fun e => if e.1 == k then (k, b) else e).lookup k =
      (entries.lookup k).map fun _ => b := by
  induction entries with
  | nil => rfl
  | cons e rest ih =>
      obtain ⟨a, c⟩ := e
      by_cases hk : a = k
      · subst hk
        simp
      · have hne : (k == a) = false := by simpa using fun h : k = a => hk h.symm
        simp only [List.map_cons, beq_iff_eq, hk, if_false, List.lookup_cons, hne]
        simpa using ih

theorem lookup_replace_of_ne (entries : List (α × β)) {k other : α} (h : other ≠ k) (b : β) :
    (entries.map fun e => if e.1 == k then (k, b) else e).lookup other = entries.lookup other := by
  induction entries with
  | nil => rfl
  | cons e rest ih =>
      obtain ⟨a, c⟩ := e
      by_cases hk : a = k
      · subst hk
        have hne : (other == a) = false := by simpa using h
        simpa [List.lookup_cons, hne] using ih
      · simp only [List.map_cons, beq_iff_eq, hk, if_false, List.lookup_cons]
        rw [← ih]

theorem map_fst_replace (entries : List (α × β)) (k : α) (b : β) :
    (entries.map fun e => if e.1 == k then (k, b) else e).map Prod.fst =
      entries.map Prod.fst := by
  rw [List.map_map]
  apply List.map_congr_left
  intro e _
  by_cases hk : e.1 = k
  · simp [hk]
  · simp [hk]

theorem mem_map_fst_of_lookup {entries : List (α × β)} {k : α} {b : β}
    (h : entries.lookup k = some b) : k ∈ entries.map Prod.fst := by
  obtain ⟨before, rest, rfl, _⟩ := List.lookup_eq_some_iff.1 h
  simp

theorem not_mem_map_fst_of_lookup {entries : List (α × β)} {k : α}
    (h : entries.lookup k = none) : k ∉ entries.map Prod.fst := by
  rw [List.lookup_eq_none_iff] at h
  intro hk
  obtain ⟨e, he, rfl⟩ := List.mem_map.1 hk
  simpa using h e he

/-- Where every key stands once, a key that loses its entry is not found any more. -/
theorem lookup_filter_of_nodup {entries : List (α × β)} (h : (entries.map Prod.fst).Nodup)
    (keep : α × β → Bool) (k : α) :
    (entries.filter keep).lookup k = (entries.lookup k).filter fun b => keep (k, b) := by
  induction entries with
  | nil => rfl
  | cons e rest ih =>
      obtain ⟨a, b⟩ := e
      rw [List.map_cons, List.nodup_cons] at h
      by_cases hk : k = a
      · subst hk
        by_cases hkeep : keep (k, b) = true
        · simp [hkeep, Option.filter]
        · have hgone : rest.lookup k = none := by
            cases hrest : rest.lookup k with
            | none => rfl
            | some c => exact absurd (mem_map_fst_of_lookup hrest) h.1
          rw [List.filter_cons_of_neg hkeep, ih h.2, hgone, List.lookup_cons_self]
          simp [Option.filter, hkeep]
      · have hne : (k == a) = false := by simpa using hk
        by_cases hkeep : keep (a, b) = true
        · rw [List.filter_cons_of_pos hkeep, List.lookup_cons, List.lookup_cons, hne]
          exact ih h.2
        · rw [List.filter_cons_of_neg hkeep, List.lookup_cons, hne]
          exact ih h.2

theorem lookup_eq_some_iff_mem {entries : List (α × β)} (h : (entries.map Prod.fst).Nodup)
    {k : α} {b : β} : entries.lookup k = some b ↔ (k, b) ∈ entries := by
  induction entries with
  | nil => simp
  | cons e rest ih =>
      obtain ⟨a, c⟩ := e
      rw [List.map_cons, List.nodup_cons] at h
      by_cases hk : k = a
      · subst hk
        rw [List.lookup_cons_self]
        constructor
        · rintro ⟨⟩
          exact List.mem_cons_self
        · intro hmem
          rcases List.mem_cons.1 hmem with heq | hrest
          · rw [(Prod.mk.inj heq).2]
          · exact absurd (List.mem_map_of_mem (f := Prod.fst) hrest) h.1
      · have hne : (k == a) = false := by simpa using hk
        rw [List.lookup_cons, hne, List.mem_cons]
        simp only [ih h.2]
        constructor
        · exact Or.inr
        · rintro (heq | hrest)
          · exact absurd (Prod.mk.inj heq).1 hk
          · exact hrest

/-- Where every key stands once, the order of the entries does not matter. -/
theorem lookup_eq_of_perm {xs ys : List (α × β)} (hperm : xs.Perm ys)
    (h : (xs.map Prod.fst).Nodup) (k : α) : xs.lookup k = ys.lookup k := by
  have hys : (ys.map Prod.fst).Nodup := (hperm.map Prod.fst).nodup_iff.1 h
  apply Option.ext
  intro b
  rw [lookup_eq_some_iff_mem h, lookup_eq_some_iff_mem hys, hperm.mem_iff]

/-- Where every key stands once, what the keys find makes up the entries. -/
theorem perm_of_lookup {xs ys : List (α × β)} (hxs : (xs.map Prod.fst).Nodup)
    (hys : (ys.map Prod.fst).Nodup) (h : ∀ k, xs.lookup k = ys.lookup k) : xs.Perm ys := by
  rw [List.perm_ext_iff_of_nodup hxs.of_map hys.of_map]
  rintro ⟨k, b⟩
  rw [← lookup_eq_some_iff_mem hxs, ← lookup_eq_some_iff_mem hys, h]

omit [LawfulBEq α] in
/-- Where two lists have the same keys in the same order, a key finds entries that are related. -/
theorem rel_lookup {R : β → β → Prop} {xs ys : List (α × β)}
    (h : List.Forall₂ (fun e e' => e'.1 = e.1 ∧ R e.2 e'.2) xs ys) (k : α) :
    Option.Rel R (xs.lookup k) (ys.lookup k) := by
  induction h with
  | nil => exact .none
  | @cons e e' rest rest' hentry _ ih =>
      rw [List.lookup_cons, List.lookup_cons, hentry.1]
      cases k == e.1 with
      | true => exact .some hentry.2
      | false => exact ih

end Tarpit
