import Mathlib.Data.List.TakeWhile
import Tarpit.Text.Blank

/-!
# Trimmed texts

Trimming takes nothing from a text that was trimmed, leaves something of a text
that is not all blank, and takes all the blanks around a text and nothing else.
What is left after a prefix is what was put behind it.
-/

namespace Tarpit.Text

theorem after?_eq_some_iff {α : Type} [DecidableEq α] {p s rest : List α} :
    after? p s = some rest ↔ s = p ++ rest := by
  refine ⟨eq_append_of_after?, ?_⟩
  rintro rfl
  exact after?_append p rest

/-- What is left after leading blanks begins with no blank. -/
theorem isBlank_head?_dropWhile {s : List Char} {c : Char}
    (h : (s.dropWhile isBlank).head? = some c) : isBlank c = false := by
  have hnot := List.head?_dropWhile_not isBlank s
  rw [h] at hnot
  exact hnot

theorem trim_prefix (s : List Char) : trim s <+: s.dropWhile isBlank := by
  have hsuffix := List.dropWhile_suffix isBlank (l := (s.dropWhile isBlank).reverse)
  have hprefix := List.reverse_prefix.2 hsuffix
  rwa [List.reverse_reverse] at hprefix

/-- No blank stands at either end. -/
def Bare (s : List Char) : Prop :=
  ∀ c, s.head? = some c ∨ s.getLast? = some c → isBlank c = false

theorem trim_of_bare {s : List Char} (h : Bare s) : trim s = s :=
  trim_eq_self (fun c hc => h c (.inl hc)) fun c hc => h c (.inr hc)

theorem bare_of_forall {s : List Char} (h : ∀ c ∈ s, isBlank c = false) : Bare s := by
  rintro c (hc | hc)
  · exact h c (List.mem_of_head? hc)
  · exact h c (List.mem_of_getLast? hc)

theorem bare_trim (s : List Char) : Bare (trim s) := by
  rintro c (hc | hc)
  · obtain ⟨rest, hrest⟩ := trim_prefix s
    apply isBlank_head?_dropWhile (s := s)
    rw [← hrest, List.head?_append, hc]
    rfl
  · rw [trim, List.getLast?_reverse] at hc
    exact isBlank_head?_dropWhile hc

theorem trim_trim (s : List Char) : trim (trim s) = trim s :=
  trim_of_bare (bare_trim s)

@[simp] theorem trimmed_trimmed (s : String) : trimmed (trimmed s) = trimmed s := by
  rw [trimmed, toList_trimmed, trim_trim]
  rfl

theorem trim_ne_nil {c : Char} (h : isBlank c = false) {s : List Char} (hmem : c ∈ s) :
    trim s ≠ [] := by
  intro hnil
  have hend : (s.dropWhile isBlank).reverse.dropWhile isBlank = [] :=
    List.reverse_eq_nil_iff.1 hnil
  have hrest : ∀ d ∈ s.dropWhile isBlank, isBlank d = true := by
    have hall := List.any_dropWhile (p := isBlank) (l := (s.dropWhile isBlank).reverse)
    rw [hend, List.all_reverse] at hall
    simpa using hall
  rw [← List.takeWhile_append_dropWhile (p := isBlank) (l := s)] at hmem
  rcases List.mem_append.1 hmem with hstart | hlater
  · have hblank := List.all_eq_true.1 List.all_takeWhile c hstart
    rw [hblank] at h
    cases h
  · rw [hrest c hlater] at h
    cases h

/-- Blanks around a text make no difference to the trimmed text. -/
theorem trim_of_blank_around {left right : List Char} (hleft : ∀ c ∈ left, isBlank c = true)
    (hright : ∀ c ∈ right, isBlank c = true) (s : List Char) :
    trim (left ++ (s ++ right)) = trim s := by
  have hreverse : ∀ c ∈ right.reverse, isBlank c = true := fun c hc =>
    hright c (List.mem_reverse.1 hc)
  unfold trim
  rw [List.dropWhile_append_of_pos hleft, List.dropWhile_append]
  split
  · next hnone =>
    rw [List.dropWhile_eq_nil_iff.2 hright, List.isEmpty_iff.1 hnone]
  · rw [List.reverse_append, List.dropWhile_append_of_pos hreverse]

/-- All that trimming takes away is blank. -/
theorem exists_around_trim (s : List Char) :
    ∃ left right, (∀ c ∈ left, isBlank c = true) ∧ (∀ c ∈ right, isBlank c = true) ∧
      s = left ++ (trim s ++ right) := by
  refine ⟨s.takeWhile isBlank, ((s.dropWhile isBlank).reverse.takeWhile isBlank).reverse,
    List.all_eq_true.1 List.all_takeWhile, ?_, ?_⟩
  · intro c hc
    exact List.all_eq_true.1 List.all_takeWhile c (List.mem_reverse.1 hc)
  · rw [trim, ← List.reverse_append, List.takeWhile_append_dropWhile, List.reverse_reverse,
      List.takeWhile_append_dropWhile]

theorem mem_of_mem_trim {s : List Char} {c : Char} (h : c ∈ trim s) : c ∈ s := by
  obtain ⟨left, right, -, -, hs⟩ := exists_around_trim s
  rw [hs]
  exact List.mem_append_right _ (List.mem_append_left _ h)

/-- A text is another one with blanks around it, and that one has none at either end. -/
structure Trims (s t : List Char) : Prop where
  bare : Bare t
  around : ∃ left right, (∀ c ∈ left, isBlank c = true) ∧ (∀ c ∈ right, isBlank c = true) ∧
    s = left ++ (t ++ right)

theorem trims_trim (s : List Char) : Trims s (trim s) :=
  ⟨bare_trim s, exists_around_trim s⟩

theorem trims_iff {s t : List Char} : Trims s t ↔ trim s = t := by
  constructor
  · rintro ⟨hbare, left, right, hleft, hright, rfl⟩
    rw [trim_of_blank_around hleft hright, trim_of_bare hbare]
  · rintro rfl
    exact trims_trim s

end Tarpit.Text
