import Tarpit.Proofs.Time.Order

/-!
# First and last times

The last of some times in an order of times, and what one more time makes of it.
The orders are given by their tests, so that the order of the written texts and
that of the instants can stand in the same statement.
-/

namespace Tarpit.Time

/-- The test is that of a strict order. -/
structure Orders (before : Timestamp → Timestamp → Bool) : Prop where
  irrefl : ∀ t, before t t = false
  trans : ∀ {s t u}, before s t = true → before t u = true → before s u = true

variable {before before' : Timestamp → Timestamp → Bool}

theorem orders_before : Orders Timestamp.before :=
  ⟨Timestamp.before_irrefl, Timestamp.before_trans⟩

theorem Orders.flip (h : Orders before) : Orders (flip before) :=
  ⟨h.irrefl, fun hst htu => h.trans htu hst⟩

/--
The time is one of some times, and none of them comes after it.  In the order that
is turned around this is the first of them.
-/
structure IsLast (before : Timestamp → Timestamp → Bool) (times : List Timestamp)
    (t : Timestamp) : Prop where
  mem : t ∈ times
  last : ∀ u ∈ times, before t u = false

variable {times : List Timestamp} {t u : Timestamp}

theorem Orders.isLast_singleton (h : Orders before) (t : Timestamp) : IsLast before [t] t := by
  refine ⟨List.mem_singleton_self t, fun u hu => ?_⟩
  rw [List.mem_singleton.1 hu]
  exact h.irrefl t

/-- With one more time the last one is the later of the two. -/
theorem IsLast.append (horder : Orders before) (h : IsLast before times t) (u : Timestamp) :
    IsLast before (times ++ [u]) (if before t u then u else t) := by
  by_cases hlater : before t u = true
  · rw [if_pos hlater]
    refine ⟨List.mem_append_right _ (List.mem_singleton_self u), fun w hw => ?_⟩
    rcases List.mem_append.1 hw with hold | hnew
    · -- A time after the new one would have been after the old last one.
      rw [Bool.eq_false_iff]
      intro hafter
      have hold' := h.last w hold
      rw [horder.trans hlater hafter] at hold'
      cases hold'
    · rw [List.mem_singleton.1 hnew]
      exact horder.irrefl u
  · rw [if_neg hlater]
    refine ⟨List.mem_append_left _ h.mem, fun w hw => ?_⟩
    rcases List.mem_append.1 hw with hold | hnew
    · exact h.last w hold
    · rw [List.mem_singleton.1 hnew]
      exact Bool.eq_false_iff.2 hlater

theorem IsLast.congr (h : IsLast before times t)
    (hsame : ∀ s ∈ times, ∀ u ∈ times, before s u = before' s u) : IsLast before' times t :=
  ⟨h.mem, fun u hu => (hsame t h.mem u hu).symm.trans (h.last u hu)⟩

/-- Where two times are in order one way or the other, there is one last time. -/
theorem IsLast.unique (htotal : ∀ s u, before s u = true ∨ s = u ∨ before u s = true)
    (ht : IsLast before times t) (hu : IsLast before times u) : t = u := by
  rcases htotal t u with h | h | h
  · rw [ht.last u hu.mem] at h
    cases h
  · exact h
  · rw [hu.last t ht.mem] at h
    cases h

/-- The time that is written last is the last one just if no year is written after its own. -/
theorem IsLast.written_iff {last latest : Timestamp}
    (hlast : IsLast Timestamp.writtenBefore times last)
    (hlatest : IsLast Timestamp.before times latest) :
    last = latest ↔ ∀ t ∈ times, ¬ yearText latest.year < yearText t.year := by
  constructor
  · rintro rfl t ht hyear
    have hwritten := hlast.last t ht
    rw [Timestamp.writtenBefore_iff.2 (.inl hyear)] at hwritten
    cases hwritten
  · intro hyears
    refine hlast.unique Timestamp.writtenBefore_trichotomy ⟨hlatest.mem, fun t ht => ?_⟩
    rw [Bool.eq_false_iff, ne_eq, Timestamp.writtenBefore_iff]
    rintro (hyear | ⟨-, hbefore⟩)
    · exact hyears t ht hyear
    · rw [hlatest.last t ht] at hbefore
      cases hbefore

/-- The first of some times in the list and the last of them in order, if there are any times. -/
inductive Spans (before : Timestamp → Timestamp → Bool) :
    List Timestamp → Option (Timestamp × Timestamp) → Prop
  | nothing : Spans before [] none
  | span {first last : Timestamp} {rest : List Timestamp}
      (h : IsLast before (first :: rest) last) : Spans before (first :: rest) (some (first, last))

/-- The span with one more time in it. -/
def extended (before : Timestamp → Timestamp → Bool) (span? : Option (Timestamp × Timestamp))
    (t : Timestamp) : Timestamp × Timestamp :=
  match span? with
  | none => (t, t)
  | some (first, last) => (first, if before last t then t else last)

variable {span? : Option (Timestamp × Timestamp)}

theorem Spans.append (horder : Orders before) (h : Spans before times span?) (t : Timestamp) :
    Spans before (times ++ [t]) (some (extended before span? t)) := by
  cases h with
  | nothing => exact .span (horder.isLast_singleton t)
  | span hlast => exact .span (hlast.append horder t)

theorem Spans.isLast {first last : Timestamp} (h : Spans before times (some (first, last))) :
    IsLast before times last := by
  cases h with
  | span hlast => exact hlast

theorem Spans.head?_eq {first last : Timestamp} (h : Spans before times (some (first, last))) :
    times.head? = some first := by
  cases h with
  | span hlast => rfl

theorem Spans.congr (h : Spans before times span?)
    (hsame : ∀ s ∈ times, ∀ u ∈ times, before s u = before' s u) : Spans before' times span? := by
  cases h with
  | nothing => exact .nothing
  | span hlast => exact .span (hlast.congr hsame)

end Tarpit.Time
