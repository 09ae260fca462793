import Mathlib.Data.List.TakeWhile
import Tarpit.Proofs.Number.Order
import Tarpit.Time.Rfc3339

/-!
# Times that were read

Every instant that is read from a text is one of those there are, whatever stands
in the text.
-/

namespace Tarpit.Time

open Tarpit.Number (isDigit)

theorem fractionNanos_lt {ds : List Char} (h : ∀ c ∈ ds, isDigit c = true) :
    fractionNanos ds < Timestamp.nanosPerSecond := by
  have hkept : ∀ c ∈ ds.take 9, isDigit c = true := fun c hc => h c (List.mem_of_mem_take hc)
  exact Number.scaled_lt hkept (List.length_take_le 9 ds)

theorem fraction?_lt {s rest : List Char} {nanos : Nat} (h : fraction? s = some (nanos, rest)) :
    nanos < Timestamp.nanosPerSecond := by
  unfold fraction? at h
  split at h
  · next tail =>
      simp only at h
      split at h
      · cases h
      · cases h
        exact fractionNanos_lt fun c hc => List.mem_takeWhile_imp hc
  · cases h
    decide

/-- Offsets are of whole minutes. -/
theorem hoursAndMinutes?_emod {s rest : List Char} {n : Int}
    (h : hoursAndMinutes? s = some (n, rest)) : n % 60 = 0 := by
  simp only [hoursAndMinutes?, Option.bind_eq_bind, Option.bind_eq_some_iff] at h
  obtain ⟨⟨hours, tail⟩, -, ⟨minutes, rest'⟩, -, h⟩ := h
  split at h
  · cases h
    omega
  · cases h

theorem offset?_emod {s rest : List Char} {n : Int} (h : offset? s = some (n, rest)) :
    n % 60 = 0 := by
  unfold offset? at h
  split at h
  · cases h
  · split at h
    · cases h
      rfl
    split at h
    · cases h
      rfl
    split at h
    · exact hoursAndMinutes?_emod h
    split at h
    · obtain ⟨⟨m, tail⟩, hm, heq⟩ := Option.map_eq_some_iff.1 h
      cases heq
      have hminutes := hoursAndMinutes?_emod hm
      omega
    · cases h

theorem of?_bounds {s : List Char} {r : Reading} (h : Reading.of? s = some r) :
    r.nanos < Timestamp.nanosPerSecond ∧ r.offset % 60 = 0 := by
  simp only [Reading.of?, Option.bind_eq_bind, Option.bind_eq_some_iff] at h
  obtain ⟨year, -, s₁, -, month, -, s₂, -, day, -, s₃, -, hour, -, s₄, -, minute, -, s₅, -, second,
    -, nanos, hnanos, offset, hoffset, h⟩ := h
  split at h
  · cases h
    exact ⟨fraction?_lt hnanos, offset?_emod hoffset⟩
  · cases h

/-- Only instants that there are can be read. -/
theorem representable_of_read? {s : List Char} {t : Timestamp} (h : Timestamp.read? s = some t) :
    t.Representable := by
  simp only [Timestamp.read?, Option.bind_eq_bind, Option.bind_eq_some_iff] at h
  obtain ⟨r, hr, h⟩ := h
  obtain ⟨hnanos, hoffset⟩ := of?_bounds hr
  split at h
  · next hvalid =>
      cases h
      rw [Bool.and_eq_true] at hvalid
      refine ⟨hvalid.2, ?_⟩
      unfold Reading.instant
      by_cases hleap : r.second = 60
      · simp only [hleap, if_true]
        -- The leap second is on the last second of a minute, whatever the offset.
        refine .inr ⟨?_, ?_⟩
        · omega
        · omega
      · simp only [hleap, if_false, Nat.add_zero]
        exact .inl hnanos
  · cases h

end Tarpit.Time
