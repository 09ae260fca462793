import Tarpit.Proofs.Ledger.Record
import Tarpit.Proofs.Time.Last

/-!
# Times in the tables

When each client key was first and last seen and since when the statistics run,
by the visits that were recorded and the start times that were offered.
-/

namespace Tarpit.Traffic

open Tarpit.Time (Timestamp Orders IsLast Spans extended)

theorem orders_storedBefore : Orders storedBefore := by
  constructor
  · intro t
    rw [storedBefore, decide_eq_false_iff_not]
    exact List.lt_irrefl _
  · intro s t u hst htu
    rw [storedBefore, decide_eq_true_eq] at *
    exact List.lt_trans hst htu

/-- The tests of the tables are those of the order in which times are written. -/
theorem storedBefore_eq_writtenBefore {t u : Timestamp} (ht : t.Representable)
    (hu : u.Representable) : storedBefore t u = t.writtenBefore u := by
  rw [Bool.eq_iff_iff, storedBefore, decide_eq_true_eq]
  exact Timestamp.stored_lt_iff_writtenBefore ht hu

/-! ## One row -/

theorem find?_countLabel_self (rows : List CountRow) (label : String) (time : Timestamp) :
    (countLabel rows label time).find? (fun r => r.label == label) =
      some (match rows.find? fun r => r.label == label with
        | none => ⟨label, 1, time, time⟩
        | some r => { r with count := r.count + 1, lastSeen := storedLatest r.lastSeen time }) := by
  by_cases hknown : label ∈ rows.map CountRow.label
  · rw [countLabel_of_mem hknown]
    induction rows with
    | nil => cases hknown
    | cons r rest ih =>
        by_cases hr : r.label = label
        · simp [hr]
        · have hrest : label ∈ rest.map CountRow.label := by
            rw [List.map_cons, List.mem_cons] at hknown
            exact hknown.resolve_left fun h => hr h.symm
          simpa [hr] using ih hrest
  · have hnone : rows.find? (fun r => r.label == label) = none := by
      rw [List.find?_eq_none]
      intro r hr heq
      exact hknown (List.mem_map.2 ⟨r, hr, by simpa using heq⟩)
    rw [countLabel_of_not_mem hknown, List.find?_append, hnone]
    simp

theorem find?_countLabel_of_ne {label key : String} (h : label ≠ key) (rows : List CountRow)
    (time : Timestamp) :
    (countLabel rows label time).find? (fun r => r.label == key) =
      rows.find? fun r => r.label == key := by
  by_cases hknown : label ∈ rows.map CountRow.label
  · rw [countLabel_of_mem hknown]
    clear hknown
    induction rows with
    | nil => rfl
    | cons r rest ih =>
        by_cases hr : r.label = label
        · simpa [hr, h] using ih
        · by_cases hkey : r.label = key
          · simp [hkey, Ne.symm h]
          · simpa [hr, hkey] using ih
  · rw [countLabel_of_not_mem hknown, List.find?_append]
    simp [h]

/-! ## The tables -/

/-- The times at which a client key was recorded, as its column holds it. -/
def timesOf (key : String) (visits : List Visit) : List Timestamp :=
  (visits.filter fun v => clamp maxKeyLength v.clientKey == key).map Visit.timestamp

theorem timesOf_concat (key : String) (visits : List Visit) (v : Visit) :
    timesOf key (visits ++ [v]) =
      if clamp maxKeyLength v.clientKey = key then timesOf key visits ++ [v.timestamp]
      else timesOf key visits := by
  unfold timesOf
  by_cases h : clamp maxKeyLength v.clientKey = key
  · simp [h]
  · simp [h]

namespace Ledger

/-- A visit extends the span of its key and leaves those of the others alone. -/
theorem keySeen?_recorded (v : Visit) (l : Ledger) (key : String) :
    (recorded v l).keySeen? key =
      if clamp maxKeyLength v.clientKey = key then
        some (extended storedBefore (l.keySeen? key) v.timestamp)
      else l.keySeen? key := by
  unfold keySeen?
  show ((countLabel l.keys (clamp maxKeyLength v.clientKey) v.timestamp).find? _).map _ = _
  by_cases h : clamp maxKeyLength v.clientKey = key
  · rw [if_pos h, h, find?_countLabel_self]
    cases l.keys.find? fun r => r.label == key with
    | none => rfl
    | some r => rfl
  · rw [if_neg h, find?_countLabel_of_ne h]

/--
The tables show the first recorded and the last time of each key, and of a start time and those
that were offered the first one, in an order of times.
-/
structure Dates (before : Timestamp → Timestamp → Bool) (start : Timestamp) (visits : List Visit)
    (offered : List Timestamp) (l : Ledger) : Prop where
  seen : ∀ key, Spans before (timesOf key visits) (l.keySeen? key)
  startTime : IsLast (flip before) (start :: offered) l.startTime

variable {start : Timestamp} {visits : List Visit} {offered : List Timestamp} {l : Ledger}

theorem dates_empty (start : Timestamp) : Dates storedBefore start [] [] (empty start) :=
  ⟨fun _ => .nothing, orders_storedBefore.flip.isLast_singleton start⟩

theorem Dates.recorded (h : Dates storedBefore start visits offered l) (v : Visit) :
    Dates storedBefore start (visits ++ [v]) offered (recorded v l) := by
  refine ⟨fun key => ?_, h.startTime⟩
  rw [keySeen?_recorded, timesOf_concat]
  by_cases hkey : clamp maxKeyLength v.clientKey = key
  · rw [if_pos hkey, if_pos hkey]
    exact (h.seen key).append orders_storedBefore v.timestamp
  · rw [if_neg hkey, if_neg hkey]
    exact h.seen key

theorem Dates.adoptStart (h : Dates storedBefore start visits offered l) (time : Timestamp) :
    Dates storedBefore start visits (offered ++ [time]) (l.adoptStart time).2 := by
  have hfirst := h.startTime.append orders_storedBefore.flip time
  unfold Ledger.adoptStart
  unfold flip at hfirst
  split
  · next hearlier =>
      rw [if_pos hearlier] at hfirst
      exact ⟨h.seen, hfirst⟩
  · next hlater =>
      rw [if_neg hlater] at hfirst
      exact ⟨h.seen, hfirst⟩

theorem mem_of_mem_timesOf {key : String} {t : Timestamp} (h : t ∈ timesOf key visits) :
    ∃ v ∈ visits, v.timestamp = t := by
  obtain ⟨v, hv, hvt⟩ := List.mem_map.1 h
  exact ⟨v, (List.mem_filter.1 hv).1, hvt⟩

/-- Orders that agree on all the times that came are shown alike. -/
theorem Dates.congr {before before' : Timestamp → Timestamp → Bool} {among : Timestamp → Prop}
    (h : Dates before start visits offered l)
    (hsame : ∀ {t u}, among t → among u → before t u = before' t u)
    (hvisits : ∀ v ∈ visits, among v.timestamp) (hstarts : ∀ t ∈ start :: offered, among t) :
    Dates before' start visits offered l := by
  refine ⟨fun key => (h.seen key).congr ?_, h.startTime.congr ?_⟩
  · intro t ht u hu
    obtain ⟨v, hv, rfl⟩ := mem_of_mem_timesOf ht
    obtain ⟨w, hw, rfl⟩ := mem_of_mem_timesOf hu
    exact hsame (hvisits v hv) (hvisits w hw)
  · exact fun t ht u hu => hsame (hstarts u hu) (hstarts t ht)

end Ledger

end Tarpit.Traffic
