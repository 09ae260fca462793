import Tarpit.Proofs.Snapshot.Codec
import Tarpit.Proofs.Time.Read

/-!
# Snapshots that were read

Whatever text a snapshot is read from, the snapshot could have been written: its
times are there, its counts fit in a word, and every label stands once.
-/

namespace Tarpit.Traffic

open Tarpit.Json
open Tarpit.Time (Timestamp)

/-! ## Fields -/

/-- Everything that a reader takes from a value is as it should be. -/
def Yields {α : Type} (read : Value → Option α) (good : α → Prop) : Prop :=
  ∀ v a, read v = some a → good a

namespace Yields

variable {α : Type} {read : Value → Option α} {good : α → Prop} {default a : α}

theorem required? (h : Yields read good) {members : List (String × Value)} {name : String}
    (hread : Json.required? members name read = some a) : good a := by
  unfold Json.required? at hread
  split at hread
  · exact h _ _ hread
  · cases hread

theorem optional? (h : Yields read good) (hdefault : good default)
    {members : List (String × Value)} {name : String}
    (hread : Json.optional? members name default read = some a) : good a := by
  unfold Json.optional? at hread
  split at hread
  · cases hread
    exact hdefault
  · exact h _ _ hread
  · cases hread

theorem item? (h : Yields read good) (hdefault : good default) {items : List Value}
    (hread : Snapshot.item? items default read = some a) : good a := by
  unfold Snapshot.item? at hread
  split at hread
  · cases hread
    exact hdefault
  · exact h _ _ hread

theorem orNull? (h : Yields read good) (hdefault : good default) :
    Yields (Json.orNull? default read) good := by
  intro v a hread
  unfold Json.orNull? at hread
  split at hread
  · cases hread
    exact hdefault
  · exact h _ _ hread

end Yields

theorem yields_time : Yields Visit.time? Timestamp.Representable := by
  intro v t h
  obtain ⟨s, -, hs⟩ := Option.bind_eq_some_iff.1 h
  exact Time.representable_of_read? hs

theorem yields_count : Yields Value.count? (· < Number.wordBound) := by
  intro v n h
  unfold Value.count? at h
  split at h
  · have hword := (Option.filter_eq_some_iff.1 h).2
    simpa using hword
  · cases h

/-! ## Counts -/

/-- Every label stands once, and its count fits in a word. -/
structure Counts.Legible (counts : Counts) : Prop where
  labels : (counts.map Prod.fst).Nodup
  words : ∀ c ∈ counts, c.2 < Number.wordBound

theorem Counts.legible_nil : Counts.Legible [] :=
  ⟨List.nodup_nil, fun _ h => absurd h List.not_mem_nil⟩

theorem Counts.Legible.set {counts : Counts} (h : counts.Legible) (label : String) {n : Nat}
    (hn : n < Number.wordBound) : (counts.set label n).Legible := by
  constructor
  · rw [labels_set]
    split
    · exact h.labels
    · next hnew =>
        exact List.nodup_append_comm.1 (List.nodup_cons.2 ⟨hnew, h.labels⟩)
  · intro c hc
    unfold Counts.set at hc
    split at hc
    · obtain ⟨d, hd, rfl⟩ := List.mem_map.1 hc
      split
      · exact hn
      · exact h.words d hd
    · rcases List.mem_append.1 hc with hc | hc
      · exact h.words c hc
      · rw [List.mem_singleton.1 hc]
        exact hn

theorem legible_of_countsFrom? {members : List (String × Value)} {counts done : Counts}
    (h : counts.Legible) (hread : Snapshot.countsFrom? counts members = some done) :
    done.Legible := by
  induction members generalizing counts with
  | nil =>
      cases hread
      exact h
  | cons m rest ih =>
      rw [Snapshot.countsFrom?] at hread
      cases hcount : m.2.count? with
      | none =>
          rw [hcount] at hread
          cases hread
      | some n =>
          rw [hcount] at hread
          exact ih (h.set m.1 (yields_count _ _ hcount)) hread

theorem yields_counts : Yields Snapshot.counts? Counts.Legible := by
  intro v counts h
  unfold Snapshot.counts? at h
  split at h
  · obtain ⟨members, -, hread⟩ := Option.bind_eq_some_iff.1 h
    exact legible_of_countsFrom? Counts.legible_nil hread
  · cases h

/-! ## Visits -/

theorem yields_visit : Yields Visit.ofJson? fun v => v.timestamp.Representable := by
  intro value v h
  unfold Visit.ofJson? at h
  split at h
  · obtain ⟨members, -, hread⟩ := Option.bind_eq_some_iff.1 h
    simp only [Visit.ofMembers?, Option.bind_eq_bind, Option.bind_eq_some_iff] at hread
    obtain ⟨key, -, agent, -, path, -, time, htime, hv⟩ := hread
    cases hv
    exact yields_time.required? htime
  · simp only [Option.bind_eq_bind, Option.bind_eq_some_iff] at h
    obtain ⟨key, -, agent, -, path, -, time, htime, hv⟩ := h
    cases hv
    exact yields_time _ _ htime
  · cases h

theorem representable_of_mapM {items : List Value} {visits : List Visit}
    (h : items.mapM Visit.ofJson? = some visits) : ∀ v ∈ visits, v.timestamp.Representable := by
  intro v hv
  have hmem : some v ∈ items.map Visit.ofJson? := by
    rw [mapM_eq_some_iff.1 h]
    exact List.mem_map_of_mem hv
  obtain ⟨item, -, hread⟩ := List.mem_map.1 hmem
  exact yields_visit item v hread

theorem yields_visits : Yields Snapshot.visits? fun visits =>
    ∀ v ∈ visits, v.timestamp.Representable := by
  intro value visits h
  unfold Snapshot.visits? at h
  split at h
  · exact representable_of_mapM h
  · cases h

/-! ## The whole text -/

namespace Snapshot

theorem yields_orNull_counts : Yields (orNull? [] counts?) Counts.Legible :=
  yields_counts.orNull? Counts.legible_nil

theorem yields_orNull_visits : Yields (orNull? [] visits?) fun visits =>
    ∀ v ∈ visits, v.timestamp.Representable :=
  yields_visits.orNull? fun _ h => absurd h List.not_mem_nil

theorem writable_of_ofMembers? {members : List (String × Value)} {p : Snapshot}
    (h : ofMembers? members = some p) : p.Writable := by
  simp only [ofMembers?, Option.bind_eq_bind, Option.bind_eq_some_iff] at h
  obtain ⟨start, hstart, total, htotal, keys, hkeys, agents, hagents, recent, hrecent, hp⟩ := h
  cases hp
  have hkeys := yields_orNull_counts.optional? Counts.legible_nil hkeys
  have hagents := yields_orNull_counts.optional? Counts.legible_nil hagents
  exact ⟨yields_time.required? hstart, yields_count.optional? (by decide) htotal, hkeys.labels,
    hkeys.words, hagents.labels, hagents.words,
    yields_orNull_visits.optional? (fun _ hv => absurd hv List.not_mem_nil) hrecent⟩

theorem writable_of_ofItems? {items : List Value} {p : Snapshot} (h : ofItems? items = some p) :
    p.Writable := by
  simp only [ofItems?, Option.bind_eq_bind, Option.bind_eq_some_iff] at h
  obtain ⟨start, ⟨first, -, hstart⟩, total, htotal, keys, hkeys, agents, hagents, recent, hrecent,
    hp⟩ := h
  have hkeys := yields_orNull_counts.item? Counts.legible_nil hkeys
  have hagents := yields_orNull_counts.item? Counts.legible_nil hagents
  split at hp
  · cases hp
    exact ⟨yields_time _ _ hstart, yields_count.item? (by decide) htotal, hkeys.labels,
      hkeys.words, hagents.labels, hagents.words,
      yields_orNull_visits.item? (fun _ hv => absurd hv List.not_mem_nil) hrecent⟩
  · cases hp

/-- What is read from a text could have been written, whatever the text is. -/
theorem writable_of_decode? {data : Bytes} {p : Snapshot} (h : decode? data = some p) :
    p.Writable := by
  obtain ⟨value, -, hvalue⟩ := Option.bind_eq_some_iff.1 h
  unfold ofJson? at hvalue
  split at hvalue
  · obtain ⟨members, -, hmembers⟩ := Option.bind_eq_some_iff.1 hvalue
    exact writable_of_ofMembers? hmembers
  · exact writable_of_ofItems? hvalue
  · cases hvalue

end Snapshot

end Tarpit.Traffic
