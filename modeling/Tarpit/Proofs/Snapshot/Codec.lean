import Mathlib.Data.List.Nodup
import Tarpit.Proofs.Json.Grammar
import Tarpit.Proofs.Number.Spelling
import Tarpit.Proofs.Visit.Codec
import Tarpit.Traffic.Snapshot

/-!
# The text of a snapshot

The text of a snapshot is read back as the snapshot.
-/

namespace Tarpit.Json

open Tarpit.Number (digits)

/-! ## Counts -/

theorem toNat_of_mem_digits {n : Nat} {c : Char} (h : c ∈ digits n) : c.toNat < 0x80 := by
  have hdigit := Number.toNat_of_isDigit (Number.isDigit_of_mem_digits h)
  omega

theorem count?_count {n : Nat} (h : n < Number.wordBound) : (Value.count n).count? = some n := by
  rw [Value.count, Value.count?, Text.Utf8.asciiChars_encode fun c hc => toNat_of_mem_digits hc,
    Number.naturalBelow?_digits h]

theorem isDigitByte_of_isDigit {c : Char} (h : Number.isDigit c = true) :
    Text.Utf8.encodeChar c = [c.toNat.toUInt8] ∧ isDigitByte c.toNat.toUInt8 = true := by
  have hc := Number.toNat_of_isDigit h
  have hbyte : c.toNat.toUInt8.toNat = c.toNat := Text.Utf8.toNat_toUInt8 (by omega)
  refine ⟨Text.Utf8.encodeChar_of_ascii (by omega), ?_⟩
  simp only [isDigitByte, Bool.and_eq_true, decide_eq_true_eq, UInt8.le_iff_toNat_le, hbyte]
  exact hc

theorem isWhole_digits (n : Nat) : IsWhole (Text.Utf8.encode (digits n)) := by
  rcases Nat.eq_zero_or_pos n with rfl | hpos
  · exact .zero
  · obtain ⟨k, rest, hk, hbound, hdigits⟩ := Number.digits_eq_cons hpos
    have hmem : ∀ c ∈ Nat.digitChar k :: rest, Number.isDigit c = true := by
      intro c hc
      rw [← hdigits] at hc
      exact Number.isDigit_of_mem_digits hc
    have hnonzero : ∀ k < 10, 0 < k → (Nat.digitChar k).toNat.toUInt8 ≠ 0x30 := by
      decide
    obtain ⟨hencode, hfirst⟩ := isDigitByte_of_isDigit (hmem _ List.mem_cons_self)
    rw [hdigits, Text.Utf8.encode_cons, hencode, List.singleton_append]
    refine .digits hfirst (hnonzero k hbound hk) ?_
    intro b hb
    obtain ⟨c, hc, hbc⟩ := List.mem_flatMap.1 hb
    obtain ⟨hencode, hbyte⟩ := isDigitByte_of_isDigit (hmem c (List.mem_cons_of_mem _ hc))
    rw [hencode, List.mem_singleton] at hbc
    rw [hbc]
    exact hbyte

theorem isNumeral_digits (n : Nat) : IsNumeral (Text.Utf8.encode (digits n)) := by
  have hnumeral := IsNumeral.positive (isWhole_digits n) .absent .absent
  rwa [List.append_nil, List.append_nil] at hnumeral

theorem isLexeme_digits (n : Nat) : IsLexeme (Text.Utf8.encode (digits n)) :=
  (isNumeral_digits n).isLexeme

end Tarpit.Json

namespace Tarpit.Traffic

open Tarpit.Json

/-! ## Tables of counts -/

theorem Counts.set_of_new {counts : Counts} {label : String}
    (h : label ∉ counts.map Prod.fst) (n : Nat) :
    counts.set label n = counts ++ [(label, n)] := by
  apply if_neg
  simpa [List.any_eq_true] using h

namespace Snapshot

theorem countsFrom?_map {counts : Counts} (done : Counts)
    (hlabels : ((done ++ counts).map Prod.fst).Nodup)
    (hbound : ∀ c ∈ counts, c.2 < Number.wordBound) :
    countsFrom? done (counts.map fun c => (c.1, Value.count c.2)) = some (done ++ counts) := by
  induction counts generalizing done with
  | nil => rw [List.append_nil, List.map_nil, countsFrom?]
  | cons c rest ih =>
      have hnew : c.1 ∉ done.map Prod.fst := by
        intro hmem
        rw [List.map_append, List.map_cons] at hlabels
        exact List.disjoint_of_nodup_append hlabels hmem List.mem_cons_self
      have happend : done ++ [c] ++ rest = done ++ c :: rest := by
        rw [List.append_assoc, List.singleton_append]
      rw [List.map_cons, countsFrom?]
      simp only [count?_count (hbound c List.mem_cons_self)]
      rw [Counts.set_of_new hnew, ← happend]
      exact ih (done ++ [c]) (happend ▸ hlabels)
        fun d hd => hbound d (List.mem_cons_of_mem c hd)

theorem counts?_countsValue {counts : Counts} (hlabels : (counts.map Prod.fst).Nodup)
    (hbound : ∀ c ∈ counts, c.2 < Number.wordBound) :
    orNull? [] counts? (countsValue counts) = some counts := by
  have hobject : orNull? [] counts? (countsValue counts) =
      (namedMembers? ((counts.map fun c => (c.1, Value.count c.2)).map
        fun m => (textPieces m.1, m.2))).bind (countsFrom? []) := rfl
  rw [hobject, namedMembers?_map, Option.bind_some]
  exact countsFrom?_map [] hlabels hbound

theorem isRead_countsValue (counts : Counts) : (countsValue counts).IsRead := by
  rw [countsValue, Value.ofMembers, Value.IsRead]
  induction counts with
  | nil => trivial
  | cons c rest ih => exact ⟨isRead_textPieces c.1, isLexeme_digits c.2, ih⟩

/-! ## Visits -/

theorem visits?_array {visits : List Visit} (h : ∀ v ∈ visits, v.timestamp.Representable) :
    orNull? [] visits? (.array (visits.map Visit.toJson)) = some visits := by
  show (visits.map Visit.toJson).mapM Visit.ofJson? = some visits
  apply mapM_map_eq_some
  intro v hv
  have hobject : v.toJson = .object (v.members.map fun m => (textPieces m.1, m.2)) := rfl
  rw [hobject, Visit.ofJson?, namedMembers?_map, Option.bind_some,
    Visit.ofMembers?_members (h v hv)]

theorem isRead_visits (visits : List Visit) : (Value.array (visits.map Visit.toJson)).IsRead := by
  show ItemsRead (visits.map Visit.toJson)
  induction visits with
  | nil => trivial
  | cons v rest ih => exact ⟨v.isRead_toJson, ih⟩

/-! ## The whole text -/

/-- The text can hold the snapshot: times that there are, counts in a word, every label once. -/
structure Writable (p : Snapshot) : Prop where
  startTime : p.startTime.Representable
  total : p.totalRequests < Number.wordBound
  keyLabels : (p.keyCounts.map Prod.fst).Nodup
  keyCounts : ∀ c ∈ p.keyCounts, c.2 < Number.wordBound
  agentLabels : (p.agentCounts.map Prod.fst).Nodup
  agentCounts : ∀ c ∈ p.agentCounts, c.2 < Number.wordBound
  recent : ∀ v ∈ p.recent, v.timestamp.Representable

def members (p : Snapshot) : List (String × Value) :=
  [("startTime", Visit.timeValue p.startTime), ("totalRequests", Value.count p.totalRequests),
    ("ipCounts", countsValue p.keyCounts), ("userAgents", countsValue p.agentCounts),
    ("recentRequests", .array (p.recent.map Visit.toJson))]

theorem isRead_toJson (p : Snapshot) : p.toJson.IsRead :=
  ⟨isRead_textPieces _, isRead_textPieces _, isRead_textPieces _, isLexeme_digits _,
    isRead_textPieces _, isRead_countsValue _, isRead_textPieces _, isRead_countsValue _,
    isRead_textPieces _, isRead_visits _, trivial⟩

theorem ofMembers?_members {p : Snapshot} (h : p.Writable) : ofMembers? p.members = some p := by
  have hstart : valuesOf p.members "startTime" = [Visit.timeValue p.startTime] := rfl
  have htotal : valuesOf p.members "totalRequests" = [Value.count p.totalRequests] := rfl
  have hkeys : valuesOf p.members "ipCounts" = [countsValue p.keyCounts] := rfl
  have hagents : valuesOf p.members "userAgents" = [countsValue p.agentCounts] := rfl
  have hrecent : valuesOf p.members "recentRequests" =
      [.array (p.recent.map Visit.toJson)] := rfl
  simp only [ofMembers?, required?, optional?, hstart, htotal, hkeys, hagents, hrecent,
    Visit.time?_timeValue h.startTime, count?_count h.total,
    counts?_countsValue h.keyLabels h.keyCounts, counts?_countsValue h.agentLabels h.agentCounts,
    visits?_array h.recent, Option.bind_eq_bind, Option.bind_some]

theorem decode?_encode {p : Snapshot} (h : p.Writable) : decode? p.encode = some p := by
  have hparse : Value.parse? p.encode = some p.toJson := parse?_form (some 0) p.isRead_toJson
  have hobject : p.toJson = .object (p.members.map fun m => (textPieces m.1, m.2)) := rfl
  rw [decode?, hparse, Option.bind_some, hobject, ofJson?, namedMembers?_map, Option.bind_some,
    ofMembers?_members h]

end Snapshot

end Tarpit.Traffic
