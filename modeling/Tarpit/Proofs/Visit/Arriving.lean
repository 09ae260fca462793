import Tarpit.Proofs.Import.Log
import Tarpit.Proofs.Net.Canonical
import Tarpit.Traffic.Arrival

/-!
# Visits of arriving requests

What is recorded of a request, whatever its headers hold: a key that is an
address, and a user agent that is never blank.  The tables take all of them.
-/

namespace Tarpit.Traffic

open Tarpit.Time (Timestamp)

/-- A request as it arrives. -/
structure Arrival where
  trusted : Bool
  headers : Net.Headers
  peer : Net.Endpoint
  path : String
  time : Timestamp

namespace Arrival

def key (a : Arrival) : String :=
  Net.clientKey a.trusted a.headers a.peer

def visit (a : Arrival) : Visit :=
  .arriving a.trusted a.headers a.peer a.path a.time

end Arrival

/-! ## User agents -/

/--
The user agent that headers name: what the first field of that name says between blanks, or the
word for none if there is no such field, it is no text, or it says nothing.
-/
inductive NamesAgent (headers : Net.Headers) : String → Prop where
  | said {field : Net.Header} {text : String} (hfirst : headers.first? "user-agent" = some field)
      (htext : field.text? = some text) (hsaid : Text.trimmed text ≠ "") :
      NamesAgent headers (Text.trimmed text)
  | unsaid (h : ∀ field text, headers.first? "user-agent" = some field →
      field.text? = some text → Text.trimmed text = "") : NamesAgent headers unknownAgent

theorem namedAgent?_eq_some_iff {headers : Net.Headers} {text : String} :
    namedAgent? headers = some text ↔
      ∃ field, headers.first? "user-agent" = some field ∧ field.text? = some text := by
  rw [namedAgent?, Net.Headers.text?, Option.bind_eq_some_iff]

theorem namesAgent_recordedAgent (headers : Net.Headers) :
    NamesAgent headers (recordedAgent (namedAgent? headers)) := by
  unfold recordedAgent
  cases hnamed : namedAgent? headers with
  | none =>
      refine .unsaid fun field text hfirst htext => ?_
      rw [namedAgent?_eq_some_iff.2 ⟨field, hfirst, htext⟩] at hnamed
      cases hnamed
  | some said =>
      obtain ⟨field, hfirst, htext⟩ := namedAgent?_eq_some_iff.1 hnamed
      simp only [Option.getD_some]
      split
      · next hempty =>
          refine .unsaid fun field' text' hfirst' htext' => ?_
          rw [namedAgent?_eq_some_iff.2 ⟨field', hfirst', htext'⟩] at hnamed
          cases hnamed
          exact String.isEmpty_iff.1 hempty
      · next hsaid => exact .said hfirst htext fun h => hsaid (String.isEmpty_iff.2 h)

theorem beginsPlain_of_forall {s : String} (hne : s.toList ≠ [])
    (h : ∀ c ∈ s.toList, c ≠ '\x00') : BeginsPlain s := by
  obtain ⟨c, rest, hs⟩ := List.exists_cons_of_ne_nil hne
  refine ⟨c, ?_, h c ?_⟩
  · rw [hs]
    rfl
  · rw [hs]
    exact List.mem_cons_self

/-- The text of a field has no NUL in it. -/
theorem ne_nul_of_text? {field : Net.Header} {text : String} (h : field.text? = some text) :
    ∀ c ∈ text.toList, c ≠ '\x00' := by
  unfold Net.Header.text? at h
  split at h
  · next hvisible =>
      cases h
      intro c hc
      rw [String.toList_ofList, Text.asciiChars, List.mem_map] at hc
      obtain ⟨b, hb, rfl⟩ := hc
      have hb := List.all_eq_true.1 hvisible b hb
      have hall : ∀ n < 256, n ≠ 0 → Char.ofNat n ≠ '\x00' := by decide +kernel
      refine hall b.toNat b.toNat_lt fun hzero => ?_
      have hnul : b = 0 := UInt8.toNat_inj.1 hzero
      rw [hnul] at hb
      cases hb
  · cases h

theorem NamesAgent.beginsPlain {headers : Net.Headers} {agent : String}
    (h : NamesAgent headers agent) : BeginsPlain agent := by
  cases h with
  | unsaid => decide
  | @said _ text _ htext hsaid =>
      refine beginsPlain_of_forall (fun hnil => hsaid (String.toList_eq_nil_iff.1 hnil)) ?_
      intro c hc
      rw [Text.toList_trimmed] at hc
      have hmem := (Text.trim_prefix text.toList).subset hc
      exact ne_nul_of_text? htext c ((List.dropWhile_sublist _).subset hmem)

/-! ## Rows -/

/-- What the log holds of a request. -/
structure Arrival.EnteredAs (a : Arrival) (row : Visit) : Prop where
  key : row.clientKey = a.key
  key_length : 2 ≤ row.clientKey.length ∧ row.clientKey.length ≤ maxKeyLength
  agent : ∃ agent, NamesAgent a.headers agent ∧ row.userAgent = clamp maxAgentLength agent
  path : row.path = clamp maxPathLength a.path
  time : row.timestamp = a.time

namespace Arrival

/-- The address that the client is known by. -/
def address (a : Arrival) : Net.Address :=
  Net.clientAddress a.trusted a.headers a.peer

theorem toList_key (a : Arrival) : a.key.toList = a.address.chars :=
  String.toList_ofList

theorem beginsPlain_key (a : Arrival) : BeginsPlain a.key := by
  have hspells := Net.spells_chars a.address
  have hlength := hspells.two_le_length
  refine beginsPlain_of_forall ?_ ?_
  · rw [a.toList_key]
    exact List.ne_nil_of_length_pos (by omega)
  · rw [a.toList_key]
    intro c hc
    have hlow := (hspells.isSpelling c hc).1
    rintro rfl
    exact absurd hlow (by decide)

theorem length_key (a : Arrival) : 2 ≤ a.key.length ∧ a.key.length ≤ maxKeyLength := by
  have hlow := (Net.spells_chars a.address).two_le_length
  have hhigh := a.address.length_chars_le
  rw [← String.length_toList, a.toList_key]
  exact ⟨hlow, Nat.le_trans hhigh (by decide)⟩

theorem userAgent_visit (a : Arrival) :
    a.visit.userAgent = recordedAgent (namedAgent? a.headers) := by
  rw [visit, Visit.arriving, Visit.of]

theorem namesAgent_visit (a : Arrival) : NamesAgent a.headers a.visit.userAgent :=
  a.userAgent_visit ▸ namesAgent_recordedAgent a.headers

theorem accepts_visit (a : Arrival) : Ledger.accepts a.visit = true := by
  have hagent := a.namesAgent_visit.beginsPlain
  exact Ledger.accepts_of_begins a.beginsPlain_key hagent

theorem enteredAs_clamped (a : Arrival) : a.EnteredAs (Ledger.clamped a.visit) := by
  have hkey : (Ledger.clamped a.visit).clientKey = a.key := Net.clamp_clientKey _ _ _
  refine ⟨hkey, ?_, ⟨_, a.namesAgent_visit, rfl⟩, rfl, rfl⟩
  rw [hkey]
  exact a.length_key

end Arrival

end Tarpit.Traffic
