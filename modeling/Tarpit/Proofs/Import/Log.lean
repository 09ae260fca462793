import Mathlib.Data.List.TakeWhile
import Tarpit.Proofs.Import.Reading
import Tarpit.Proofs.Text.Blank
import Tarpit.Proofs.Visit.Codec

/-!
# Importing a log of visits

A log that is made of visits is read to its end, and every visit on it is
recorded once, in order and as it was.
-/

namespace Tarpit.Traffic

open Tarpit.Text.Utf8 (IsText)
open Tarpit.Time (Timestamp)

/-- A user agent that was recorded once is recorded again as it is. -/
theorem recordedAgent_recordedAgent (agent : Option String) :
    recordedAgent (some (recordedAgent agent)) = recordedAgent agent := by
  have hkept : ∀ s : String, Text.trimmed s = s → s ≠ "" → recordedAgent (some s) = s := by
    intro s htrimmed hne
    have hempty : s.isEmpty = false := by
      rw [Bool.eq_false_iff]
      intro h
      exact hne (String.isEmpty_iff.1 h)
    simp only [recordedAgent, Option.getD_some, htrimmed, hempty, Bool.false_eq_true, if_false]
  apply hkept _ _ (recordedAgent_ne_empty agent)
  unfold recordedAgent
  simp only
  split
  · decide
  · exact Text.trimmed_trimmed _

theorem Visit.again_of (clientKey : String) (agent : Option String) (path : String)
    (time : Timestamp) :
    (Visit.of clientKey agent path time).again = .of clientKey agent path time := by
  simp only [Visit.again, Visit.of, recordedAgent_recordedAgent]

/-- The text is not empty and does not begin with NUL. -/
def BeginsPlain (s : String) : Prop :=
  ∃ c, s.toList.head? = some c ∧ c ≠ '\x00'

instance (s : String) : Decidable (BeginsPlain s) := by
  unfold BeginsPlain
  cases h : s.toList.head? with
  | none => exact isFalse (by simp)
  | some c => exact decidable_of_iff (c ≠ '\x00') (by simp)

/-- The visit of a request, at a time that there is, with a key and an agent that can be stored. -/
structure Visit.Recordable (v : Visit) : Prop where
  agent : ∃ agent, v.userAgent = recordedAgent agent
  time : v.timestamp.Representable
  key_begins : BeginsPlain v.clientKey
  agent_begins : BeginsPlain v.userAgent

theorem storedLength_clamp_pos {width : Nat} (hwidth : 0 < width) {s : String}
    (h : BeginsPlain s) : 0 < storedLength (clamp width s) := by
  obtain ⟨c, hc, hne⟩ := h
  obtain ⟨rest, hrest⟩ := List.head?_eq_some_iff.1 hc
  obtain ⟨n, rfl⟩ := Nat.exists_eq_succ_of_ne_zero (Nat.ne_of_gt hwidth)
  have hplain : (c != '\x00') = true := by simpa using hne
  rw [storedLength, clamp, String.toList_ofList, hrest, List.take_succ_cons, List.takeWhile_cons,
    hplain]
  exact Nat.succ_pos _

/-- The tables take every visit whose labels do not begin with NUL. -/
theorem Ledger.accepts_of_begins {v : Visit} (hkey : BeginsPlain v.clientKey)
    (hagent : BeginsPlain v.userAgent) : accepts v = true := by
  have hkeypos := storedLength_clamp_pos (show 0 < maxKeyLength by decide) hkey
  have hagentpos := storedLength_clamp_pos (show 0 < maxAgentLength by decide) hagent
  simp only [accepts, clamped, labelFits_clamp, Bool.and_eq_true, decide_eq_true_eq]
  exact ⟨hkeypos, hagentpos⟩

theorem Visit.Recordable.accepts {v : Visit} (h : v.Recordable) : Ledger.accepts v = true :=
  Ledger.accepts_of_begins h.key_begins h.agent_begins

theorem Visit.Recordable.again {v : Visit} (h : v.Recordable) : v.again = v := by
  obtain ⟨agent, hagent⟩ := h.agent
  obtain ⟨clientKey, userAgent, path, time⟩ := v
  simp only at hagent
  rw [hagent]
  exact Visit.again_of clientKey agent path time

namespace Importing

/-- A line with a visit on it is not blank, whatever text stands before the visit. -/
theorem isBlank_append_encode {s : Bytes} (h : IsText s) (v : Visit) :
    isBlank (s ++ v.encode) = false := by
  obtain ⟨cs, rfl⟩ := h
  obtain ⟨ds, hencode⟩ := v.encode_eq_encode
  have hbrace : '\x7b' ∈ cs ++ '\x7b' :: ds := List.mem_append_right cs List.mem_cons_self
  rw [isBlank, hencode, ← Text.Utf8.encode_append, Text.Utf8.decode_encode, Option.any_some]
  exact List.isEmpty_eq_false_iff.2 (Text.trim_ne_nil (by decide) hbrace)

/-- The tables take the visit that is read from a line. -/
theorem recordable?_of_decode? {bytes : Bytes} {v : Visit} (hblank : isBlank bytes = false)
    (hdecode : Visit.decode? bytes = some v) (h : v.Recordable) : recordable? bytes = some v := by
  have hvisit : visitOn? bytes = some v := by
    rw [visitOn?, hblank, if_neg Bool.false_ne_true, hdecode, Option.map_some, h.again]
  rw [recordable?, hvisit, Option.filter_some, h.accepts]
  rfl

theorem recordable?_encode {v : Visit} (h : v.Recordable) : recordable? v.encode = some v :=
  recordable?_of_decode? (isBlank_append_encode ⟨[], rfl⟩ v) (Visit.decode?_encode h.time) h

theorem passed_of_isText {ls : List Bytes} (h : ∀ bytes ∈ ls, IsText bytes) :
    passed .waiting ls = ls ∧ ending? .waiting ls = none := by
  have htext : ∀ bytes ∈ ls, isTextLine bytes = true := by
    intro bytes hbytes
    obtain ⟨cs, rfl⟩ := h bytes hbytes
    rw [isTextLine, Text.Utf8.decode_encode]
    rfl
  rw [passed_waiting, ending?_waiting, List.all_eq_true.2 htext]
  exact ⟨List.takeWhile_eq_self_iff.2 htext, rfl⟩

theorem passed_log (visits : List Visit) :
    passed .waiting (visits.map Visit.encode) = visits.map Visit.encode ∧
      ending? .waiting (visits.map Visit.encode) = none := by
  apply passed_of_isText
  intro bytes hbytes
  obtain ⟨v, -, rfl⟩ := List.mem_map.1 hbytes
  exact v.isText_encode

theorem filterMap_recordable?_log {visits : List Visit} (h : ∀ v ∈ visits, v.Recordable) :
    (visits.map Visit.encode).filterMap recordable? = visits := by
  induction visits with
  | nil => rfl
  | cons v rest ih =>
      rw [List.map_cons, List.filterMap_cons, recordable?_encode (h v List.mem_cons_self),
        ih fun u hu => h u (List.mem_cons_of_mem v hu)]

end Importing

end Tarpit.Traffic
