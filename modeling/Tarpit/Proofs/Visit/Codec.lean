import Tarpit.Proofs.Json.RoundTrip
import Tarpit.Proofs.Text.Lines
import Tarpit.Proofs.Time.Rfc3339
import Tarpit.Traffic.Visit

/-!
# Lines of the request log

The text of a visit is a line of its own, and is read back as the visit.
-/

namespace Tarpit.Traffic

open Tarpit.Json
open Tarpit.Text.Utf8 (IsText)

/-! ## Reading back -/

namespace Visit

theorem isRead_toJson (v : Visit) : v.toJson.IsRead := by
  simp only [toJson, Value.ofMembers, members, timeValue, Value.text, List.map_cons, List.map_nil,
    Value.IsRead, MembersRead, and_true]
  exact ⟨isRead_textPieces _, isRead_textPieces _, isRead_textPieces _, isRead_textPieces _,
    isRead_textPieces _, isRead_textPieces _, isRead_textPieces _, isRead_textPieces _⟩

theorem time?_timeValue {t : Tarpit.Time.Timestamp} (h : t.Representable) :
    time? (timeValue t) = some t := by
  rw [time?, timeValue, text?_text, Option.bind_some, String.toList_ofList,
    Tarpit.Time.read?_text h]

theorem ofMembers?_members {v : Visit} (h : v.timestamp.Representable) :
    ofMembers? v.members = some v := by
  have hkey : valuesOf v.members "IP" = [.text v.clientKey] := rfl
  have hagent : valuesOf v.members "UserAgent" = [.text v.userAgent] := rfl
  have hpath : valuesOf v.members "Path" = [.text v.path] := rfl
  have htime : valuesOf v.members "Timestamp" = [timeValue v.timestamp] := rfl
  simp only [ofMembers?, required?, hkey, hagent, hpath, htime, text?_text, time?_timeValue h,
    Option.bind_eq_bind, Option.bind_some]

theorem decode?_encode {v : Visit} (h : v.timestamp.Representable) :
    decode? v.encode = some v := by
  have hparse : Value.parse? v.encode = some v.toJson := parse?_form none v.isRead_toJson
  have hmembers : namedMembers? (v.members.map fun m => (textPieces m.1, m.2)) = some v.members :=
    namedMembers?_map v.members
  rw [decode?, hparse, Option.bind_some]
  show (namedMembers? (v.members.map fun m => (textPieces m.1, m.2))).bind ofMembers? = _
  rw [hmembers, Option.bind_some, ofMembers?_members h]

end Visit

/-! ## One line -/

/-- The bytes spell a text without control characters of ASCII. -/
structure IsLine (s : Bytes) : Prop where
  text : IsText s
  printable : ∀ b ∈ s, 0x20 ≤ b

theorem IsLine.append {s t : Bytes} (hs : IsLine s) (ht : IsLine t) : IsLine (s ++ t) := by
  refine ⟨hs.text.append ht.text, ?_⟩
  intro b hb
  rcases List.mem_append.1 hb with hb | hb
  · exact hs.printable b hb
  · exact ht.printable b hb

theorem isLine_of_ascii {s : Bytes} (h : ∀ b ∈ s, 0x20 ≤ b ∧ b < 0x80) : IsLine s :=
  ⟨Text.Utf8.isText_of_ascii fun b hb => (h b hb).2, fun b hb => (h b hb).1⟩

theorem isLine_nil : IsLine [] :=
  isLine_of_ascii (by simp)

theorem pieceForm_of_past_ascii {b : UInt8} (h : 0x80 ≤ b) : pieceForm (.byte b) = [b] := by
  have hall : ∀ n < 256, 128 ≤ n → pieceForm (.byte n.toUInt8) = [n.toUInt8] := by
    decide +kernel
  have hbyte := hall b.toNat b.toNat_lt (UInt8.le_iff_toNat_le.1 h)
  rwa [show b.toNat.toUInt8 = b from UInt8.ofNat_toNat] at hbyte

theorem flatMap_pieceForm_of_past_ascii {s : Bytes} (h : ∀ b ∈ s, 0x80 ≤ b) :
    (s.map Piece.byte).flatMap pieceForm = s := by
  induction s with
  | nil => rfl
  | cons b rest ih =>
      rw [List.map_cons, List.flatMap_cons, pieceForm_of_past_ascii (h b List.mem_cons_self),
        ih fun d hd => h d (List.mem_cons_of_mem b hd), List.singleton_append]

/-- Escapes are made of printable ASCII, and all else past ASCII stands as it is. -/
theorem isLine_pieceForms_char (c : Char) :
    IsLine (((Text.Utf8.encodeChar c).map Piece.byte).flatMap pieceForm) := by
  by_cases hascii : c.toNat < 0x80
  · have hall : ∀ n < 128, (pieceForm (.byte n.toUInt8)).all (fun b => 0x20 ≤ b ∧ b < 0x80) := by
      decide +kernel
    rw [Text.Utf8.encodeChar_of_ascii hascii, List.map_singleton, List.flatMap_singleton]
    apply isLine_of_ascii
    simpa using hall c.toNat hascii
  · have hpast : ∀ b ∈ Text.Utf8.encodeChar c, 0x80 ≤ b :=
      fun b hb => Text.Utf8.ascii_le_of_mem_encodeChar (Nat.not_lt.1 hascii) hb
    rw [flatMap_pieceForm_of_past_ascii hpast]
    refine ⟨Text.Utf8.isText_encodeChar c, ?_⟩
    intro b hb
    exact UInt8.le_trans (by decide) (hpast b hb)

theorem isLine_stringForm (s : String) : IsLine (stringForm (textPieces s)) := by
  have hquote : IsLine [0x22] := isLine_of_ascii (by simp)
  have hpieces : ∀ cs, IsLine (((Text.Utf8.encode cs).map Piece.byte).flatMap pieceForm) := by
    intro cs
    induction cs with
    | nil => exact isLine_nil
    | cons c rest ih =>
        rw [Text.Utf8.encode_cons, List.map_append, List.flatMap_append]
        exact (isLine_pieceForms_char c).append ih
  exact (hquote.append (hpieces s.toList)).append hquote

namespace Visit

/-- The text of a visit is an opening brace and more of a line. -/
theorem encode_eq_cons (v : Visit) : ∃ tail, v.encode = 0x7B :: tail ∧ IsLine tail := by
  have hmark : ∀ b : UInt8, 0x20 ≤ b ∧ b < 0x80 → ∀ s, IsLine s → IsLine (b :: s) := by
    intro b hb s hs
    have hfirst : IsLine [b] := isLine_of_ascii (by simpa using hb)
    exact hfirst.append hs
  have hmember : ∀ name value : String, ∀ s, IsLine s →
      IsLine (stringForm (textPieces name) ++ 0x3A :: (stringForm (textPieces value) ++ s)) := by
    intro name value s hs
    exact (isLine_stringForm name).append
      (hmark _ (by decide) _ ((isLine_stringForm value).append hs))
  have hend : IsLine [0x7D] := isLine_of_ascii (by simp)
  have hform : v.encode = 0x7B :: (stringForm (textPieces "IP") ++ 0x3A ::
      (stringForm (textPieces v.clientKey) ++ 0x2C :: (stringForm (textPieces "UserAgent") ++
        0x3A :: (stringForm (textPieces v.userAgent) ++ 0x2C :: (stringForm (textPieces "Path") ++ 0x3A ::
          (stringForm (textPieces v.path) ++ 0x2C :: (stringForm (textPieces "Timestamp") ++ 0x3A ::
            (stringForm (textPieces (String.ofList v.timestamp.text)) ++ [0x7D])))))))) := by
    simp [encode, Value.compact, toJson, Value.ofMembers, members, timeValue, Value.text,
      Value.form, membersForm, Layout.newline, Layout.deeper, Layout.colon]
  refine ⟨_, hform, ?_⟩
  refine hmember _ _ _ (hmark _ (by decide) _ (hmember _ _ _ (hmark _ (by decide) _ ?_)))
  exact hmember _ _ _ (hmark _ (by decide) _ (hmember _ _ _ hend))

/-- The text of a visit begins with a brace. -/
theorem encode_eq_encode (v : Visit) : ∃ cs, v.encode = Text.Utf8.encode ('\x7b' :: cs) := by
  obtain ⟨tail, hencode, htail⟩ := v.encode_eq_cons
  obtain ⟨cs, hcs⟩ := htail.text
  refine ⟨cs, ?_⟩
  rw [hencode, Text.Utf8.encode_cons, hcs]
  rfl

theorem isText_encode (v : Visit) : IsText v.encode := by
  obtain ⟨cs, hcs⟩ := v.encode_eq_encode
  exact ⟨_, hcs.symm⟩

theorem printable_encode (v : Visit) : ∀ b ∈ v.encode, 0x20 ≤ b := by
  obtain ⟨tail, hencode, htail⟩ := v.encode_eq_cons
  rw [hencode]
  intro b hb
  rcases List.mem_cons.1 hb with rfl | hb
  · decide
  · exact htail.printable b hb

/-- The text of a visit holds no part of the ending of a line. -/
theorem not_mem_encode (v : Visit) : (0x0A : UInt8) ∉ v.encode ∧ (0x0D : UInt8) ∉ v.encode := by
  constructor
  · intro h
    exact absurd (v.printable_encode _ h) (by decide)
  · intro h
    exact absurd (v.printable_encode _ h) (by decide)

/-- The lines of a log that is made of visits are their texts. -/
theorem byteLines_log (visits : List Visit) :
    Text.byteLines (visits.flatMap line) = visits.map encode := by
  have hflat : visits.flatMap line = (visits.map encode).flatMap fun text => text ++ [0x0A] := by
    rw [List.flatMap_map]
    rfl
  rw [hflat]
  apply Text.lines_flatMap
  intro text htext
  obtain ⟨v, -, rfl⟩ := List.mem_map.1 htext
  exact v.not_mem_encode

theorem mapM_decode?_encode {visits : List Visit}
    (h : ∀ v ∈ visits, v.timestamp.Representable) :
    (visits.map encode).mapM decode? = some visits :=
  mapM_map_eq_some fun v hv => decode?_encode (h v hv)

/-- The text of every visit stays on its line, and the lines are read back as the visits. -/
theorem log_read_back (visits : List Visit) (h : ∀ v ∈ visits, v.timestamp.Representable) :
    (∀ v ∈ visits, (0x0A : UInt8) ∉ v.encode ∧ (0x0D : UInt8) ∉ v.encode ∧
      decode? v.encode = some v) ∧
    Text.byteLines (visits.flatMap line) = visits.map encode ∧
    (Text.byteLines (visits.flatMap line)).mapM decode? = some visits := by
  refine ⟨?_, byteLines_log visits, ?_⟩
  · intro v hv
    obtain ⟨hlf, hcr⟩ := v.not_mem_encode
    exact ⟨hlf, hcr, decode?_encode (h v hv)⟩
  · rw [byteLines_log]
    exact mapM_decode?_encode h

/--
Quotes, backslashes, the endings of lines and a line separator, on the first day
there is, in a leap second with a fraction, and in the last year.
-/
def unusual : List Visit :=
  [⟨"\"", "\\\"\\", "/\x0a\x0d\x00", ⟨-8334601228800, 1⟩⟩,
    ⟨"\u2028", "\u00e9", "", ⟨1483228799, 1500000000⟩⟩,
    ⟨"", "\x7b\"IP\":", "\x7f", ⟨8210266876799, 999999999⟩⟩]

theorem unusual_read_back :
    (∀ v ∈ unusual, v.timestamp.Representable) ∧
      (Text.byteLines (unusual.flatMap line)).mapM decode? = some unusual := by
  have htimes : ∀ v ∈ unusual, v.timestamp.Representable := by decide +kernel
  exact ⟨htimes, (log_read_back unusual htimes).2.2⟩

end Visit

end Tarpit.Traffic
