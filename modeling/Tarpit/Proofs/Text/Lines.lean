import Tarpit.Proofs.Text.Utf8
import Tarpit.Text.Lines

/-!
# Splitting what was written line by line

Lines with their endings one after another are split into those lines again.
What is appended to a text goes on with its last line, unless that line has an
ending.
-/

namespace Tarpit.Text

variable {α : Type} [DecidableEq α]

/-- A line with its ending is the first line of the text. -/
theorem lines_append_cons {lf : α} (cr : α) {line : List α} (h : lf ∉ line) (rest : List α) :
    lines lf cr (line ++ lf :: rest) = dropReturn cr line :: lines lf cr rest := by
  obtain ⟨first, more, hpieces⟩ := List.exists_cons_of_ne_nil (List.splitOn_ne_nil lf rest)
  have hsplit : (line ++ lf :: rest).splitOn lf = line :: first :: more := by
    rw [List.splitOn_append_cons_self_of_not_mem h, hpieces]
  unfold lines
  simp only [hsplit, hpieces, List.dropLast_cons_cons, List.map_cons, List.getLast?_cons_cons,
    List.cons_append]

/-- Lines that hold neither part of an ending are the lines of the text made of them. -/
theorem lines_flatMap {lf cr : α} {ls : List (List α)} (h : ∀ line ∈ ls, lf ∉ line ∧ cr ∉ line) :
    lines lf cr (ls.flatMap fun line => line ++ [lf]) = ls := by
  induction ls with
  | nil => exact lines_nil lf cr
  | cons line rest ih =>
      obtain ⟨hlf, hcr⟩ := h line List.mem_cons_self
      have hrest := ih fun other hother => h other (List.mem_cons_of_mem line hother)
      rw [List.flatMap_cons, List.append_assoc, List.singleton_append, lines_append_cons cr hlf,
        dropReturn_eq_self hcr, hrest]

/-! ## The line without an ending -/

/-- The lines of a text that have an ending. -/
def endedLines (lf cr : α) (s : List α) : List (List α) :=
  (s.splitOn lf).dropLast.map (dropReturn cr)

/-- What stands behind the last ending of a text. -/
def openLine (lf : α) (s : List α) : List α :=
  (s.splitOn lf).getLastD []

/-- A text is one line without an ending, or a line with its ending and a shorter text. -/
theorem line_induction (lf : α) {Holds : List α → Prop} (hopen : ∀ s, lf ∉ s → Holds s)
    (hline : ∀ line rest, lf ∉ line → Holds rest → Holds (line ++ lf :: rest)) (s : List α) :
    Holds s := by
  induction hlength : s.length using Nat.strongRecOn generalizing s with
  | ind n ih =>
      by_cases hmem : lf ∈ s
      · obtain ⟨line, rest, rfl, hnot⟩ := List.eq_append_cons_of_mem hmem
        have hshorter : rest.length < n := by
          rw [← hlength, List.length_append, List.length_cons]
          omega
        exact hline line rest hnot (ih rest.length hshorter rest rfl)
      · exact hopen s hmem

theorem endedLines_of_not_mem {lf : α} (cr : α) {s : List α} (h : lf ∉ s) :
    endedLines lf cr s = [] := by
  rw [endedLines, List.splitOn_eq_singleton h]
  rfl

theorem openLine_of_not_mem {lf : α} {s : List α} (h : lf ∉ s) : openLine lf s = s := by
  rw [openLine, List.splitOn_eq_singleton h]
  rfl

theorem endedLines_append_cons {lf : α} (cr : α) {line : List α} (h : lf ∉ line) (rest : List α) :
    endedLines lf cr (line ++ lf :: rest) = dropReturn cr line :: endedLines lf cr rest := by
  obtain ⟨first, more, hpieces⟩ := List.exists_cons_of_ne_nil (List.splitOn_ne_nil lf rest)
  rw [endedLines, endedLines, List.splitOn_append_cons_self_of_not_mem h, hpieces,
    List.dropLast_cons_cons, List.map_cons]

theorem openLine_append_cons {lf : α} {line : List α} (h : lf ∉ line) (rest : List α) :
    openLine lf (line ++ lf :: rest) = openLine lf rest := by
  obtain ⟨first, more, hpieces⟩ := List.exists_cons_of_ne_nil (List.splitOn_ne_nil lf rest)
  rw [openLine, openLine, List.splitOn_append_cons_self_of_not_mem h, hpieces]
  rfl

/-- What is appended goes on with the line that has no ending. -/
theorem lines_append_line {lf : α} (cr : α) {line : List α} (h : lf ∉ line) (s rest : List α) :
    lines lf cr (s ++ (line ++ lf :: rest)) =
      endedLines lf cr s ++ dropReturn cr (openLine lf s ++ line) :: lines lf cr rest := by
  induction s using line_induction lf with
  | hopen s hs =>
      have hboth : lf ∉ s ++ line := by
        rw [List.mem_append, not_or]
        exact ⟨hs, h⟩
      rw [endedLines_of_not_mem cr hs, openLine_of_not_mem hs, ← List.append_assoc,
        lines_append_cons cr hboth, List.nil_append]
  | hline first more hfirst ih =>
      rw [endedLines_append_cons cr hfirst, openLine_append_cons hfirst, List.append_assoc,
        List.cons_append, lines_append_cons cr hfirst, ih, List.cons_append]

theorem lines_of_not_mem {lf : α} (cr : α) {s : List α} (h : lf ∉ s) :
    lines lf cr s = if s.isEmpty then [] else [s] := by
  rw [lines, List.splitOn_eq_singleton h]
  cases s with
  | nil => rfl
  | cons c rest => rfl

/-- What holds of the mark and of the pieces holds of the pieces with the mark between them. -/
theorem forall_mem_intercalate {α : Type} {p : α → Prop} {a : α} (ha : p a) {pieces : List (List α)}
    (h : ∀ piece ∈ pieces, ∀ c ∈ piece, p c) : ∀ c ∈ [a].intercalate pieces, p c := by
  induction pieces with
  | nil =>
      intro c hc
      cases hc
  | cons piece rest ih =>
      have hpiece := h piece List.mem_cons_self
      have hrest := ih fun later hlater => h later (List.mem_cons_of_mem piece hlater)
      cases rest with
      | nil => simpa using hpiece
      | cons next more =>
          intro c hc
          rw [List.intercalate_cons_cons] at hc
          simp only [List.mem_append, List.mem_singleton] at hc
          rcases hc with (hc | rfl) | hc
          · exact hpiece c hc
          · exact ha
          · exact hrest c hc

/-- Splitting adds no character. -/
theorem mem_of_mem_splitOn {a c : α} {s piece : List α} (hpiece : piece ∈ s.splitOn a)
    (hc : c ∈ piece) : c ∈ s := by
  induction s using line_induction a with
  | hopen s hs =>
      rw [List.splitOn_eq_singleton hs, List.mem_singleton] at hpiece
      exact hpiece ▸ hc
  | hline line rest hline ih =>
      rw [List.splitOn_append_cons_self_of_not_mem hline, List.mem_cons] at hpiece
      rcases hpiece with rfl | hrest
      · exact List.mem_append_left _ hc
      · exact List.mem_append_right _ (List.mem_cons_of_mem a (ih hrest))

/-! ## Lines of a text -/

/--
The lines of a text.  A line ends with a line feed or with a carriage return and a line feed; what
stands behind the last ending is a line of its own, unless it is nothing.
-/
inductive HasLines : List Char → List (List Char) → Prop
  | nothing : HasLines [] []
  | unended {line : List Char} : line ≠ [] → '\n' ∉ line → HasLines line [line]
  | feed {line rest : List Char} {more : List (List Char)} : '\n' ∉ line →
      line.getLast? ≠ some '\r' → HasLines rest more →
        HasLines (line ++ '\n' :: rest) (line :: more)
  | returnFeed {line rest : List Char} {more : List (List Char)} : '\n' ∉ line →
      HasLines rest more → HasLines (line ++ ['\r'] ++ '\n' :: rest) (line :: more)

theorem dropReturn_concat (cr : α) (line : List α) : dropReturn cr (line ++ [cr]) = line := by
  rw [dropReturn, if_pos List.getLast?_concat, List.dropLast_concat]

theorem textLines_of_hasLines {s : List Char} {ls : List (List Char)} (h : HasLines s ls) :
    textLines s = ls := by
  unfold textLines
  induction h with
  | nothing => exact lines_nil '\n' '\r'
  | unended hne hfeed =>
      rw [lines_of_not_mem '\r' hfeed, if_neg (by simpa using hne)]
  | feed hfeed hreturn _ ih =>
      rw [lines_append_cons '\r' hfeed, ih, dropReturn, if_neg hreturn]
  | returnFeed hfeed _ ih =>
      rw [lines_append_cons '\r' (by simpa using hfeed), ih, dropReturn_concat]

theorem hasLines_textLines (s : List Char) : HasLines s (textLines s) := by
  unfold textLines
  induction s using line_induction '\n' with
  | hopen s hs =>
      rw [lines_of_not_mem '\r' hs]
      split
      · next hempty =>
        rw [List.isEmpty_iff.1 hempty]
        exact .nothing
      · next hne => exact .unended (by simpa using hne) hs
  | hline line rest hline ih =>
      rw [lines_append_cons '\r' hline]
      by_cases hreturn : line.getLast? = some '\r'
      · obtain ⟨start, rfl⟩ := List.getLast?_eq_some_iff.1 hreturn
        rw [dropReturn_concat]
        exact .returnFeed (fun hmem => hline (List.mem_append_left _ hmem)) ih
      · rw [dropReturn, if_neg hreturn]
        exact .feed hline hreturn ih

theorem HasLines.not_mem {s : List Char} {ls : List (List Char)} (h : HasLines s ls) :
    ∀ line ∈ ls, '\n' ∉ line := by
  induction h with
  | nothing => exact fun line hline => nomatch hline
  | unended _ hfeed => exact List.forall_mem_singleton.2 hfeed
  | feed hfeed _ _ ih => exact List.forall_mem_cons.2 ⟨hfeed, ih⟩
  | returnFeed hfeed _ ih => exact List.forall_mem_cons.2 ⟨hfeed, ih⟩

theorem hasLines_iff {s : List Char} {ls : List (List Char)} :
    HasLines s ls ↔ textLines s = ls := by
  refine ⟨textLines_of_hasLines, ?_⟩
  rintro rfl
  exact hasLines_textLines s

namespace Utf8

/-- Of the characters only one has the byte of an ASCII character among its own. -/
theorem mem_encodeChar_ascii_iff {c d : Char} (hd : d.toNat < 0x80) :
    d.toNat.toUInt8 ∈ encodeChar c ↔ c = d := by
  constructor
  · intro hmem
    by_cases hascii : c.toNat < 0x80
    · rw [encodeChar_of_ascii hascii, List.mem_singleton] at hmem
      have hnat := congrArg UInt8.toNat hmem
      rw [toNat_toUInt8 (by omega), toNat_toUInt8 (by omega)] at hnat
      exact (Char.toNat_inj.1 hnat).symm
    · have hpast := UInt8.le_iff_toNat_le.1
        (ascii_le_of_mem_encodeChar (Nat.not_lt.1 hascii) hmem)
      rw [toNat_toUInt8 (by omega)] at hpast
      exact absurd hd (Nat.not_lt.2 hpast)
  · rintro rfl
    rw [encodeChar_of_ascii hd]
    exact List.mem_singleton_self _

theorem mem_encode_ascii_iff {s : List Char} {d : Char} (hd : d.toNat < 0x80) :
    d.toNat.toUInt8 ∈ encode s ↔ d ∈ s := by
  induction s with
  | nil => simp
  | cons c rest ih =>
      rw [encode_cons, List.mem_append, List.mem_cons, mem_encodeChar_ascii_iff hd, ih]
      exact or_congr_left eq_comm

/-- The last byte of a text belongs to its last character. -/
theorem getLast?_encode_concat (s : List Char) (c : Char) :
    (encode (s ++ [c])).getLast? = (encodeChar c).getLast? := by
  rw [encode_append, encode_cons, encode_nil, List.append_nil, List.getLast?_append,
    List.getLast?_eq_some_getLast (encodeChar_ne_nil c)]
  rfl

theorem isEmpty_encode (s : List Char) : (encode s).isEmpty = s.isEmpty := by
  cases s with
  | nil => rfl
  | cons c rest =>
      obtain ⟨b, bs, hbytes⟩ := List.exists_cons_of_ne_nil (encodeChar_ne_nil c)
      rw [encode_cons, hbytes]
      rfl

theorem dropReturn_encode (s : List Char) :
    dropReturn 0x0D (encode s) = encode (dropReturn '\x0d' s) := by
  rcases List.eq_nil_or_concat s with rfl | ⟨start, c, hs⟩
  · rfl
  rw [List.concat_eq_append] at hs
  subst hs
  have hlast := getLast?_encode_concat start c
  by_cases hc : c = '\x0d'
  · subst hc
    have hbytes : encode (start ++ ['\x0d']) = encode start ++ [0x0D] := encode_append _ _
    rw [dropReturn, if_pos (by rw [hlast]; rfl), dropReturn, if_pos List.getLast?_concat, hbytes,
      List.dropLast_concat, List.dropLast_concat]
  · have hbyte : (encodeChar c).getLast? ≠ some 0x0D := by
      intro hreturn
      have hmem : '\x0d'.toNat.toUInt8 ∈ encodeChar c := List.mem_of_getLast? hreturn
      exact hc ((mem_encodeChar_ascii_iff (by decide)).1 hmem)
    have hchar : (start ++ [c]).getLast? ≠ some '\x0d' := by
      rw [List.getLast?_concat]
      exact fun h => hc (Option.some.inj h)
    rw [dropReturn, if_neg (by rwa [hlast]), dropReturn, if_neg hchar]

/-- The lines of the bytes of a text are the bytes of its lines. -/
theorem byteLines_encode (s : List Char) : byteLines (encode s) = (textLines s).map encode := by
  have hending : ∀ {t : List Char}, '\n' ∉ t → (0x0A : UInt8) ∉ encode t := by
    intro t ht hmem
    exact ht ((mem_encode_ascii_iff (d := '\n') (by decide)).1 hmem)
  induction s using line_induction '\n' with
  | hopen s hs =>
      rw [byteLines, textLines, lines_of_not_mem 13 (hending hs), lines_of_not_mem '\r' hs,
        isEmpty_encode]
      split
      · rfl
      · rfl
  | hline line rest hline ih =>
      have hbytes : encode (line ++ '\n' :: rest) = encode line ++ 0x0A :: encode rest :=
        encode_append line ('\n' :: rest)
      unfold byteLines textLines at ih ⊢
      rw [hbytes, lines_append_cons 13 (hending hline), lines_append_cons '\r' hline, ih,
        List.map_cons]
      exact congrArg (· :: _) (dropReturn_encode line)

theorem IsText.of_mem_byteLines {s line : Bytes} (h : IsText s) (hline : line ∈ byteLines s) :
    IsText line := by
  obtain ⟨cs, rfl⟩ := h
  rw [byteLines_encode] at hline
  obtain ⟨ds, -, hds⟩ := List.mem_map.1 hline
  exact ⟨ds, hds⟩

end Utf8

end Tarpit.Text
