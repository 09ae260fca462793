import Mathlib.Data.List.Forall2
import Tarpit.Page.Wordlist
import Tarpit.Proofs.Text.Blank
import Tarpit.Proofs.Text.Lines

/-!
# What a wordlist lists

A file lists what trimming leaves of its lines.  Reading stops at the first entry
too many, so a list is returned just when it has room, and a list that was
returned is read back from a file that holds its entries, one on each line.
-/

namespace Tarpit.Page

open Tarpit.Text

/-! ## Entries of a text -/

/-- What trimming leaves of lines, where it leaves anything. -/
def remains (lines : List (List Char)) : List (List Char) :=
  (lines.map trim).filter fun entry => !entry.isEmpty

theorem remains_cons_blank {line : List Char} (h : trim line = []) (rest : List (List Char)) :
    remains (line :: rest) = remains rest := by
  simp [remains, h]

theorem remains_cons_entry {line : List Char} (h : trim line ≠ []) (rest : List (List Char)) :
    remains (line :: rest) = trim line :: remains rest := by
  simp [remains, h]

/-- Reading goes on until an entry has no room. -/
theorem gather_eq (room : Nat) (done : List String) (lines : List (List Char)) :
    gather room done lines =
      if (remains lines).length ≤ room then .ok (done.reverse ++ (remains lines).map String.ofList)
      else .error .tooManyEntries := by
  induction lines generalizing room done with
  | nil => simp [gather, remains]
  | cons line rest ih =>
      by_cases hblank : trim line = []
      · rw [gather_blank hblank, remains_cons_blank hblank, ih]
      · rw [remains_cons_entry hblank, List.length_cons]
        cases room with
        | zero => rw [gather_full hblank, if_neg (Nat.not_succ_le_zero _)]
        | succ room =>
            rw [gather_entry hblank, ih]
            simp only [Nat.add_le_add_iff_right, List.reverse_cons, List.append_assoc,
              List.map_cons, List.singleton_append]

def entriesOf (text : List Char) : List (List Char) :=
  remains (textLines text)

theorem loadWordlist_encode {text : List Char}
    (hsize : (Utf8.encode text).length ≤ maxWordlistBytes) :
    loadWordlist (.ofBytes (Utf8.encode text)) =
      if (entriesOf text).length ≤ maxWordlistEntries then .ok ((entriesOf text).map String.ofList)
      else .error .tooManyEntries := by
  rw [WordlistPlace.ofBytes, loadWordlist, if_neg (Nat.not_lt.2 hsize), readWordlist,
    Utf8.decode_encode]
  exact gather_eq maxWordlistEntries [] (textLines text)

theorem mem_entriesOf {text entry : List Char} (h : entry ∈ entriesOf text) :
    entry ≠ [] ∧ ∃ line ∈ textLines text, trim line = entry := by
  obtain ⟨hmem, hne⟩ := List.mem_filter.1 h
  exact ⟨by simpa using hne, List.mem_map.1 hmem⟩

/-- A carriage return goes with the other blanks. -/
theorem trim_dropReturn (line : List Char) : trim (dropReturn '\r' line) = trim line := by
  unfold dropReturn
  split
  · next hlast =>
    obtain ⟨start, rfl⟩ := List.getLast?_eq_some_iff.1 hlast
    have hnothing : ∀ c ∈ ([] : List Char), isBlank c = true := List.forall_mem_nil _
    have hreturn : ∀ c ∈ ['\r'], isBlank c = true := List.forall_mem_singleton.2 rfl
    have haround := trim_of_blank_around hnothing hreturn start
    rw [List.dropLast_concat]
    exact haround.symm
  · rfl

theorem entriesOf_of_not_mem {text : List Char} (h : '\n' ∉ text) :
    entriesOf text = remains [text] := by
  rw [entriesOf, textLines, lines_of_not_mem '\r' h]
  split
  · next hempty =>
    rw [List.isEmpty_iff.1 hempty]
    rfl
  · rfl

theorem entriesOf_append_cons {line : List Char} (h : '\n' ∉ line) (rest : List Char) :
    entriesOf (line ++ '\n' :: rest) = remains [line] ++ entriesOf rest := by
  rw [entriesOf, textLines, lines_append_cons '\r' h]
  unfold entriesOf textLines remains
  rw [List.map_cons, trim_dropReturn, ← List.filter_append]
  rfl

/-! ## Entries on lines of their own -/

/-- The entries with a line feed between them. -/
def joined (entries : List (List Char)) : List Char :=
  ['\n'].intercalate entries

theorem joined_cons_cons (entry next : List Char) (more : List (List Char)) :
    joined (entry :: next :: more) = entry ++ '\n' :: joined (next :: more) := by
  rw [joined, List.intercalate_cons_cons, List.append_assoc]
  rfl

theorem joined_remains_singleton (line : List Char) : joined (remains [line]) = trim line := by
  by_cases hblank : trim line = []
  · rw [remains_cons_blank hblank, hblank]
    rfl
  · rw [remains_cons_entry hblank]
    exact List.intercalate_singleton

/-- What can stand in a wordlist. -/
structure IsEntry (entry : List Char) : Prop where
  nonempty : entry ≠ []
  bare : Bare entry
  inLine : '\n' ∉ entry

theorem IsEntry.remains {entry : List Char} (h : IsEntry entry) : remains [entry] = [entry] := by
  have htrim := trim_of_bare h.bare
  rw [remains_cons_entry (by rw [htrim]; exact h.nonempty), htrim]
  rfl

theorem entriesOf_joined {entries : List (List Char)} (h : ∀ entry ∈ entries, IsEntry entry) :
    entriesOf (joined entries) = entries := by
  induction entries with
  | nil => rfl
  | cons entry rest ih =>
      have hentry := h entry List.mem_cons_self
      have hrest := ih fun other hother => h other (List.mem_cons_of_mem entry hother)
      cases rest with
      | nil =>
          rw [joined, List.intercalate_singleton, entriesOf_of_not_mem hentry.inLine,
            hentry.remains]
      | cons next more =>
          rw [joined_cons_cons, entriesOf_append_cons hentry.inLine, hentry.remains, hrest]
          rfl

theorem isEntry_of_mem_entriesOf {text entry : List Char} (h : entry ∈ entriesOf text) :
    IsEntry entry := by
  obtain ⟨hne, line, hline, rfl⟩ := mem_entriesOf h
  refine ⟨hne, bare_trim line, fun hfeed => ?_⟩
  exact (hasLines_textLines text).not_mem line hline (mem_of_mem_trim hfeed)

/-! ## Sizes -/

theorem length_encode_trim_le (s : List Char) :
    (Utf8.encode (trim s)).length ≤ (Utf8.encode s).length := by
  obtain ⟨left, right, -, -, hs⟩ := exists_around_trim s
  have hbytes := congrArg (fun cs => (Utf8.encode cs).length) hs
  simp only [Utf8.encode_append, List.length_append] at hbytes
  omega

theorem length_encode_joined_cons_le (entry : List Char) (rest : List (List Char)) :
    (Utf8.encode (joined (entry :: rest))).length ≤
      (Utf8.encode entry).length + 1 + (Utf8.encode (joined rest)).length := by
  cases rest with
  | nil =>
      rw [joined, List.intercalate_singleton]
      omega
  | cons next more =>
      have hfeed : (Utf8.encodeChar '\n').length = 1 := rfl
      rw [joined_cons_cons, Utf8.encode_append, Utf8.encode_cons, List.length_append,
        List.length_append, hfeed]
      omega

/-- The entries alone take no more bytes than the text that lists them. -/
theorem length_encode_joined_le (text : List Char) :
    (Utf8.encode (joined (entriesOf text))).length ≤ (Utf8.encode text).length := by
  induction text using line_induction '\n' with
  | hopen s hs =>
      rw [entriesOf_of_not_mem hs, joined_remains_singleton]
      exact length_encode_trim_le s
  | hline line rest hline ih =>
      have htrim := length_encode_trim_le line
      have hfeed : (Utf8.encodeChar '\n').length = 1 := rfl
      rw [entriesOf_append_cons hline, Utf8.encode_append, Utf8.encode_cons, List.length_append,
        List.length_append, hfeed]
      by_cases hblank : trim line = []
      · rw [remains_cons_blank hblank]
        exact Nat.le_trans ih (by omega)
      · rw [remains_cons_entry hblank]
        exact Nat.le_trans (length_encode_joined_cons_le (trim line) (entriesOf rest)) (by omega)

/-! ## Files -/

/-- The bytes of a file list these entries: what trimming leaves of its lines, if anything. -/
def Lists (data : Bytes) (entries : List String) : Prop :=
  ∃ text lines rests, data = Utf8.encode text ∧ HasLines text lines ∧
    List.Forall₂ Trims lines rests ∧
    entries = (rests.filter fun rest => !rest.isEmpty).map String.ofList

theorem forall₂_trims_iff {lines rests : List (List Char)} :
    List.Forall₂ Trims lines rests ↔ lines.map trim = rests := by
  have htrims : Trims = fun line rest => trim line = rest :=
    funext fun line => funext fun rest => propext trims_iff
  rw [htrims, ← List.forall₂_map_left_iff (R := (· = ·)), List.forall₂_eq_eq_eq]

theorem lists_encode_iff {text : List Char} {entries : List String} :
    Lists (Utf8.encode text) entries ↔ entries = (entriesOf text).map String.ofList := by
  constructor
  · rintro ⟨other, lines, rests, hother, hlines, hrests, rfl⟩
    obtain rfl : text = other := by
      have hdecode := congrArg Utf8.decode hother
      rw [Utf8.decode_encode, Utf8.decode_encode] at hdecode
      exact Option.some.inj hdecode
    rw [← forall₂_trims_iff.1 hrests, ← hasLines_iff.1 hlines]
    rfl
  · rintro rfl
    exact ⟨text, textLines text, (textLines text).map trim, rfl, hasLines_textLines text,
      forall₂_trims_iff.2 rfl, rfl⟩

theorem bytes_intercalate (entries : List (List Char)) :
    Utf8.bytes ("\n".intercalate (entries.map String.ofList)) = Utf8.encode (joined entries) := by
  have hentries : (String.toList ∘ String.ofList) = id := funext fun _ => String.toList_ofList
  rw [Utf8.bytes, String.toList_intercalate, List.map_map, hentries, List.map_id]
  rfl

/--
A file of text lists one list of entries.  It is returned if it has room, and is then what a file
with the entries on lines of their own lists.
-/
theorem loadWordlist_lists {data : Bytes} (hsize : data.length ≤ maxWordlistBytes)
    (htext : Utf8.IsText data) :
    ∃ entries, (∀ others, Lists data others ↔ others = entries) ∧
      (loadWordlist (.ofBytes data) =
        if entries.length ≤ maxWordlistEntries then .ok entries else .error .tooManyEntries) ∧
      (∀ entry ∈ entries, IsEntry entry.toList) ∧
      (entries.length ≤ maxWordlistEntries →
        loadWordlist (.ofBytes (Utf8.bytes ("\n".intercalate entries))) = .ok entries) := by
  obtain ⟨text, rfl⟩ := htext
  have hentries : ∀ entry ∈ entriesOf text, IsEntry entry := fun _ => isEntry_of_mem_entriesOf
  refine ⟨(entriesOf text).map String.ofList, fun _ => lists_encode_iff, ?_, ?_, ?_⟩
  · rw [loadWordlist_encode hsize, List.length_map]
  · intro entry hentry
    obtain ⟨cs, hcs, rfl⟩ := List.mem_map.1 hentry
    rw [String.toList_ofList]
    exact hentries cs hcs
  · intro hroom
    rw [List.length_map] at hroom
    have hjoined := Nat.le_trans (length_encode_joined_le text) hsize
    rw [bytes_intercalate, loadWordlist_encode hjoined, entriesOf_joined hentries, if_pos hroom]

/-- Blank lines, wide blanks, a return within a line and a last line without an ending. -/
def muddledText : List Char :=
  " tar\r\n\u3000\n\nhoney\rpot \r\r\n\tend".toList

theorem loadWordlist_lists_muddled :
    (Utf8.encode muddledText).length ≤ maxWordlistBytes ∧ Utf8.IsText (Utf8.encode muddledText) ∧
      Lists (Utf8.encode muddledText) ["tar", "honey\rpot", "end"] ∧
      loadWordlist (.ofBytes (Utf8.encode muddledText)) = .ok ["tar", "honey\rpot", "end"] ∧
      loadWordlist (.ofBytes (Utf8.bytes "tar\nhoney\rpot\nend")) =
        .ok ["tar", "honey\rpot", "end"] := by
  have hsize : (Utf8.encode muddledText).length ≤ maxWordlistBytes := by decide +kernel
  have htext : Utf8.IsText (Utf8.encode muddledText) := ⟨muddledText, rfl⟩
  have hlisted : Lists (Utf8.encode muddledText) ["tar", "honey\rpot", "end"] :=
    lists_encode_iff.2 (by decide +kernel)
  obtain ⟨entries, hlists, hload, -, hagain⟩ := loadWordlist_lists hsize htext
  obtain rfl := (hlists _).1 hlisted
  exact ⟨hsize, htext, hlisted, hload, hagain (by decide)⟩

end Tarpit.Page
