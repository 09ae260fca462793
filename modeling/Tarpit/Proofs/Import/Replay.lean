import Mathlib.Data.List.TakeWhile
import Tarpit.Proofs.Import.Log
import Tarpit.Proofs.Import.Repeated

/-!
# Replaying a log

A log that is a text is read to its end.  The visits on it are recorded one
after the other, and each other line that is not blank is counted as left out.
The log then has its new name, and the next run finds nothing to take over.
-/

namespace Tarpit

/-! ## Blank lines -/

namespace Text

theorem trim_eq_nil_iff (s : List Char) : trim s = [] ↔ s.all isBlank = true := by
  constructor
  · intro hnil
    rw [List.all_eq_true]
    intro c hc
    cases hblank : isBlank c with
    | true => rfl
    | false => exact absurd hnil (trim_ne_nil hblank hc)
  · intro hall
    have hdrop : s.dropWhile isBlank = [] := by
      rw [List.dropWhile_eq_nil_iff]
      exact List.all_eq_true.1 hall
    rw [trim, hdrop]
    rfl

/-- The bytes of a blank character are past ASCII, or one of six below it. -/
theorem mem_encodeChar_of_isBlank {c : Char} (h : isBlank c = true) {b : UInt8}
    (hb : b ∈ Utf8.encodeChar c) :
    (9 ≤ b.toNat ∧ b.toNat ≤ 13) ∨ b.toNat = 0x20 ∨ 0x80 ≤ b.toNat := by
  by_cases hascii : c.toNat < 0x80
  · rw [Utf8.encodeChar_of_ascii hascii, List.mem_singleton] at hb
    rw [hb, Utf8.toNat_toUInt8 (by omega)]
    simp only [isBlank, Bool.or_eq_true, Bool.and_eq_true, decide_eq_true_eq, beq_iff_eq] at h
    omega
  · have hpast := Utf8.ascii_le_of_mem_encodeChar (Nat.not_lt.1 hascii) hb
    exact .inr (.inr (UInt8.le_iff_toNat_le.1 hpast))

end Text

namespace Json

/-- On bytes of blank characters a reader stays where it began, or fails. -/
theorem run_blank {s : Bytes} (h : ∀ b ∈ s,
    (9 ≤ b.toNat ∧ b.toNat ≤ 13) ∨ b.toNat = 0x20 ∨ 0x80 ≤ b.toNat) :
    Reader.run ⟨.between, []⟩ s = none ∨ Reader.run ⟨.between, []⟩ s = some ⟨.between, []⟩ := by
  have hstep : ∀ n < 256, ((9 ≤ n ∧ n ≤ 13) ∨ n = 0x20 ∨ 0x80 ≤ n) →
      stepBetween [] n.toUInt8 = none ∨ stepBetween [] n.toUInt8 = some ⟨.between, []⟩ := by
    decide +kernel
  induction s with
  | nil => exact .inr rfl
  | cons b rest ih =>
      have hb := hstep b.toNat b.toNat_lt (h b List.mem_cons_self)
      rw [show b.toNat.toUInt8 = b from UInt8.ofNat_toNat] at hb
      simp only [Reader.run, Reader.step]
      rcases hb with hb | hb
      · rw [hb]
        exact .inl rfl
      · rw [hb]
        exact ih fun d hd => h d (List.mem_cons_of_mem b hd)

theorem parse?_blank {s : List Char} (h : s.all Text.isBlank = true) :
    Value.parse? (Text.Utf8.encode s) = none := by
  have hbytes : ∀ b ∈ Text.Utf8.encode s,
      (9 ≤ b.toNat ∧ b.toNat ≤ 13) ∨ b.toNat = 0x20 ∨ 0x80 ≤ b.toNat := by
    intro b hb
    obtain ⟨c, hc, hbc⟩ := List.mem_flatMap.1 hb
    exact Text.mem_encodeChar_of_isBlank (List.all_eq_true.1 h c hc) hbc
  rw [Value.parse?, scan]
  rcases run_blank hbytes with hrun | hrun
  · rw [hrun]
    rfl
  · rw [hrun]
    rfl

end Json

end Tarpit

namespace Tarpit.Traffic

open Tarpit.Text.Utf8 (IsText encode)

/-! ## The visits on the lines -/

/-- The visit that a line is replayed as, if there is one on it. -/
def replayed? (line : List Char) : Option Visit :=
  (Visit.decode? (encode line)).map Visit.again

theorem replayed?_of_blank {line : List Char} (h : line.all Text.isBlank = true) :
    replayed? line = none := by
  rw [replayed?, Visit.decode?, Json.parse?_blank h]
  rfl

theorem Importing.isBlank_encode (line : List Char) :
    isBlank (encode line) = line.all Text.isBlank := by
  rw [isBlank, Text.Utf8.decode_encode, Option.any_some, Bool.eq_iff_iff, List.isEmpty_iff,
    Text.trim_eq_nil_iff]

theorem Importing.visitOn?_encode (line : List Char) : visitOn? (encode line) = replayed? line := by
  rw [visitOn?, isBlank_encode]
  cases hblank : line.all Text.isBlank with
  | true => exact (replayed?_of_blank hblank).symm
  | false => rfl

/-! ## Recording them -/

namespace DurableStore

/-- Records a visit for a caller who waits; tells whether it was taken. -/
def tryRecord (d : DurableStore) (vol : Volume) (v : Visit) : Bool × DurableStore × Volume :=
  match d.record vol .waiting v with
  | .ok changed => (true, changed)
  | .error _ => (false, d, vol)

theorem record_waiting (d : DurableStore) (vol : Volume) (v : Visit) :
    d.record vol .waiting v =
      if Ledger.accepts v then .ok (d.commit vol (Ledger.recorded v d.tables))
      else .error .database := by
  rw [record_eq, Ledger.refusal?_waiting]
  cases Ledger.accepts v with
  | true => rfl
  | false => rfl

theorem tryRecord_eq (d : DurableStore) (vol : Volume) (v : Visit) :
    d.tryRecord vol v =
      if Ledger.accepts v then (true, d.commit vol (Ledger.recorded v d.tables))
      else (false, d, vol) := by
  unfold tryRecord
  rw [record_waiting]
  cases Ledger.accepts v with
  | true => rfl
  | false => rfl

/-- Records visits one after the other for callers who wait; tells how many of them were taken. -/
def recordEach (d : DurableStore) (vol : Volume) : List Visit → Nat × DurableStore × Volume
  | [] => (0, d, vol)
  | v :: rest =>
      let (taken, d, vol) := d.tryRecord vol v
      let (n, done) := d.recordEach vol rest
      (taken.toNat + n, done)

theorem recordEach_append (d : DurableStore) (vol : Volume) (xs ys : List Visit) :
    d.recordEach vol (xs ++ ys) =
      let first := d.recordEach vol xs
      let second := first.2.1.recordEach first.2.2 ys
      (first.1 + second.1, second.2) := by
  induction xs generalizing d vol with
  | nil => simp [recordEach]
  | cons v rest ih =>
      simp only [List.cons_append, recordEach, ih]
      rw [Nat.add_assoc]

end DurableStore

/-- The line counts in the report of a reading. -/
def isCounted (line : List Char) : Bool :=
  !line.all Text.isBlank

namespace Importing

/-- What a reading of lines makes of a state: the visits on them are recorded. -/
structure Replays (i j : Importing) (ls : List (List Char)) : Prop where
  recorded : (j.store, j.volume) = (i.store.recordEach i.volume (ls.filterMap replayed?)).2
  imported : j.report.imported = i.report.imported +
    (i.store.recordEach i.volume (ls.filterMap replayed?)).1
  counted : j.report.imported + j.report.skipped =
    i.report.imported + i.report.skipped + ls.countP isCounted
  startAdopted : j.report.startAdopted = i.report.startAdopted
  files : j.report.files = i.report.files

theorem replays_nil (i : Importing) : i.Replays i [] :=
  ⟨rfl, rfl, rfl, rfl, rfl⟩

theorem Replays.append {i j k : Importing} {xs ys : List (List Char)} (h : i.Replays j xs)
    (h' : j.Replays k ys) : i.Replays k (xs ++ ys) := by
  have heach := i.store.recordEach_append i.volume (xs.filterMap replayed?)
    (ys.filterMap replayed?)
  simp only [← h.recorded, ← List.filterMap_append] at heach
  refine ⟨?_, ?_, ?_, h'.startAdopted.trans h.startAdopted, h'.files.trans h.files⟩
  · rw [heach, h'.recorded]
  · rw [heach, h'.imported, h.imported, Nat.add_assoc]
  · rw [h'.counted, h.counted, List.countP_append, Nat.add_assoc]

theorem report_recorded (i : Importing) (v : Visit) :
    (i.recorded v).report = { i.report with imported := i.report.imported + 1 } := rfl

theorem isCounted_of_replayed? {line : List Char} {v : Visit} (h : replayed? line = some v) :
    isCounted line = true := by
  unfold isCounted
  cases hblank : line.all Text.isBlank with
  | false => rfl
  | true =>
      rw [replayed?_of_blank hblank] at h
      cases h

theorem replays_of_none (i : Importing) {line : List Char} (h : replayed? line = none) :
    i.Replays (if isCounted line then i.skip else i) [line] := by
  have hnone : [line].filterMap replayed? = [] := List.filterMap_cons_none h
  cases hcounted : isCounted line with
  | true =>
      refine ⟨by rw [hnone]; rfl, by rw [hnone]; rfl, ?_, rfl, rfl⟩
      rw [List.countP_singleton, if_pos hcounted]
      rfl
  | false =>
      refine ⟨by rw [hnone]; rfl, by rw [hnone]; rfl, ?_, rfl, rfl⟩
      rw [List.countP_singleton, hcounted]
      rfl

theorem replays_of_some (i : Importing) {line : List Char} {v : Visit}
    (h : replayed? line = some v) :
    i.Replays (if Ledger.accepts v then i.recorded v else i.skip) [line] := by
  have hsome : [line].filterMap replayed? = [v] := List.filterMap_cons_some h
  have hcount : [line].countP isCounted = 1 := by
    rw [List.countP_singleton, if_pos (isCounted_of_replayed? h)]
  have htry := i.store.tryRecord_eq i.volume v
  cases haccepts : Ledger.accepts v with
  | true =>
      rw [haccepts, if_pos rfl] at htry
      have heach : i.store.recordEach i.volume [v] =
          (1, (i.recorded v).store, (i.recorded v).volume) := by
        simp only [DurableStore.recordEach, htry, Bool.toNat_true]
        rfl
      rw [if_pos rfl]
      refine ⟨by rw [hsome, heach], ?_, ?_, by rw [report_recorded], by rw [report_recorded]⟩
      · rw [hsome, heach, report_recorded]
      · rw [hcount, report_recorded]
        simp only
        omega
  | false =>
      rw [haccepts, if_neg Bool.false_ne_true] at htry
      have heach : i.store.recordEach i.volume [v] = (0, i.store, i.volume) := by
        simp only [DurableStore.recordEach, htry, Bool.toNat_false]
      rw [if_neg Bool.false_ne_true]
      refine ⟨by rw [hsome, heach]; rfl, by rw [hsome, heach]; rfl, ?_, rfl, rfl⟩
      rw [hcount]
      rfl

theorem replays_passing (i : Importing) (line : List Char) :
    i.Replays (i.passing (encode line)) [line] := by
  have hvisit := visitOn?_encode line
  cases hline : replayed? line with
  | none =>
      have hpassing : i.passing (encode line) = if isCounted line then i.skip else i := by
        rw [passing_of_none (hvisit.trans hline), isBlank_encode, isCounted]
        cases line.all Text.isBlank with
        | true => rfl
        | false => rfl
      rw [hpassing]
      exact i.replays_of_none hline
  | some v =>
      rw [passing_of_visit (hvisit.trans hline)]
      exact i.replays_of_some hline

theorem replays_foldl_passing (i : Importing) (ls : List (List Char)) :
    i.Replays ((ls.map encode).foldl passing i) ls := by
  induction ls generalizing i with
  | nil => exact replays_nil i
  | cons line rest ih => exact (i.replays_passing line).append (ih (i.passing (encode line)))

end Importing

/-! ## A whole run -/

namespace DurableStore

/-- A run on a log that is read to its end, in a directory without a snapshot. -/
theorem takeOver_eq_retire {d : DurableStore} {vol : Volume} {directory : Path}
    {patience : Patience} {ls : List Bytes} (hlog : vol.logLines? directory = some ls)
    (hsnapshot : vol.isFile (directory ++ [snapshotName]) = false)
    (hpassed : Importing.passed patience ls = ls)
    (hending : Importing.ending? patience ls = none) {done : Importing}
    (hdone : done = (ls.foldl Importing.passing ⟨d, vol, .empty⟩).retire directory
      requestLogName) :
    d.takeOver vol directory patience = (.ok done.report, done.store, done.volume) := by
  have hfile := (Volume.logLines?_eq_some_iff.1 hlog).1
  have hread := Importing.requestLog_eq ⟨d, vol, .empty⟩ directory patience hlog
  rw [hending, hpassed] at hread
  simp only [← hdone] at hread
  unfold takeOver
  simp only [hfile, hsnapshot, hread, if_true, Bool.false_eq_true, if_false]
  rfl

/-- In a directory with neither a log nor a snapshot there is nothing to take over. -/
theorem takeOver_of_nothing {d : DurableStore} {vol : Volume} {directory : Path}
    (hlog : vol.isFile (directory ++ [requestLogName]) = false)
    (hsnapshot : vol.isFile (directory ++ [snapshotName]) = false) (patience : Patience) :
    d.takeOver vol directory patience = (.ok .empty, d, vol) := by
  unfold takeOver
  simp only [hlog, hsnapshot, Bool.false_eq_true, if_false]
  rfl

end DurableStore

namespace Importing

theorem node?_foldl_passing (i : Importing) (ls : List Bytes) (path : Path) :
    (ls.foldl passing i).volume.node? path = i.volume.node? path := by
  let Keeps (j : Importing) : Prop := j.volume.node? path = i.volume.node? path
  have hrecorded : ∀ j v, Keeps j → Keeps (j.recorded v) :=
    fun j v hj => (j.store.node?_commit j.volume _ path).trans hj
  exact foldl_passing_induct hrecorded (fun j hj => hj) rfl ls

theorem read?_foldl_passing (i : Importing) (ls : List Bytes) (path : Path) :
    (ls.foldl passing i).volume.read? path = i.volume.read? path := by
  let Keeps (j : Importing) : Prop := j.volume.read? path = i.volume.read? path
  have hrecorded : ∀ j v, Keeps j → Keeps (j.recorded v) :=
    fun j v hj => (Volume.read?_commit j.store j.volume _ path).trans hj
  exact foldl_passing_induct hrecorded (fun j hj => hj) rfl ls

end Importing

namespace DurableStore

/-- What a run makes of a store and a directory whose log is a text, and what it reports of it. -/
structure Replayed (d : DurableStore) (vol : Volume) (directory : Path) (text : List Char)
    (report : ImportReport) (d' : DurableStore) (vol' : Volume) : Prop where
  recorded : d' = (d.recordEach vol ((Text.textLines text).filterMap replayed?)).2.1
  renamed : (d.recordEach vol ((Text.textLines text).filterMap replayed?)).2.2.rename?
    (directory ++ [requestLogName]) (directory ++ [requestLogName ++ importedSuffix]) = some vol'
  imported : report.imported = (d.recordEach vol ((Text.textLines text).filterMap replayed?)).1
  counted : report.imported + report.skipped = (Text.textLines text).countP isCounted
  startAdopted : report.startAdopted = false
  files : report.files = [requestLogName ++ importedSuffix]
  kept : vol'.read? (directory ++ [requestLogName ++ importedSuffix]) = some (encode text)
  /-- Whoever runs next finds nothing, and changes nothing. -/
  again : ∀ patience, d'.takeOver vol' directory patience = (.ok .empty, d', vol')

/--
A run on a log that is a text records the visits on its lines in their order, each as if its request
came now, and counts every other line that is not blank.
-/
theorem takeOver_replayed {vol : Volume} {directory : Path} {text : List Char}
    (hlog : vol.read? (directory ++ [requestLogName]) = some (encode text))
    (hsnapshot : vol.isFile (directory ++ [snapshotName]) = false)
    (hreleases : vol.releasesLog directory = true) (d : DurableStore) :
    ∃ report d' vol', d.takeOver vol directory .waiting = (.ok report, d', vol') ∧
      d.Replayed vol directory text report d' vol' := by
  let start : Importing := ⟨d, vol, .empty⟩
  let ls := (Text.textLines text).map encode
  obtain ⟨id, hfile⟩ := Volume.exists_fileAt_of_read? hlog
  have hlines : vol.logLines? directory = some ls := by
    rw [Volume.logLines?, if_pos hfile.isFile, hlog, Option.getD_some, Text.Utf8.byteLines_encode]
  have htexts : ∀ bytes ∈ ls, IsText bytes := by
    intro bytes hbytes
    obtain ⟨line, -, rfl⟩ := List.mem_map.1 hbytes
    exact ⟨line, rfl⟩
  obtain ⟨hpassed, hending⟩ := Importing.passed_of_isText htexts
  have hreplays := start.replays_foldl_passing (Text.textLines text)
  have hsame := start.sameLog_foldl_passing ls directory
  have hread := (start.read?_foldl_passing ls (directory ++ [requestLogName])).trans hlog
  have hnode := start.node?_foldl_passing ls (directory ++ [snapshotName])
  have hrun := takeOver_eq_retire (d := d) hlines hsnapshot hpassed hending rfl
  generalize ls.foldl Importing.passing start = read at hreplays hsame hread hnode hrun
  obtain ⟨vol', hrename⟩ := Option.isSome_iff_exists.1 (hsame.releases.trans hreleases)
  rw [Importing.retire_eq_of_some hrename] at hrun
  refine ⟨_, read.store, vol', hrun, ?_⟩
  have hrecorded : (d.recordEach vol ((Text.textLines text).filterMap replayed?)).2 =
      (read.store, read.volume) := hreplays.recorded.symm
  have hgone : vol'.isFile (directory ++ [requestLogName]) = false := by
    rw [Volume.isFile,
      Volume.node?_rename_source hrename (by simp [requestLogName, importedSuffix])]
  have hsnapshot' : vol'.isFile (directory ++ [snapshotName]) = false := by
    have hsameSnapshot : read.volume.SameAt vol' (directory ++ [snapshotName]) :=
      Volume.sameAt_rename hrename (by simp [requestLogName, snapshotName])
        (by simp [requestLogName, snapshotName, importedSuffix])
    rw [Volume.isFile, hsameSnapshot.node, hnode]
    exact hsnapshot
  obtain ⟨other, hmoved⟩ := Volume.exists_fileAt_of_read? hread
  constructor
  case recorded => rw [hrecorded]
  case renamed =>
    rw [hrecorded]
    exact hrename
  case imported => exact hreplays.imported.trans (Nat.zero_add _)
  case counted => exact hreplays.counted.trans (Nat.zero_add _)
  case startAdopted => exact hreplays.startAdopted
  case files =>
    show read.report.files ++ [requestLogName ++ importedSuffix] = _
    rw [hreplays.files]
    rfl
  case kept => exact (Volume.fileAt_rename_target hrename hmoved).read?
  case again => exact takeOver_of_nothing hgone hsnapshot'

/-- A visit, a blank line, one that is torn, an empty one, and a visit that has no key. -/
def mixedText : List Char :=
  ("\x7b\"IP\":\"10.0.0.1\",\"UserAgent\":\" bot\",\"Path\":\"/a\"," ++
    "\"Timestamp\":\"2023-11-14T22:13:20Z\"\x7d\r\n\u00a0\r\n\x7b\n\n" ++
    "\x7b\"IP\":\"\",\"UserAgent\":\"bot\",\"Path\":\"/b\"," ++
    "\"Timestamp\":\"2023-11-14T22:13:20Z\"\x7d").toList

def mixedVolume : Volume :=
  { nodes := [(["requests.ndjson"], .file 0)]
    contents := [(0, .bytes (encode mixedText))]
    nextId := 1 }

/-- One of the visits is recorded; the line that is torn and the visit without a key are not. -/
theorem takeOver_mixedVolume :
    mixedVolume.read? ([] ++ [requestLogName]) = some (encode mixedText) ∧
      mixedVolume.isFile ([] ++ [snapshotName]) = false ∧
      mixedVolume.releasesLog [] = true ∧
      ∃ report d' vol', (inMemory ⟨1700000000, 0⟩).takeOver mixedVolume [] .waiting =
          (.ok report, d', vol') ∧
        report.imported = 1 ∧ report.skipped = 2 ∧
        d'.tables.log = [⟨"10.0.0.1", "bot", "/a", ⟨1700000000, 0⟩⟩] ∧
        vol'.read? ["requests.ndjson.migrated"] = some (encode mixedText) := by
  have hlog : mixedVolume.read? ([] ++ [requestLogName]) = some (encode mixedText) := rfl
  have hsnapshot : mixedVolume.isFile ([] ++ [snapshotName]) = false := by decide
  have hreleases : mixedVolume.releasesLog [] = true := by decide
  obtain ⟨report, d', vol', hrun, hreplayed⟩ :=
    takeOver_replayed hlog hsnapshot hreleases (inMemory ⟨1700000000, 0⟩)
  have hvisits : (Text.textLines mixedText).filterMap replayed? =
      [⟨"10.0.0.1", "bot", "/a", ⟨1700000000, 0⟩⟩, ⟨"", "bot", "/b", ⟨1700000000, 0⟩⟩] := by
    decide +kernel
  have himported : report.imported = 1 := by
    rw [hreplayed.imported, hvisits]
    decide +kernel
  have hskipped : report.skipped = 2 := by
    have hcounted := hreplayed.counted
    have hlines : (Text.textLines mixedText).countP isCounted = 3 := by decide +kernel
    omega
  have hrecorded : d'.tables.log = [⟨"10.0.0.1", "bot", "/a", ⟨1700000000, 0⟩⟩] := by
    rw [hreplayed.recorded, hvisits]
    decide +kernel
  exact ⟨hlog, hsnapshot, hreleases, report, d', vol', hrun, himported, hskipped, hrecorded,
    hreplayed.kept⟩

end DurableStore

end Tarpit.Traffic
