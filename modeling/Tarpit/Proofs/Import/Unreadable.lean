import Mathlib.Data.List.TakeWhile
import Tarpit.Proofs.Import.Repeated

/-!
# Lines that cannot be read

A line that is a text never stops a reading: it is recorded, or counted as left
out.  A line that is no text stops it, so that nothing behind the line is
recorded, whatever stands there.
-/

namespace Tarpit.Traffic

namespace Importing

/-! ## What is recorded and what is counted -/

/-- There is something on the line, but no visit that the tables take. -/
def isLeftOut (bytes : Bytes) : Bool :=
  !isBlank bytes && (recordable? bytes).isNone

/-- What some lines make of a state: their visits are recorded, and the others are counted. -/
structure TakesIn (i j : Importing) (ls : List Bytes) : Prop where
  tables : j.store.tables = Ledger.recordedAll (ls.filterMap recordable?) i.store.tables
  imported : j.report.imported =
    i.report.imported + ls.countP fun bytes => (recordable? bytes).isSome
  skipped : j.report.skipped = i.report.skipped + ls.countP isLeftOut

theorem imported_passing (i : Importing) (bytes : Bytes) :
    (i.passing bytes).report.imported =
      i.report.imported + (recordable? bytes).isSome.toNat := by
  unfold passing
  cases recordable? bytes with
  | some v => rfl
  | none =>
      cases isBlank bytes with
      | true => rfl
      | false => rfl

theorem skipped_passing (i : Importing) (bytes : Bytes) :
    (i.passing bytes).report.skipped = i.report.skipped + (isLeftOut bytes).toNat := by
  unfold passing isLeftOut
  cases recordable? bytes with
  | some v => exact congrArg (i.report.skipped + ·.toNat) (Bool.and_false _).symm
  | none =>
      cases isBlank bytes with
      | true => rfl
      | false => rfl

theorem takesIn_foldl_passing (i : Importing) (ls : List Bytes) :
    i.TakesIn (ls.foldl passing i) ls := by
  refine ⟨tables_foldl_passing i ls, ?_, ?_⟩
  · induction ls generalizing i with
    | nil => rfl
    | cons bytes rest ih =>
        rw [List.foldl_cons, ih, imported_passing, List.countP_cons, Nat.add_assoc, Nat.add_comm _
          (List.countP _ rest)]
        cases (recordable? bytes).isSome with
        | true => rfl
        | false => rfl
  · induction ls generalizing i with
    | nil => rfl
    | cons bytes rest ih =>
        rw [List.foldl_cons, ih, skipped_passing, List.countP_cons, Nat.add_assoc, Nat.add_comm _
          (List.countP _ rest)]
        cases isLeftOut bytes with
        | true => rfl
        | false => rfl

theorem TakesIn.retire {i j : Importing} {ls : List Bytes} (h : i.TakesIn j ls) (directory : Path)
    (name : String) : i.TakesIn (j.retire directory name) ls := by
  unfold Importing.retire
  simp only
  split
  · exact ⟨h.tables, h.imported, h.skipped⟩
  · exact h

/-- All visits that could be read were recorded just if none is behind a line that is no text. -/
theorem TakesIn.records_all_iff {i j : Importing} {ls : List Bytes}
    (h : i.TakesIn j (ls.takeWhile isTextLine)) :
    j.store.tables = Ledger.recordedAll ((ls.filter isTextLine).filterMap recordable?)
        i.store.tables ↔
      ((ls.dropWhile isTextLine).filter isTextLine).filterMap recordable? = [] := by
  have hbefore : (ls.takeWhile isTextLine).filter isTextLine = ls.takeWhile isTextLine :=
    List.filter_eq_self.2 fun _ hbytes => List.mem_takeWhile_imp hbytes
  have hsplit : (ls.filter isTextLine).filterMap recordable? =
      (ls.takeWhile isTextLine).filterMap recordable? ++
        ((ls.dropWhile isTextLine).filter isTextLine).filterMap recordable? := by
    conv_lhs => rw [← List.takeWhile_append_dropWhile (p := isTextLine) (l := ls)]
    rw [List.filter_append, hbefore, List.filterMap_append]
  rw [h.tables, hsplit, Ledger.recordedAll_append]
  constructor
  · intro hall
    have htotal := congrArg Ledger.total hall
    rw [Ledger.total_recordedAll _ (Ledger.recordedAll _ _)] at htotal
    exact List.eq_nil_of_length_eq_zero (by omega)
  · intro hnone
    rw [hnone]
    rfl

/--
Taking in a log for a caller who waits goes up to the first line that is no text.  It fails just if
there is such a line; then the log keeps its name, and visits behind the line are not recorded.
-/
theorem requestLog_up_to_unreadable {i : Importing} {directory : Path} {data : Bytes}
    (hlog : i.volume.read? (directory ++ [requestLogName]) = some data) :
    ∃ j, i.requestLog directory .waiting =
        (if (Text.byteLines data).all isTextLine then .ok () else .error .files, j) ∧
      i.TakesIn j ((Text.byteLines data).takeWhile isTextLine) ∧
      (j.store.tables = Ledger.recordedAll
          (((Text.byteLines data).filter isTextLine).filterMap recordable?) i.store.tables ↔
        (((Text.byteLines data).dropWhile isTextLine).filter isTextLine).filterMap recordable? =
          []) ∧
      ((Text.byteLines data).all isTextLine = false → i.volume.SameLog j.volume directory) := by
  let ls := Text.byteLines data
  obtain ⟨id, hfile⟩ := Volume.exists_fileAt_of_read? hlog
  have hlines : i.volume.logLines? directory = some ls := by
    rw [Volume.logLines?, if_pos hfile.isFile, hlog, Option.getD_some]
  have hrun := i.requestLog_eq directory .waiting hlines
  have htaken := i.takesIn_foldl_passing (ls.takeWhile isTextLine)
  rw [ending?_waiting, passed_waiting] at hrun
  cases hall : ls.all isTextLine with
  | true =>
      rw [hall] at hrun
      have hretired := htaken.retire directory requestLogName
      exact ⟨_, hrun, hretired, hretired.records_all_iff, fun hsome => absurd hsome (by simp)⟩
  | false =>
      rw [hall] at hrun
      exact ⟨_, hrun, htaken, htaken.records_all_iff,
        fun _ => i.sameLog_foldl_passing (ls.takeWhile isTextLine) directory⟩

/-- A line that is torn, a visit, a blank line, a line that is no text, and the visit again. -/
def muddledLog : Bytes :=
  let visit := Visit.line ⟨"10.0.0.1", "bot", "/a", ⟨1700000000, 0⟩⟩
  [0x7B, 0x0A] ++ visit ++ [0x0A] ++ [0xFF, 0x0A] ++ visit

def logging (data : Bytes) : Importing :=
  ⟨.inMemory ⟨1700000000, 0⟩,
    { nodes := [([requestLogName], .file 0)], contents := [(0, .bytes data)], nextId := 1 }, .empty⟩

/-- The second visit of the log is not recorded. -/
theorem requestLog_muddledLog :
    (logging muddledLog).volume.read? ([] ++ [requestLogName]) = some muddledLog ∧
      ∃ j, (logging muddledLog).requestLog [] .waiting = (.error .files, j) ∧
        j.store.tables.log = [⟨"10.0.0.1", "bot", "/a", ⟨1700000000, 0⟩⟩] ∧
        j.report.imported = 1 ∧ j.report.skipped = 1 := by
  have hlog : (logging muddledLog).volume.read? ([] ++ [requestLogName]) = some muddledLog := rfl
  obtain ⟨j, hrun, htaken, -, -⟩ := requestLog_up_to_unreadable hlog
  have hunreadable : (Text.byteLines muddledLog).all isTextLine = false := by decide +kernel
  rw [hunreadable] at hrun
  refine ⟨hlog, j, hrun, ?_, ?_, ?_⟩
  · rw [htaken.tables]
    decide +kernel
  · rw [htaken.imported]
    decide +kernel
  · rw [htaken.skipped]
    decide +kernel

/-- Behind a line that is no text the import fails, and records nothing. -/
theorem takeOver_unreadable_first :
    let start := logging ([0xFF, 0x0A] ++ Visit.line ⟨"10.0.0.1", "bot", "/a", ⟨1700000000, 0⟩⟩)
    (start.requestLog [] .waiting).1 = .error .files ∧
      (start.store.takeOver start.volume [] .waiting).1 = .error .files ∧
      (start.store.takeOver start.volume [] .waiting).2.1.tables.log = [] ∧
      ∃ bytes ∈ start.volume.logLines [],
        recordable? bytes = some ⟨"10.0.0.1", "bot", "/a", ⟨1700000000, 0⟩⟩ := by
  decide +kernel

end Importing

end Tarpit.Traffic
