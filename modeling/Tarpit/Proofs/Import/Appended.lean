import Tarpit.Proofs.Import.Log
import Tarpit.Proofs.Import.Repeated
import Tarpit.Proofs.Json.Glued
import Tarpit.Proofs.Store.Recorded

/-!
# Appending to a log

A memory store appends the lines of its visits to whatever its log holds.  When
the log does not end with a line ending, the first visit goes on with the last
line, and is lost together with it unless that line is all spaces.
-/

namespace Tarpit.Traffic

open Tarpit.Json (isSpace textPieces)
open Tarpit.Text.Utf8 (IsText)

/-! ## The line that a visit goes on with -/

namespace Visit

theorem isNamed_toJson (v : Visit) : v.toJson.IsNamed := by
  have hname : textPieces "IP" = [.byte 0x49, .byte 0x50] := by decide +kernel
  have hread := v.isRead_toJson
  have hjson : v.toJson = .object (([.byte 0x49, .byte 0x50], .text v.clientKey) ::
      (v.members.tail.map fun m => (textPieces m.1, m.2))) := by
    rw [← hname]
    rfl
  rw [hjson] at hread ⊢
  exact Json.isNamed_object hread rfl fun _ => rfl

/-- Behind other bytes a visit is read only if these are spaces. -/
theorem decode?_append {v : Visit} (h : v.timestamp.Representable) (s : Bytes) :
    decode? (s ++ v.encode) = if s.all isSpace then some v else none := by
  rw [decode?, encode, v.isNamed_toJson.parse?_append]
  cases s.all isSpace with
  | true =>
      have hself := decode?_encode h
      rwa [decode?, encode, ← List.nil_append v.toJson.compact,
        v.isNamed_toJson.parse?_append] at hself
  | false => rfl

end Visit

namespace Importing

theorem isText_of_spaces {s : Bytes} (h : s.all isSpace = true) : IsText s := by
  have hascii : ∀ n < 256, isSpace n.toUInt8 = true → n.toUInt8 < 0x80 := by decide +kernel
  apply Text.Utf8.isText_of_ascii
  intro b hb
  have hbyte := hascii b.toNat b.toNat_lt
  rw [show b.toNat.toUInt8 = b from UInt8.ofNat_toNat] at hbyte
  exact hbyte (List.all_eq_true.1 h b hb)

/-- The tables take a visit behind other bytes only if these are spaces. -/
theorem recordable?_append_encode {v : Visit} (h : v.Recordable) (s : Bytes) :
    recordable? (s ++ v.encode) = if s.all isSpace then some v else none := by
  have hdecode := Visit.decode?_append h.time s
  cases hs : s.all isSpace with
  | true =>
      rw [hs] at hdecode
      exact recordable?_of_decode? (isBlank_append_encode (isText_of_spaces hs) v) hdecode h
  | false =>
      rw [hs] at hdecode
      rw [recordable?, visitOn?, hdecode]
      split
      · rfl
      · rfl

end Importing

/-! ## The lines of the log -/

/-- The lines that have an ending, of what a log held. -/
def Volume.endedLines (before : Bytes) : List Bytes :=
  Text.endedLines 0x0A 0x0D before

/-- What a log held behind its last line ending. -/
def Volume.openLine (before : Bytes) : Bytes :=
  Text.openLine 0x0A before

/-- The visits on the lines that have an ending. -/
def Volume.endedVisits (before : Bytes) : List Visit :=
  (endedLines before).filterMap Importing.recordable?

theorem Visit.dropReturn_append_encode (s : Bytes) (v : Visit) :
    Text.dropReturn 0x0D (s ++ v.encode) = s ++ v.encode := by
  obtain ⟨tail, hencode, -⟩ := v.encode_eq_cons
  have hlast : (s ++ v.encode).getLast? = v.encode.getLast? := by
    rw [List.getLast?_append, hencode, List.getLast?_cons]
    rfl
  rw [Text.dropReturn, if_neg]
  rw [hlast]
  exact fun hreturn => v.not_mem_encode.2 (List.mem_of_getLast? hreturn)

/-- The first visit goes on with the line that has no ending; the others have lines of their own. -/
theorem Visit.byteLines_append_log (before : Bytes) (first : Visit) (rest : List Visit) :
    Text.byteLines (before ++ (first :: rest).flatMap line) =
      Volume.endedLines before ++ (Volume.openLine before ++ first.encode) :: rest.map encode := by
  have hlog : (first :: rest).flatMap line = first.encode ++ 0x0A :: rest.flatMap line := by
    rw [List.flatMap_cons, line, List.append_assoc, List.singleton_append]
  have hrest : Text.lines 0x0A 0x0D (rest.flatMap line) = rest.map encode := byteLines_log rest
  rw [hlog, Text.byteLines, Text.lines_append_line 0x0D first.not_mem_encode.1, hrest,
    Visit.dropReturn_append_encode]
  rfl

theorem Visit.isText_log (visits : List Visit) : IsText (visits.flatMap line) := by
  induction visits with
  | nil => exact ⟨[], rfl⟩
  | cons v rest ih =>
      have hending : IsText [0x0A] := ⟨['\n'], rfl⟩
      exact (v.isText_encode.append hending).append ih

/-- Of a log that visits were appended to, the tables take the visits of its ended lines first. -/
theorem Importing.entries_appended {before : Bytes} (htext : IsText before) {first : Visit}
    {rest : List Visit} (hvisits : ∀ visit ∈ first :: rest, visit.Recordable) :
    entries .waiting (Text.byteLines (before ++ (first :: rest).flatMap Visit.line)) =
      Volume.endedVisits before ++
        if (Volume.openLine before).all isSpace then first :: rest else rest := by
  have hpassed := (passed_of_isText fun _ hbytes =>
    (htext.append (Visit.isText_log (first :: rest))).of_mem_byteLines hbytes).1
  have hrest := filterMap_recordable?_log fun visit hvisit =>
    hvisits visit (List.mem_cons_of_mem first hvisit)
  rw [entries, hpassed, Visit.byteLines_append_log, List.filterMap_append, List.filterMap_cons,
    hrest, recordable?_append_encode (hvisits first List.mem_cons_self)]
  cases (Volume.openLine before).all isSpace with
  | true => rfl
  | false => rfl

/-! ## Recording and taking over -/

namespace MemoryStore

/-- Records visits one after the other for callers who wait. -/
def recordAll (m : MemoryStore) (vol : Volume) (visits : List Visit) :
    Except Failure (MemoryStore × Volume) :=
  visits.foldlM (fun s v => s.1.record s.2 .waiting v) (m, vol)

/-- A store that was opened on a log appends to the file that is there. -/
theorem fileAt_of_withLog {m m' : MemoryStore} {v v' : Volume} {path : Path} {data : Bytes}
    (hopen : m.withLog path v = .ok (m', v')) (hread : v'.read? path = some data) :
    ∃ id, m'.log? = some (.file id) ∧ v'.FileAt path id (.bytes data) := by
  unfold withLog Volume.openFile? at hopen
  cases hnode : v.node? path with
  | none =>
      have hpath : path ≠ [] := by
        rintro rfl
        cases hnode
      rw [hnode] at hopen
      unfold Volume.create? at hopen
      simp only at hopen
      split at hopen
      · next hcreated =>
          split at hcreated
          · cases hcreated
            cases hopen
            refine ⟨v.nextId, rfl, Volume.fileAt_of_read? ?_ hread⟩
            exact Volume.node?_setNode_self v hpath _
          · cases hcreated
      · cases hopen
  | some n =>
      rw [hnode] at hopen
      cases n with
      | directory => cases hopen
      | file id =>
          cases hopen
          exact ⟨id, rfl, Volume.fileAt_of_read? hnode hread⟩

/-- The log gets the lines of all visits, whatever it held. -/
theorem recordAll_of_log {m : MemoryStore} {v : Volume} {path : Path} {id : Nat} {before : Bytes}
    (hlog : m.log? = some (.file id)) (hfile : v.FileAt path id (.bytes before))
    (visits : List Visit) :
    ∃ m' v', m.recordAll v visits = .ok (m', v') ∧
      v'.FileAt path id (.bytes (before ++ visits.flatMap Visit.line)) := by
  induction visits generalizing m v before with
  | nil =>
      refine ⟨m, v, rfl, ?_⟩
      rwa [List.flatMap_nil, List.append_nil]
  | cons visit rest ih =>
      have hlogged : m.log?.elim v (fun log => log.append visit.line v) = v.append id visit.line := by
        rw [hlog]
        rfl
      obtain ⟨m', v', hrest, hlast⟩ :=
        ih (m := { m with stats := m.stats.record m.limits visit }) hlog (hfile.append visit.line)
      refine ⟨m', v', ?_, ?_⟩
      · rw [recordAll, List.foldlM_cons]
        show m.record v .waiting visit >>= _ = _
        rw [m.record_eq, hlogged]
        exact hrest
      · rwa [List.flatMap_cons, ← List.append_assoc]

end MemoryStore

theorem Importing.store_retire (i : Importing) (directory : Path) (name : String) :
    (i.retire directory name).store = i.store := by
  unfold retire
  simp only
  split
  · rfl
  · rfl

namespace DurableStore

/-- A run on a log adds the visits of the lines that it passes to the log of the tables. -/
theorem log_takeOver_of_log (d : DurableStore) (vol : Volume) (directory : Path)
    (patience : Patience) {ls : List Bytes} (h : vol.logLines? directory = some ls) :
    (d.takeOver vol directory patience).2.1.tables.log =
      d.tables.log ++ (Importing.entries patience ls).map Ledger.clamped := by
  obtain ⟨read, hread⟩ : ∃ read : Importing,
      read = (Importing.passed patience ls).foldl Importing.passing ⟨d, vol, .empty⟩ := ⟨_, rfl⟩
  have hlog : read.store.tables.log =
      d.tables.log ++ (Importing.entries patience ls).map Ledger.clamped := by
    rw [hread, Importing.tables_foldl_passing, Ledger.log_recordedAll]
    rfl
  rw [takeOver_eq d vol directory patience h hread, ← hlog]
  cases Importing.ending? patience ls with
  | some e => rfl
  | none =>
      simp only
      split
      · rw [(Importing.sameLog_snapshot _ directory).log, Importing.store_retire]
      · rw [Importing.store_retire]

/--
Visits that are appended to a log are taken over behind those of its ended lines.  All of them are
exactly if nothing but spaces stands behind the last line ending; the first one is lost otherwise.
-/
theorem takeOver_appended {m m₀ : MemoryStore} {v v₀ : Volume} {directory : Path} {before : Bytes}
    (hopen : m.withLog (directory ++ [requestLogName]) v = .ok (m₀, v₀))
    (hbefore : v₀.read? (directory ++ [requestLogName]) = some before) (htext : IsText before)
    {first : Visit} {rest : List Visit} (hvisits : ∀ visit ∈ first :: rest, visit.Recordable)
    (d : DurableStore) :
    ∃ m₁ v₁, m₀.recordAll v₀ (first :: rest) = .ok (m₁, v₁) ∧
      v₁.logLines? directory = some (Volume.endedLines before ++
        (Volume.openLine before ++ first.encode) :: rest.map Visit.encode) ∧
      (d.takeOver v₁ directory .waiting).2.1.tables.log = d.tables.log ++
        (Volume.endedVisits before ++
          if (Volume.openLine before).all isSpace then first :: rest else rest).map
            Ledger.clamped ∧
      ((d.takeOver v₁ directory .waiting).2.1.tables.log = d.tables.log ++
          (Volume.endedVisits before ++ first :: rest).map Ledger.clamped ↔
        (Volume.openLine before).all isSpace = true) := by
  obtain ⟨id, hlog, hfile⟩ := MemoryStore.fileAt_of_withLog hopen hbefore
  obtain ⟨m₁, v₁, hrecorded, happended⟩ := MemoryStore.recordAll_of_log hlog hfile (first :: rest)
  have hlogLines : v₁.logLines? directory =
      some (Text.byteLines (before ++ (first :: rest).flatMap Visit.line)) := by
    rw [Volume.logLines?, if_pos happended.isFile, happended.read?, Option.getD_some]
  have htables := d.log_takeOver_of_log v₁ directory .waiting hlogLines
  rw [Importing.entries_appended htext hvisits] at htables
  refine ⟨m₁, v₁, hrecorded, by rw [hlogLines, Visit.byteLines_append_log], htables, ?_⟩
  rw [htables]
  cases hspaces : (Volume.openLine before).all isSpace with
  | true => simp
  | false =>
      constructor
      · intro hall
        have hlength := congrArg List.length hall
        simp at hlength
      · intro h
        cases h

def early : Visit := .of "10.0.0.1" (some "bot") "/a" ⟨1700000000, 0⟩
def late : Visit := .of "10.0.0.2" (some "bot") "/b" ⟨1700000060, 0⟩

theorem recordable_early : early.Recordable :=
  ⟨⟨some "bot", rfl⟩, by decide, by decide, by decide⟩

theorem recordable_late : late.Recordable :=
  ⟨⟨some "bot", rfl⟩, by decide, by decide, by decide⟩

def logOf (data : Bytes) : Volume :=
  { nodes := [(["requests.ndjson"], .file 0)]
    contents := [(0, .bytes data)]
    nextId := 1 }

/-- Behind a line with its ending and a space both visits are taken over. -/
theorem takeOver_appended_to_space :
    ∃ m v, (MemoryStore.empty {} ⟨1700000000, 0⟩).withLog ["requests.ndjson"]
        (logOf (late.line ++ [0x20])) = .ok (m, v) ∧
      ∃ m' v', m.recordAll v [early, late] = .ok (m', v') ∧
        ((inMemory ⟨1700000000, 0⟩).takeOver v' [] .waiting).2.1.tables.log =
          [late, early, late] := by
  let logged : MemoryStore :=
    { MemoryStore.empty {} ⟨1700000000, 0⟩ with log? := some (.file 0) }
  have htext : IsText (late.line ++ [0x20]) :=
    (late.isText_encode.append ⟨['\n'], rfl⟩).append ⟨[' '], rfl⟩
  have hvisits : ∀ visit ∈ [early, late], visit.Recordable := by
    intro visit hvisit
    rcases List.mem_pair.1 hvisit with rfl | rfl
    · exact recordable_early
    · exact recordable_late
  have hopen : (MemoryStore.empty {} ⟨1700000000, 0⟩).withLog ([] ++ [requestLogName])
      (logOf (late.line ++ [0x20])) = .ok (logged, logOf (late.line ++ [0x20])) := rfl
  have hread : (logOf (late.line ++ [0x20])).read? ([] ++ [requestLogName]) =
      some (late.line ++ [0x20]) := rfl
  obtain ⟨m', v', hrecorded, -, hlog, -⟩ :=
    takeOver_appended hopen hread htext hvisits (inMemory ⟨1700000000, 0⟩)
  refine ⟨logged, _, hopen, m', v', hrecorded, hlog.trans ?_⟩
  decide +kernel

/-- The log of the tables after two visits were appended to a log and taken over. -/
def tookOver (data : Bytes) : Except Failure (List Visit) := do
  let opened ← (MemoryStore.empty {} ⟨1700000000, 0⟩).withLog ["requests.ndjson"] (logOf data)
  let logged ← opened.1.recordAll opened.2 [early, late]
  return ((inMemory ⟨1700000000, 0⟩).takeOver logged.2 [] .waiting).2.1.tables.log

/-- A log that was torn in the middle of a line. -/
def tornLine : Bytes :=
  Text.Utf8.bytes "\x7b\"IP\":\"10.0.0.9\",\"Us"

/-- The first of two visits is lost behind a torn line, and with it a visit without an ending. -/
theorem takeOver_torn :
    IsText tornLine ∧ IsText late.encode ∧ early.Recordable ∧ late.Recordable ∧
      tookOver tornLine = .ok [late] ∧ tookOver late.encode = .ok [late] := by
  refine ⟨⟨_, rfl⟩, late.isText_encode, recordable_early, recordable_late, ?_, ?_⟩
  · decide +kernel
  · decide +kernel

end DurableStore

end Tarpit.Traffic
