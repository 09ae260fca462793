import Tarpit.Proofs.Import.Reading

/-!
# Taking over again

A directory that is taken over again and again.  Its log is read until one
reading reaches the end and the log gets its new name, so a log that was read in
part, or that keeps its name, is recorded once more.
-/

namespace Tarpit.Traffic

open Tarpit.Time (Timestamp)

/-! ## The log of a directory -/

namespace Volume

/-- The lines of the request log in a directory, if there is one. -/
def logLines? (v : Volume) (directory : Path) : Option (List Bytes) :=
  if v.isFile (directory ++ [requestLogName]) then
    some (Text.byteLines ((v.read? (directory ++ [requestLogName])).getD []))
  else none

theorem logLines?_eq_some_iff {v : Volume} {directory : Path} {ls : List Bytes} :
    v.logLines? directory = some ls ↔
      v.isFile (directory ++ [requestLogName]) = true ∧
        Text.byteLines ((v.read? (directory ++ [requestLogName])).getD []) = ls := by
  unfold logLines?
  cases v.isFile (directory ++ [requestLogName]) with
  | true => simp
  | false => simp

theorem logLines?_eq_none_iff {v : Volume} {directory : Path} :
    v.logLines? directory = none ↔ v.isFile (directory ++ [requestLogName]) = false := by
  unfold logLines?
  cases v.isFile (directory ++ [requestLogName]) with
  | true => simp
  | false => simp

def releasesLog (v : Volume) (directory : Path) : Bool :=
  (v.rename? (directory ++ [requestLogName])
    (directory ++ [requestLogName ++ importedSuffix])).isSome

/-- Whether and how the log of a directory can be read and renamed is the same on both volumes. -/
structure SameLog (v v' : Volume) (directory : Path) : Prop where
  lines : v'.logLines? directory = v.logLines? directory
  releases : v'.releasesLog directory = v.releasesLog directory

theorem SameLog.refl (v : Volume) (directory : Path) : SameLog v v directory :=
  ⟨rfl, rfl⟩

theorem SameLog.trans {v v' v'' : Volume} {directory : Path} (h : SameLog v v' directory)
    (h' : SameLog v' v'' directory) : SameLog v v'' directory :=
  ⟨h'.lines.trans h.lines, h'.releases.trans h.releases⟩

/-- The log depends on three places and on what can be read of its file. -/
theorem sameLog_of {v v' : Volume} {directory : Path}
    (hnode : ∀ path, path = directory ∨ path = directory ++ [requestLogName] ∨
      path = directory ++ [requestLogName ++ importedSuffix] → v'.node? path = v.node? path)
    (hread : v'.read? (directory ++ [requestLogName]) = v.read? (directory ++ [requestLogName])) :
    SameLog v v' directory := by
  have hfile : v'.isFile (directory ++ [requestLogName]) =
      v.isFile (directory ++ [requestLogName]) := by
    rw [isFile, isFile, hnode _ (.inr (.inl rfl))]
  constructor
  · rw [logLines?, logLines?, hfile, hread]
  · have hparent : v'.hasParent (directory ++ [requestLogName ++ importedSuffix]) =
        v.hasParent (directory ++ [requestLogName ++ importedSuffix]) := by
      rw [hasParent, hasParent, List.dropLast_concat, hnode _ (.inl rfl)]
    rw [releasesLog, releasesLog, isSome_rename?, isSome_rename?, hfile, hparent,
      hnode _ (.inr (.inr rfl))]

/-- Writing tables into a file that holds tables leaves all that can be read as it was. -/
theorem read?_setContent_ledger {v : Volume} {id : Nat} (h : v.isDatabase id = true)
    (tables : Ledger) (path : Path) :
    (v.setContent id (.ledger tables)).read? path = v.read? path := by
  unfold read? content?
  rw [node?_setContent]
  cases v.node? path with
  | none => rfl
  | some n =>
      cases n with
      | directory => rfl
      | file other =>
          simp only
          by_cases hid : other = id
          · rw [hid]
            unfold isDatabase at h
            cases hheld : v.held? id with
            | none =>
                rw [hheld] at h
                cases h
            | some c =>
                rw [held?_setContent (by rw [hheld]; rfl)]
                cases c with
                | bytes data =>
                    rw [hheld] at h
                    cases h
                | ledger _ => rfl
                | damaged => rfl
          · rw [held?_setContent_of_ne v hid]

/-- Committing tables leaves all that can be read as it was. -/
theorem read?_commit (d : DurableStore) (v : Volume) (tables : Ledger) (path : Path) :
    (d.commit v tables).2.read? path = v.read? path := by
  unfold DurableStore.commit
  split
  · next id _ =>
      by_cases hdatabase : v.isDatabase id = true
      · simp only [hdatabase, if_true]
        exact read?_setContent_ledger hdatabase tables path
      · simp only [hdatabase, if_false, Bool.false_eq_true]
  · rfl

theorem sameLog_commit (d : DurableStore) (v : Volume) (tables : Ledger) (directory : Path) :
    SameLog v (d.commit v tables).2 directory :=
  sameLog_of (fun path _ => d.node?_commit v tables path) (read?_commit d v tables _)

theorem logLines?_renamed {v v' : Volume} {directory : Path}
    (h : v.rename? (directory ++ [requestLogName])
      (directory ++ [requestLogName ++ importedSuffix]) = some v') :
    v'.logLines? directory = none := by
  have hnone := node?_rename_source h (by simp [requestLogName, importedSuffix])
  rw [logLines?, isFile, hnone]
  rfl

theorem sameLog_rename_snapshot {v v' : Volume} {directory : Path}
    (h : v.rename? (directory ++ [snapshotName])
      (directory ++ [snapshotName ++ importedSuffix]) = some v') :
    SameLog v v' directory := by
  have hsame : ∀ path, path = directory ∨ path = directory ++ [requestLogName] ∨
      path = directory ++ [requestLogName ++ importedSuffix] → SameAt v v' path := by
    intro path hpath
    apply sameAt_rename h
    · rcases hpath with rfl | rfl | rfl <;> simp [requestLogName, snapshotName, importedSuffix]
    · rcases hpath with rfl | rfl | rfl <;> simp [requestLogName, snapshotName, importedSuffix]
  exact sameLog_of (fun path hpath => (hsame path hpath).node) (hsame _ (.inr (.inl rfl))).read?

end Volume

namespace Ledger

theorem log_adoptStart (l : Ledger) (time : Timestamp) : (l.adoptStart time).2.log = l.log := by
  unfold adoptStart
  split
  · rfl
  · rfl

theorem total_adoptStart (l : Ledger) (time : Timestamp) :
    (l.adoptStart time).2.total = l.total := by
  unfold adoptStart
  split
  · rfl
  · rfl

end Ledger

/-! ## One run -/

namespace Importing

/-- The second state holds the same visits, and its volume the same log. -/
structure SameLog (i j : Importing) (directory : Path) : Prop where
  log : j.store.tables.log = i.store.tables.log
  total : j.store.tables.total = i.store.tables.total
  volume : i.volume.SameLog j.volume directory

theorem SameLog.refl (i : Importing) (directory : Path) : SameLog i i directory :=
  ⟨rfl, rfl, Volume.SameLog.refl _ _⟩

theorem SameLog.trans {i j k : Importing} {directory : Path} (h : SameLog i j directory)
    (h' : SameLog j k directory) : SameLog i k directory :=
  ⟨h'.log.trans h.log, h'.total.trans h.total, h.volume.trans h'.volume⟩

theorem retire_eq_of_some {i : Importing} {directory : Path} {name : String} {volume : Volume}
    (h : i.volume.rename? (directory ++ [name]) (directory ++ [name ++ importedSuffix]) =
      some volume) :
    i.retire directory name =
      { i with volume, report :=
        { i.report with files := i.report.files ++ [name ++ importedSuffix] } } := by
  unfold retire
  simp only [h]

theorem retire_of_some {i : Importing} {directory : Path} {name : String} {volume : Volume}
    (h : i.volume.rename? (directory ++ [name]) (directory ++ [name ++ importedSuffix]) =
      some volume) :
    (i.retire directory name).store = i.store ∧ (i.retire directory name).volume = volume := by
  rw [retire_eq_of_some h]
  exact ⟨rfl, rfl⟩

theorem retire_of_none {i : Importing} {directory : Path} {name : String}
    (h : i.volume.rename? (directory ++ [name]) (directory ++ [name ++ importedSuffix]) = none) :
    i.retire directory name = i := by
  unfold retire
  simp only [h]

theorem sameLog_retire_snapshot (i : Importing) (directory : Path) :
    SameLog i (i.retire directory snapshotName) directory := by
  cases hrename : i.volume.rename? (directory ++ [snapshotName])
      (directory ++ [snapshotName ++ importedSuffix]) with
  | none =>
      rw [retire_of_none hrename]
      exact SameLog.refl i directory
  | some volume =>
      obtain ⟨hstore, hvolume⟩ := retire_of_some hrename
      refine ⟨by rw [hstore], by rw [hstore], ?_⟩
      rw [hvolume]
      exact Volume.sameLog_rename_snapshot hrename

theorem sameLog_snapshot (i : Importing) (directory : Path) :
    SameLog i (i.snapshot directory).2 directory := by
  unfold snapshot
  split
  · exact SameLog.refl i directory
  · next p _ =>
      simp only
      refine SameLog.trans ?_ (sameLog_retire_snapshot _ directory)
      rcases i.store.adoptStart_cases i.volume p.startTime with ⟨-, hadopt⟩ | ⟨-, hadopt⟩
      · rw [hadopt]
        exact ⟨rfl, rfl, Volume.SameLog.refl _ _⟩
      · rw [hadopt]
        have hcommit :=
          i.store.tables_commit i.volume (i.store.tables.adoptStart p.startTime).2
        exact ⟨(congrArg Ledger.log hcommit).trans (Ledger.log_adoptStart _ _),
          (congrArg Ledger.total hcommit).trans (Ledger.total_adoptStart _ _),
          Volume.sameLog_commit _ _ _ _⟩

theorem sameLog_foldl_passing (i : Importing) (ls : List Bytes) (directory : Path) :
    i.volume.SameLog (ls.foldl passing i).volume directory := by
  let Keeps (j : Importing) : Prop := i.volume.SameLog j.volume directory
  have hrecorded : ∀ j v, Keeps j → Keeps (j.recorded v) :=
    fun j v hj => hj.trans (Volume.sameLog_commit _ _ _ _)
  exact foldl_passing_induct hrecorded (fun j hj => hj) (Volume.SameLog.refl _ _) ls

theorem requestLog_eq (i : Importing) (directory : Path) (patience : Patience) {ls : List Bytes}
    (h : i.volume.logLines? directory = some ls) :
    i.requestLog directory patience =
      match ending? patience ls with
      | some e => (.error e, (passed patience ls).foldl passing i)
      | none =>
          (.ok (), ((passed patience ls).foldl passing i).retire directory requestLogName) := by
  have hlines := (Volume.logLines?_eq_some_iff.1 h).2
  unfold requestLog
  simp only [hlines, lines_eq]
  cases ending? patience ls with
  | none => rfl
  | some e => rfl

end Importing

/-- A reading comes to the end of the log, which then gets its new name. -/
def finishes (releases : Bool) (patience : Patience) (ls : List Bytes) : Bool :=
  releases && (Importing.ending? patience ls).isNone

namespace DurableStore

variable (d : DurableStore) (vol : Volume) (directory : Path) (patience : Patience)

theorem takeOver_eq_of_no_log (h : vol.logLines? directory = none) :
    (d.takeOver vol directory patience).2 =
      let start : Importing := ⟨d, vol, .empty⟩
      let done := if vol.isFile (directory ++ [snapshotName]) then
        (start.snapshot directory).2 else start
      (done.store, done.volume) := by
  have hfile := Volume.logLines?_eq_none_iff.1 h
  unfold takeOver
  simp only [hfile, Bool.false_eq_true, if_false]
  split
  · rfl
  · rfl

/-- Without a log a run records nothing and leaves no log behind. -/
theorem takeOver_of_no_log (h : vol.logLines? directory = none) :
    (d.takeOver vol directory patience).2.1.tables.total = d.tables.total ∧
      (d.takeOver vol directory patience).2.2.logLines? directory = none := by
  rw [takeOver_eq_of_no_log d vol directory patience h]
  simp only
  split
  · have hsame := Importing.sameLog_snapshot ⟨d, vol, .empty⟩ directory
    exact ⟨hsame.total, hsame.volume.lines.trans h⟩
  · exact ⟨rfl, h⟩

/-- A run on a log reads it, and goes on to the snapshot if it came to the end. -/
theorem takeOver_eq {ls : List Bytes} (h : vol.logLines? directory = some ls) {read : Importing}
    (hread : read = (Importing.passed patience ls).foldl Importing.passing ⟨d, vol, .empty⟩) :
    (d.takeOver vol directory patience).2 =
      match Importing.ending? patience ls with
      | some _ => (read.store, read.volume)
      | none =>
          let renamed := read.retire directory requestLogName
          let done := if vol.isFile (directory ++ [snapshotName]) then
            (renamed.snapshot directory).2 else renamed
          (done.store, done.volume) := by
  have hfile := (Volume.logLines?_eq_some_iff.1 h).1
  have hlog := Importing.requestLog_eq ⟨d, vol, .empty⟩ directory patience h
  unfold takeOver
  simp only [hfile, if_true]
  rw [hlog, ← hread]
  cases Importing.ending? patience ls with
  | some e => rfl
  | none =>
      simp only
      split
      · rfl
      · rfl

theorem takeOver_of_log {ls : List Bytes} (h : vol.logLines? directory = some ls) :
    (d.takeOver vol directory patience).2.1.tables.total =
        d.tables.total + (Importing.entries patience ls).length ∧
      if finishes (vol.releasesLog directory) patience ls then
        (d.takeOver vol directory patience).2.2.logLines? directory = none
      else
        vol.SameLog (d.takeOver vol directory patience).2.2 directory := by
  obtain ⟨read, hread⟩ : ∃ read : Importing,
      read = (Importing.passed patience ls).foldl Importing.passing ⟨d, vol, .empty⟩ := ⟨_, rfl⟩
  have htotal : read.store.tables.total =
      d.tables.total + (Importing.entries patience ls).length := by
    rw [hread, Importing.tables_foldl_passing, Ledger.total_recordedAll]
    rfl
  have hsame : vol.SameLog read.volume directory := by
    rw [hread]
    exact Importing.sameLog_foldl_passing ⟨d, vol, .empty⟩ _ directory
  rw [takeOver_eq d vol directory patience h hread]
  unfold finishes
  cases hending : Importing.ending? patience ls with
  | some e =>
      rw [Option.isNone_some, Bool.and_false, if_neg Bool.false_ne_true]
      exact ⟨htotal, hsame⟩
  | none =>
      rw [Option.isNone_none, Bool.and_true]
      simp only
      -- The snapshot leaves alone what the log has come to.
      have hrest : (read.retire directory requestLogName).SameLog
          (if vol.isFile (directory ++ [snapshotName]) = true then
            ((read.retire directory requestLogName).snapshot directory).2
          else read.retire directory requestLogName) directory := by
        split
        · exact Importing.sameLog_snapshot _ directory
        · exact Importing.SameLog.refl _ directory
      have hreleases : vol.releasesLog directory = read.volume.releasesLog directory :=
        hsame.releases.symm
      cases hrename : read.volume.rename? (directory ++ [requestLogName])
          (directory ++ [requestLogName ++ importedSuffix]) with
      | none =>
          rw [hreleases, Volume.releasesLog, hrename, Option.isSome_none, if_neg Bool.false_ne_true]
          rw [Importing.retire_of_none hrename] at hrest ⊢
          exact ⟨hrest.total.trans htotal, hsame.trans hrest.volume⟩
      | some volume =>
          obtain ⟨hstore, hvolume⟩ := Importing.retire_of_some hrename
          rw [hreleases, Volume.releasesLog, hrename, Option.isSome_some, if_pos rfl]
          have hgone := Volume.logLines?_renamed hrename
          rw [← hvolume] at hgone
          rw [← hstore] at htotal
          exact ⟨hrest.total.trans htotal, hrest.volume.lines.trans hgone⟩

end DurableStore

/-! ## Many runs -/

/-- A reading from the state records the line of a number: the total is higher behind that line. -/
def Importing.records (i : Importing) (patience : Patience) : List Bytes → Nat → Bool
  | [], _ => false
  | bytes :: rest, n =>
      match i.line patience bytes with
      | .error _ => false
      | .ok j =>
          match n with
          | 0 => decide (i.store.tables.total < j.store.tables.total)
          | n + 1 => j.records patience.next rest n

/-- The callers whose runs find the log: all up to the first that finishes with it. -/
def findersOf (releases : Bool) (ls : List Bytes) : List Patience → List Patience
  | [] => []
  | patience :: rest =>
      if finishes releases patience ls then [patience]
      else patience :: findersOf releases ls rest

def Volume.logLines (v : Volume) (directory : Path) : List Bytes :=
  (v.logLines? directory).getD []

/-- Of the callers of some runs over a directory those whose runs find the log. -/
def Volume.finders (v : Volume) (directory : Path) (ps : List Patience) : List Patience :=
  findersOf (v.releasesLog directory) (v.logLines directory) ps

namespace DurableStore

def takeOvers (d : DurableStore) (vol : Volume) (directory : Path) :
    List Patience → DurableStore × Volume
  | [] => (d, vol)
  | patience :: rest =>
      let (d, vol) := (d.takeOver vol directory patience).2
      d.takeOvers vol directory rest

def recordings (d : DurableStore) (vol : Volume) (directory : Path) : List Patience → Nat → Nat
  | [], _ => 0
  | patience :: rest, n =>
      let now := (vol.logLines? directory).any fun ls =>
        Importing.records ⟨d, vol, .empty⟩ patience ls n
      let (d, vol) := (d.takeOver vol directory patience).2
      now.toNat + d.recordings vol directory rest n

end DurableStore

namespace Importing

theorem total_passing (i : Importing) (bytes : Bytes) :
    (i.passing bytes).store.tables.total =
      i.store.tables.total + (recordable? bytes).isSome.toNat := by
  rw [tables_passing, Ledger.total_recordedAll]
  cases recordable? bytes with
  | none => rfl
  | some v => rfl

theorem records_eq (i : Importing) (patience : Patience) (ls : List Bytes) (n : Nat) :
    i.records patience ls n = ((passed patience ls)[n]?.bind recordable?).isSome := by
  induction ls generalizing i patience n with
  | nil => rfl
  | cons bytes rest ih =>
      simp only [records, line_eq, passed]
      cases hstop : stop? patience bytes with
      | some e => rfl
      | none =>
          cases n with
          | zero =>
              simp only [total_passing]
              cases hentry : recordable? bytes with
              | none => simp [hentry]
              | some v => simp [hentry]
          | succ n => exact ih (i.passing bytes) patience.next n

/-- All readings that record anything record the first line that has an entry. -/
theorem records_first {patience : Patience} {ls : List Bytes} (h : entries patience ls ≠ []) :
    ((passed patience ls)[ls.findIdx fun bytes => (recordable? bytes).isSome]?.bind
      recordable?).isSome := by
  obtain ⟨rest, hrest⟩ := passed_prefix patience ls
  have hany : ∃ bytes ∈ passed patience ls, (recordable? bytes).isSome = true := by
    obtain ⟨v, hv⟩ := List.exists_mem_of_ne_nil _ h
    obtain ⟨bytes, hbytes, hentry⟩ := List.mem_filterMap.1 hv
    exact ⟨bytes, hbytes, by rw [hentry]; rfl⟩
  have hlt := List.findIdx_lt_length_of_exists hany
  have hindex : (ls.findIdx fun bytes => (recordable? bytes).isSome) =
      (passed patience ls).findIdx fun bytes => (recordable? bytes).isSome := by
    conv_lhs => rw [← hrest, List.findIdx_append, if_pos hlt]
  have hfirst := @List.findIdx_getElem _ _ _ hlt
  rw [hindex, List.getElem?_eq_getElem hlt]
  exact hfirst

end Importing

namespace DurableStore

theorem takeOvers_of_no_log (d : DurableStore) {vol : Volume} {directory : Path}
    (h : vol.logLines? directory = none) (ps : List Patience) (n : Nat) :
    (d.takeOvers vol directory ps).1.tables.total = d.tables.total ∧
      d.recordings vol directory ps n = 0 := by
  induction ps generalizing d vol with
  | nil => exact ⟨rfl, rfl⟩
  | cons patience rest ih =>
      obtain ⟨htotal, hnone⟩ := takeOver_of_no_log d vol directory patience h
      obtain ⟨hrest, hcount⟩ := ih (d.takeOver vol directory patience).2.1 hnone
      simp only [takeOvers, recordings, h]
      exact ⟨hrest.trans htotal, by simpa using hcount⟩

/-- A line is recorded by each finder whose reading passes it, if it has an entry. -/
theorem takeOvers_of_log (d : DurableStore) {vol : Volume} {directory : Path} {ls : List Bytes}
    (h : vol.logLines? directory = some ls) (ps : List Patience) (n : Nat) :
    (d.takeOvers vol directory ps).1.tables.total = d.tables.total +
        ((findersOf (vol.releasesLog directory) ls ps).map fun p =>
          (Importing.entries p ls).length).sum ∧
      d.recordings vol directory ps n =
        (findersOf (vol.releasesLog directory) ls ps).countP fun p =>
          ((Importing.passed p ls)[n]?.bind Importing.recordable?).isSome := by
  induction ps generalizing d vol with
  | nil => exact ⟨rfl, rfl⟩
  | cons patience rest ih =>
      obtain ⟨htotal, hlog⟩ := takeOver_of_log d vol directory patience h
      simp only [takeOvers, recordings, findersOf, h, Option.any_some, Importing.records_eq]
      by_cases hfinishes : finishes (vol.releasesLog directory) patience ls = true
      · rw [if_pos hfinishes] at hlog ⊢
        obtain ⟨hrest, hcount⟩ :=
          takeOvers_of_no_log (d.takeOver vol directory patience).2.1 hlog rest n
        rw [hrest, hcount, htotal, List.countP_singleton, List.map_singleton, List.sum_singleton]
        exact ⟨rfl, by cases (Option.isSome _) <;> rfl⟩
      · rw [if_neg hfinishes] at hlog ⊢
        obtain ⟨hrest, hcount⟩ := ih (d.takeOver vol directory patience).2.1 (hlog.lines.trans h)
        rw [hlog.releases] at hrest hcount
        rw [hrest, hcount, htotal, List.countP_cons, List.map_cons, List.sum_cons, Nat.add_assoc,
          Nat.add_comm (Bool.toNat _)]
        exact ⟨rfl, by cases (Option.isSome _) <;> rfl⟩

/-- No line is recorded twice just if no two readings record anything at all. -/
theorem countP_records_le_one_iff (ls : List Bytes) (found : List Patience) :
    (∀ n : Nat, found.countP (fun p =>
        ((Importing.passed p ls)[n]?.bind Importing.recordable?).isSome) ≤ 1) ↔
      found.countP (fun p => !(Importing.entries p ls).isEmpty) ≤ 1 := by
  constructor
  · intro h
    refine Nat.le_trans (List.countP_mono_left ?_)
      (h (ls.findIdx fun bytes => (Importing.recordable? bytes).isSome))
    intro p _ hp
    exact Importing.records_first (by simpa using hp)
  · intro h n
    refine Nat.le_trans (List.countP_mono_left ?_) h
    intro p _ hp
    cases hline : (Importing.passed p ls)[n]? with
    | none =>
        rw [hline] at hp
        cases hp
    | some bytes =>
        rw [hline, Option.bind_some] at hp
        obtain ⟨v, hv⟩ := Option.isSome_iff_exists.1 hp
        have hmem : v ∈ Importing.entries p ls :=
          List.mem_filterMap.2 ⟨bytes, List.mem_of_getElem? hline, hv⟩
        simpa using List.ne_nil_of_mem hmem

/-- The log is recorded once at most just if no second run that finds it records anything. -/
theorem forall_recordings_le_one (d : DurableStore) (vol : Volume) (directory : Path)
    (ps : List Patience) :
    (∀ n, d.recordings vol directory ps n ≤ 1) ↔
      (vol.finders directory ps).countP (fun p =>
        !(Importing.entries p (vol.logLines directory)).isEmpty) ≤ 1 := by
  unfold Volume.finders Volume.logLines
  cases hlog : vol.logLines? directory with
  | none =>
      have hnothing : ∀ p, Importing.entries p [] = [] := fun _ => rfl
      have hcount : ∀ n, d.recordings vol directory ps n = 0 :=
        fun n => (takeOvers_of_no_log d hlog ps n).2
      simp [hnothing, hcount]
  | some ls =>
      have hcount : ∀ n, d.recordings vol directory ps n =
          (findersOf (vol.releasesLog directory) ls ps).countP fun p =>
            ((Importing.passed p ls)[n]?.bind Importing.recordable?).isSome :=
        fun n => (takeOvers_of_log d hlog ps n).2
      simp only [hcount]
      exact countP_records_le_one_iff ls _

/--
What many runs over one directory record: each run that finds the log records all that it passes.
So every line is recorded once at most just if no second run that finds the log records anything.
-/
theorem recordings_le_one_iff (d : DurableStore) (vol : Volume) (directory : Path)
    (ps : List Patience) :
    (d.takeOvers vol directory ps).1.tables.total = d.tables.total +
        ((vol.finders directory ps).map fun p =>
          (Importing.entries p (vol.logLines directory)).length).sum ∧
      ((∀ n, d.recordings vol directory ps n ≤ 1) ↔
        (vol.finders directory ps).countP (fun p =>
          !(Importing.entries p (vol.logLines directory)).isEmpty) ≤ 1) := by
  refine ⟨?_, forall_recordings_le_one d vol directory ps⟩
  unfold Volume.finders Volume.logLines
  cases hlog : vol.logLines? directory with
  | none =>
      have hnothing : ∀ p, Importing.entries p [] = [] := fun _ => rfl
      have htotal := (takeOvers_of_no_log d hlog ps 0).1
      simp [hnothing, htotal]
  | some ls => exact (takeOvers_of_log d hlog ps 0).1

def torn : Volume :=
  { nodes := [(["requests.ndjson"], .file 0)]
    contents := [(0, .bytes
      (Visit.line ⟨"10.0.0.1", "bot", "/old", ⟨1600000000, 0⟩⟩ ++ [0xFF, 0x0A]))]
    nextId := 1 }

/-- Three runs, each of which fails at the second line, record the first line three times. -/
theorem recordings_torn :
    (inMemory ⟨1700000000, 0⟩).recordings torn [] [.waiting, .waiting, .waiting] 0 = 3 ∧
      (torn.logLines []).length = 2 ∧
      ((inMemory ⟨1700000000, 0⟩).takeOvers torn []
        [.waiting, .waiting, .waiting]).1.tables.total = 3 := by
  decide +kernel

end DurableStore

end Tarpit.Traffic
