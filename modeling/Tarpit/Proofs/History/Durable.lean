import Tarpit.Proofs.History.Lifetime
import Tarpit.Proofs.Import.Repeated

/-!
# Lifetimes of durable stores

A durable store takes the log of its directory into its tables when it opens,
and goes on with the tables.
-/

namespace Tarpit.Traffic

open Tarpit.Time (Timestamp)

/-- A durable store is open on the directory, whose log it has taken over. -/
structure Recording (d : DurableStore) (v : Volume) (directory : Path) (visits : List Visit) :
    Prop where
  ready : Ready v directory
  file : d.OnFile v (directory ++ [databaseName])
  tables : d.tables.Tables visits
  log : v.node? (directory ++ [requestLogName]) = none

theorem Ready.commit {v : Volume} {directory : Path} (h : Ready v directory) (d : DurableStore)
    (tables : Ledger) : Ready (d.commit v tables).2 directory := by
  unfold DurableStore.commit
  split
  · simp only
    split
    · exact h.setContent _ _
    · exact h
  · exact h

/-- Tables that are written leave every file of bytes alone. -/
theorem DurableStore.OnFile.fileAt_commit {d : DurableStore} {v : Volume} {path other : Path}
    (h : d.OnFile v path) {id : Nat} {data : Bytes} (hfile : v.FileAt other id (.bytes data))
    (tables : Ledger) : (d.commit v tables).2.FileAt other id (.bytes data) := by
  obtain ⟨own, hown, hdatabase⟩ := h
  have hne : id ≠ own := by
    rintro rfl
    have hheld := hfile.held
    rw [hdatabase.held] at hheld
    cases hheld
  simp only [DurableStore.commit, hown, hdatabase.isDatabase, if_true]
  exact ⟨hfile.node, (Volume.held?_setContent_of_ne v hne _).trans hfile.held⟩

theorem DurableStore.OnFile.of_sameAt {d : DurableStore} {v v' : Volume} {path : Path}
    (h : d.OnFile v path) (hsame : v.SameAt v' path) : d.OnFile v' path := by
  obtain ⟨id, hid, hfile⟩ := h
  exact ⟨id, hid, hfile.of_sameAt hsame⟩

namespace Recording

variable {d : DurableStore} {v : Volume} {directory : Path} {visits : List Visit}

theorem commit (h : Recording d v directory visits) {tables : Ledger} {others : List Visit}
    (htables : tables.Tables others) :
    Recording (d.commit v tables).1 (d.commit v tables).2 directory others := by
  refine ⟨h.ready.commit d tables, h.file.commit tables, ?_, ?_⟩
  · rw [DurableStore.tables_commit]
    exact htables
  · rw [DurableStore.node?_commit]
    exact h.log

theorem record (h : Recording d v directory visits) {visit : Visit} (hvisit : visit.Recordable) :
    ∃ d' v', (Store.durable d).act v (.record visit) = (.durable d', v') ∧
      Recording d' v' directory (visits ++ [visit]) := by
  have hrefusal : Ledger.refusal? .waiting visit = none :=
    Ledger.refusal?_eq_none_iff.2 ⟨rfl, hvisit.accepts⟩
  refine ⟨_, _, ?_, h.commit (h.tables.recordedAll [visit])⟩
  simp only [Store.act, Store.record, DurableStore.record_eq, hrefusal]
  rfl

theorem actAll (h : Recording d v directory visits) {acts : List Act}
    (hacts : ∀ visit ∈ acts.filterMap Act.visit?, visit.Recordable) :
    ∃ d' v', (Store.durable d).actAll v acts = (.durable d', v') ∧
      Recording d' v' directory (visits ++ acts.filterMap Act.visit?) := by
  induction acts generalizing d v visits with
  | nil => exact ⟨d, v, rfl, by simpa using h⟩
  | cons a rest ih =>
      cases a with
      | flush => exact ih h hacts
      | record visit =>
          have hvisits : (Act.record visit :: rest).filterMap Act.visit? =
              visit :: rest.filterMap Act.visit? := rfl
          rw [hvisits] at hacts ⊢
          obtain ⟨d₁, v₁, hact, hrecording⟩ := h.record (hacts visit List.mem_cons_self)
          obtain ⟨d', v', hrest, hlast⟩ :=
            ih hrecording fun other hother => hacts other (List.mem_cons_of_mem visit hother)
          refine ⟨d', v', ?_, ?_⟩
          · simp only [Store.actAll, hact, hrest]
          · rwa [List.append_assoc, List.singleton_append] at hlast

theorem close (h : Recording d v directory visits) :
    Carries (d.close v) directory visits [] := by
  obtain ⟨id, hfile⟩ := h.file.close
  have hready : Ready (d.close v) directory := by
    unfold DurableStore.close
    split
    · exact h.ready.setContent _ _
    · split
      · exact h.ready
      · exact h.ready.setContent _ _
    · exact h.ready
  have hlog : (d.close v).node? (directory ++ [requestLogName]) = none := by
    unfold DurableStore.close
    split
    · exact h.log
    · split
      · exact h.log
      · exact h.log
    · exact h.log
  exact ⟨hready, .inr ⟨id, d.tables, hfile, h.tables⟩, .inl ⟨hlog, rfl⟩⟩

end Recording

/-! ## Opening -/

namespace Importing

theorem recording_retire_snapshot {i : Importing} {directory : Path} {visits : List Visit}
    (h : Recording i.store i.volume directory visits) :
    Recording (i.retire directory snapshotName).store
      (i.retire directory snapshotName).volume directory visits := by
  cases hrename : i.volume.rename? (directory ++ [snapshotName])
      (directory ++ [snapshotName ++ importedSuffix]) with
  | none =>
      rw [retire_of_none hrename]
      exact h
  | some volume =>
      obtain ⟨hstore, hvolume⟩ := retire_of_some hrename
      rw [hstore, hvolume]
      have hsame : ∀ name, name ≠ snapshotName → name ≠ snapshotName ++ importedSuffix →
          i.volume.SameAt volume (directory ++ [name]) :=
        fun name hname htarget => Volume.sameAt_rename hrename (append_name_ne hname)
          (append_name_ne htarget)
      refine ⟨h.ready.renamed hrename (by decide) (by decide), ?_, h.tables, ?_⟩
      · exact h.file.of_sameAt (hsame databaseName (by decide) (by decide))
      · rw [(hsame requestLogName (by decide) (by decide)).node]
        exact h.log

/-- The snapshot of a directory changes the start time at most. -/
theorem recording_snapshot {i : Importing} {directory : Path} {visits : List Visit}
    (h : Recording i.store i.volume directory visits) :
    Recording (i.snapshot directory).2.store (i.snapshot directory).2.volume directory visits := by
  unfold snapshot
  split
  · exact h
  · next p _ =>
      simp only
      apply recording_retire_snapshot
      rcases i.store.adoptStart_cases i.volume p.startTime with ⟨-, hadopt⟩ | ⟨-, hadopt⟩
      · rw [hadopt]
        exact h
      · rw [hadopt]
        exact h.commit (h.tables.adoptStart p.startTime)

/-- What a reading of the log keeps: the database file, the log, and the rest of the directory. -/
structure Reads (i : Importing) (directory : Path) (pending : List Visit) : Prop where
  ready : Ready i.volume directory
  file : i.store.OnFile i.volume (directory ++ [databaseName])
  log : ∃ id, i.volume.FileAt (directory ++ [requestLogName]) id
    (.bytes (pending.flatMap Visit.line))

theorem Reads.foldl_passing {i : Importing} {directory : Path} {pending : List Visit}
    (h : i.Reads directory pending) (ls : List Bytes) :
    (ls.foldl passing i).Reads directory pending := by
  let Keeps (j : Importing) : Prop := j.Reads directory pending
  have hrecorded : ∀ j v, Keeps j → Keeps (j.recorded v) := by
    intro j v hj
    obtain ⟨id, hfile⟩ := hj.log
    exact ⟨hj.ready.commit _ _, hj.file.commit _, id, hj.file.fileAt_commit hfile _⟩
  exact foldl_passing_induct hrecorded (fun j hj => ⟨hj.ready, hj.file, hj.log⟩) h ls

/-- A log of visits that was read gives its name away. -/
theorem Reads.retire {i : Importing} {directory : Path} {pending visits : List Visit}
    (h : i.Reads directory pending) (htables : i.store.tables.Tables visits) :
    Recording (i.retire directory requestLogName).store
      (i.retire directory requestLogName).volume directory visits := by
  obtain ⟨id, hfile⟩ := h.log
  obtain ⟨volume, hrename⟩ := h.ready.rename? hfile.isFile (requestLogName ++ importedSuffix)
  obtain ⟨hstore, hvolume⟩ := retire_of_some hrename
  rw [hstore, hvolume]
  refine ⟨h.ready.renamed hrename (by decide) (by decide), ?_, htables, ?_⟩
  · exact h.file.of_sameAt (Volume.sameAt_rename hrename (append_name_ne (by decide))
      (append_name_ne (by decide)))
  · exact Volume.node?_rename_source hrename (append_name_ne (by decide))

end Importing

/-- Taking over a directory brings the visits of its log behind those of the tables. -/
theorem recording_takeOver {d : DurableStore} {v : Volume} {directory : Path}
    {stored pending : List Visit} (hready : Ready v directory)
    (hfile : d.OnFile v (directory ++ [databaseName])) (htables : d.tables.Tables stored)
    (hlog : LogAt v directory pending) (hpending : ∀ visit ∈ pending, visit.Recordable) :
    Recording (d.takeOver v directory .waiting).2.1 (d.takeOver v directory .waiting).2.2 directory
      (stored ++ pending) := by
  have hsnapshot : ∀ (i : Importing) (isThere : Bool),
      Recording i.store i.volume directory (stored ++ pending) →
      Recording (if isThere = true then (i.snapshot directory).2 else i).store
        (if isThere = true then (i.snapshot directory).2 else i).volume directory
        (stored ++ pending) := by
    intro i isThere hi
    cases isThere with
    | true => exact Importing.recording_snapshot hi
    | false => exact hi
  rcases hlog with ⟨hnone, rfl⟩ | ⟨id, hbytes⟩
  · have hlines : v.logLines? directory = none := by
      rw [Volume.logLines?, Volume.isFile, hnone]
      rfl
    rw [DurableStore.takeOver_eq_of_no_log d v directory .waiting hlines]
    apply hsnapshot
    rw [List.append_nil]
    exact ⟨hready, hfile, htables, hnone⟩
  · have hlines : v.logLines? directory = some (pending.map Visit.encode) := by
      rw [Volume.logLines?, if_pos hbytes.isFile, hbytes.read?, Option.getD_some,
        Visit.byteLines_log]
    obtain ⟨hpassed, hending⟩ := Importing.passed_log pending
    rw [DurableStore.takeOver_eq d v directory .waiting hlines rfl, hending, hpassed]
    simp only
    apply hsnapshot
    have hreads : Importing.Reads ⟨d, v, .empty⟩ directory pending := ⟨hready, hfile, id, hbytes⟩
    apply (hreads.foldl_passing _).retire
    rw [Importing.tables_foldl_passing, Importing.filterMap_recordable?_log hpending]
    exact htables.recordedAll pending

/-- A durable store opens on every directory that carries visits, and has all of them. -/
theorem Carries.openDurable {v : Volume} {directory : Path} {stored pending : List Visit}
    (h : Carries v directory stored pending) (hpending : ∀ visit ∈ pending, visit.Recordable)
    (now : Timestamp) :
    ∃ d v', Store.openDurable (some directory) now v = .ok (d, v') ∧
      Recording d v' directory (stored ++ pending) := by
  obtain ⟨d, v', hopen, hready, hfile, htables, hlog⟩ : ∃ d v',
      DurableStore.openFile v (directory ++ [databaseName]) now = .ok (d, v') ∧
        Ready v' directory ∧ d.OnFile v' (directory ++ [databaseName]) ∧
        d.tables.Tables stored ∧ LogAt v' directory pending := by
    rcases h.tables with ⟨hnone, rfl⟩ | ⟨id, tables, hfile, htables⟩
    · obtain ⟨v', hopen, hcreated⟩ := DurableStore.openFile_of_absent h.ready.sound hnone
        (h.ready.rooted.hasParent databaseName) now
      exact ⟨_, v', hopen, h.ready.created hcreated (by decide), ⟨_, rfl, hcreated.file⟩,
        Ledger.tables_empty now, h.log.of_sameAt (hcreated.same _ (append_name_ne (by decide)))⟩
    · exact ⟨_, v, DurableStore.openFile_of_fileAt hfile now, h.ready, ⟨id, rfl, hfile⟩, htables,
        h.log⟩
  refine ⟨_, _, ?_, recording_takeOver hready hfile htables hlog hpending⟩
  simp only [Store.openDurable, hopen]

end Tarpit.Traffic
