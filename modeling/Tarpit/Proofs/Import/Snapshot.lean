import Tarpit.Proofs.Import.Repeated

/-!
# Taking over a snapshot

What a run does behind the log: of the snapshot it adopts an earlier start time,
and the snapshot gets its new name as the log did.  A second time this changes
nothing more.
-/

namespace Tarpit.Traffic

open Tarpit.Time (Timestamp)

/-! ## Files that get a new name -/

namespace Volume

/-- The volume after a file that was taken over got its new name, if it can have it. -/
def retired (v : Volume) (directory : Path) (name : String) : Volume :=
  (v.rename? (directory ++ [name]) (directory ++ [name ++ importedSuffix])).getD v

def snapshot? (v : Volume) (directory : Path) : Option Snapshot :=
  (v.read? (directory ++ [snapshotName])).bind Snapshot.decode?

variable {v v' : Volume} {directory : Path} {name : String}

theorem append_importedSuffix_ne (name : String) : name ++ importedSuffix ≠ name := by
  intro h
  have hlength := congrArg String.length h
  rw [String.length_append] at hlength
  exact absurd hlength (by simp [importedSuffix])

theorem retired_of_some
    (h : v.rename? (directory ++ [name]) (directory ++ [name ++ importedSuffix]) = some v') :
    v.retired directory name = v' ∧ v'.node? (directory ++ [name]) = none := by
  have hne : directory ++ [name] ≠ directory ++ [name ++ importedSuffix] := by
    simpa using (append_importedSuffix_ne name).symm
  exact ⟨by rw [retired, h, Option.getD_some], node?_rename_source h hne⟩

theorem retired_of_none
    (h : v.rename? (directory ++ [name]) (directory ++ [name ++ importedSuffix]) = none) :
    v.retired directory name = v := by
  rw [retired, h, Option.getD_none]

theorem retired_of_not_isFile (h : v.isFile (directory ++ [name]) = false) :
    v.retired directory name = v := by
  apply retired_of_none
  rw [← Option.not_isSome_iff_eq_none, isSome_rename?, h]
  exact Bool.false_ne_true

theorem isFile_of_rename?
    (h : v.rename? (directory ++ [name]) (directory ++ [name ++ importedSuffix]) = some v') :
    v.isFile (directory ++ [name]) = true := by
  obtain ⟨id, hnode, -, -⟩ := rename?_eq_some h
  rw [isFile, hnode]

theorem retired_eq_self_iff :
    v.retired directory name = v ↔
      v.rename? (directory ++ [name]) (directory ++ [name ++ importedSuffix]) = none := by
  refine ⟨fun hself => ?_, retired_of_none⟩
  cases hrename : v.rename? (directory ++ [name]) (directory ++ [name ++ importedSuffix]) with
  | none => rfl
  | some v' =>
      -- The file is still there although it was renamed.
      obtain ⟨hretired, hnone⟩ := retired_of_some hrename
      have hfile := isFile_of_rename? hrename
      rw [← hself, hretired, isFile, hnone] at hfile
      cases hfile

theorem retired_retired (v : Volume) (directory : Path) (name : String) :
    (v.retired directory name).retired directory name = v.retired directory name := by
  cases hrename : v.rename? (directory ++ [name]) (directory ++ [name ++ importedSuffix]) with
  | none => rw [retired_of_none hrename, retired_of_none hrename]
  | some v' =>
      obtain ⟨hretired, hnone⟩ := retired_of_some hrename
      rw [hretired]
      exact retired_of_not_isFile (by rw [isFile, hnone])

theorem snapshot?_of_not_isFile (h : v.isFile (directory ++ [snapshotName]) = false) :
    v.snapshot? directory = none := by
  rw [snapshot?, read?_of_not_file, Option.bind_none]
  intro id hnode
  rw [isFile, hnode] at h
  cases h

theorem sameAt_retired_log (v : Volume) (directory : Path) :
    SameAt v (v.retired directory requestLogName) (directory ++ [snapshotName]) := by
  cases hrename : v.rename? (directory ++ [requestLogName])
      (directory ++ [requestLogName ++ importedSuffix]) with
  | none =>
      rw [retired_of_none hrename]
      exact SameAt.refl _ _
  | some v' =>
      rw [(retired_of_some hrename).1]
      exact sameAt_rename hrename (by simp [requestLogName, snapshotName])
        (by simp [requestLogName, snapshotName, importedSuffix])

theorem isFile_retired_log (v : Volume) (directory : Path) :
    (v.retired directory requestLogName).isFile (directory ++ [snapshotName]) =
      v.isFile (directory ++ [snapshotName]) := by
  rw [isFile, isFile, (sameAt_retired_log v directory).node]

end Volume

/-! ## The snapshot -/

theorem storedBefore_self (time : Timestamp) : storedBefore time time = false :=
  decide_eq_false (List.lt_irrefl time.stored)

namespace DurableStore

/-- A store and its volume after the snapshot in a directory was taken over. -/
def withSnapshot (d : DurableStore) (vol : Volume) (directory : Path) : DurableStore × Volume :=
  match vol.snapshot? directory with
  | none => (d, vol)
  | some p =>
      let (_, d, vol) := d.adoptStart vol p.startTime
      (d, vol.retired directory snapshotName)

variable {d : DurableStore} {vol : Volume} {directory : Path}

theorem withSnapshot_of_none (h : vol.snapshot? directory = none) :
    d.withSnapshot vol directory = (d, vol) := by
  rw [withSnapshot, h]

theorem withSnapshot_of_some {p : Snapshot} (h : vol.snapshot? directory = some p) :
    d.withSnapshot vol directory =
      ((d.adoptStart vol p.startTime).2.1,
        (d.adoptStart vol p.startTime).2.2.retired directory snapshotName) := by
  rw [withSnapshot, h]

theorem read?_adoptStart (d : DurableStore) (vol : Volume) (time : Timestamp) (path : Path) :
    (d.adoptStart vol time).2.2.read? path = vol.read? path := by
  rcases d.adoptStart_cases vol time with ⟨-, hadopt⟩ | ⟨-, hadopt⟩
  · rw [hadopt]
  · rw [hadopt]
    exact Volume.read?_commit d vol _ path

/-- A time that was offered to a store is not before that of the store any more. -/
theorem storedBefore_adoptStart (d : DurableStore) (vol : Volume) (time : Timestamp) :
    storedBefore time (d.adoptStart vol time).2.1.tables.startTime = false := by
  rcases d.adoptStart_cases vol time with ⟨hbefore, hadopt⟩ | ⟨hbefore, hadopt⟩
  · rw [hadopt]
    exact hbefore
  · rw [hadopt, tables_commit, Ledger.adoptStart, if_pos hbefore]
    exact storedBefore_self time

theorem adoptStart_adoptStart (d : DurableStore) (vol vol' : Volume) (time : Timestamp) :
    (d.adoptStart vol time).2.1.adoptStart vol' time =
      (false, (d.adoptStart vol time).2.1, vol') := by
  rcases (d.adoptStart vol time).2.1.adoptStart_cases vol' time with ⟨-, hadopt⟩ | ⟨hbefore, -⟩
  · exact hadopt
  · rw [storedBefore_adoptStart] at hbefore
    cases hbefore

/-- A snapshot that was taken over is gone, or its start time is not adopted again. -/
theorem withSnapshot_withSnapshot (d : DurableStore) (vol : Volume) (directory : Path) :
    (d.withSnapshot vol directory).1.withSnapshot (d.withSnapshot vol directory).2 directory =
      d.withSnapshot vol directory := by
  cases hsnapshot : vol.snapshot? directory with
  | none => rw [withSnapshot_of_none hsnapshot, withSnapshot_of_none hsnapshot]
  | some p =>
      rw [withSnapshot_of_some hsnapshot]
      let vol' := (d.adoptStart vol p.startTime).2.2
      have hkept : vol'.snapshot? directory = some p := by
        rw [Volume.snapshot?, read?_adoptStart]
        exact hsnapshot
      cases hrename : vol'.rename? (directory ++ [snapshotName])
          (directory ++ [snapshotName ++ importedSuffix]) with
      | none =>
          rw [Volume.retired_of_none hrename, withSnapshot_of_some hkept, adoptStart_adoptStart,
            Volume.retired_of_none hrename]
      | some renamed =>
          obtain ⟨hretired, hnone⟩ := Volume.retired_of_some hrename
          rw [hretired, withSnapshot_of_none]
          exact Volume.snapshot?_of_not_isFile (by rw [Volume.isFile, hnone])

/-- A snapshot leaves a store and its volume alone just if it brings neither a time nor a name. -/
theorem withSnapshot_eq_self_iff :
    d.withSnapshot vol directory = (d, vol) ↔
      ∀ p, vol.snapshot? directory = some p →
        storedBefore p.startTime d.tables.startTime = false ∧
          vol.retired directory snapshotName = vol := by
  cases hsnapshot : vol.snapshot? directory with
  | none => simp [withSnapshot_of_none hsnapshot]
  | some p =>
      simp only [Option.some.injEq, forall_eq']
      rw [withSnapshot_of_some hsnapshot]
      rcases d.adoptStart_cases vol p.startTime with ⟨hbefore, hadopt⟩ | ⟨hbefore, hadopt⟩
      · simp [hadopt, hbefore]
      · -- The start time is another one now.
        refine ⟨fun hself => ?_, fun h => absurd h.1 (by simp [hbefore])⟩
        have hafter := d.storedBefore_adoptStart vol p.startTime
        rw [(Prod.mk.inj hself).1, hbefore] at hafter
        cases hafter

end DurableStore

namespace Importing

/-- What outlives a run. -/
def state (i : Importing) : DurableStore × Volume :=
  (i.store, i.volume)

theorem state_retire (i : Importing) (directory : Path) (name : String) :
    (i.retire directory name).state = (i.store, i.volume.retired directory name) := by
  unfold retire Volume.retired
  simp only
  cases i.volume.rename? (directory ++ [name]) (directory ++ [name ++ importedSuffix]) with
  | some v => rfl
  | none => rfl

theorem state_snapshot (i : Importing) (directory : Path) :
    (i.snapshot directory).2.state = i.store.withSnapshot i.volume directory := by
  unfold snapshot DurableStore.withSnapshot Volume.snapshot?
  cases (i.volume.read? (directory ++ [snapshotName])).bind Snapshot.decode? with
  | none => rfl
  | some p => exact state_retire _ directory snapshotName

/-- Where there is no file, there is no snapshot to take over. -/
theorem state_snapshot_of_isFile (i : Importing) (directory : Path) :
    (if i.volume.isFile (directory ++ [snapshotName]) then
        (i.snapshot directory).2 else i).state =
      i.store.withSnapshot i.volume directory := by
  cases hfile : i.volume.isFile (directory ++ [snapshotName]) with
  | true => exact i.state_snapshot directory
  | false =>
      rw [DurableStore.withSnapshot_of_none (Volume.snapshot?_of_not_isFile hfile)]
      rfl

end Importing

theorem DurableStore.sameLog_withSnapshot (d : DurableStore) (vol : Volume) (directory : Path) :
    vol.SameLog (d.withSnapshot vol directory).2 directory := by
  have hsame := (Importing.sameLog_snapshot ⟨d, vol, .empty⟩ directory).volume
  have hstate := Importing.state_snapshot ⟨d, vol, .empty⟩ directory
  rw [← hstate]
  exact hsame

end Tarpit.Traffic
