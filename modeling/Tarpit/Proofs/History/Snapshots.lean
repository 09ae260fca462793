import Tarpit.Proofs.History.Carried
import Tarpit.Proofs.Snapshot.Restored

/-!
# Snapshots of a directory

A memory store that is flushed leaves a snapshot of its statistics in the
directory, and the next memory store starts with what that shows.
-/

namespace Tarpit.Traffic

open Tarpit.Time (Timestamp)

/-- The snapshot file holds the bytes, and it is not the log by another name. -/
def SnapshotAt (v : Volume) (directory : Path) (data : Bytes) : Prop :=
  ∃ id, v.FileAt (directory ++ [snapshotName]) id (.bytes data) ∧
    v.node? (directory ++ [requestLogName]) ≠ some (.file id)

/-- The snapshot of the directory shows the visits; without any there may be none. -/
def KeptAt (v : Volume) (directory : Path) (limits : Limits) (kept : List Visit) : Prop :=
  (v.node? (directory ++ [snapshotName]) = none ∧ kept = []) ∨
    ∃ s : MemoryStats, SnapshotAt v directory s.toSnapshot.encode ∧ s.Shows limits kept ∧
      s.Proper limits ∧ s.toSnapshot.Writable ∧ kept.length < Number.wordBound

namespace KeptAt

variable {v v' : Volume} {directory : Path} {limits : Limits} {kept : List Visit}

theorem append (h : KeptAt v directory limits kept) {id : Nat}
    (hlog : v.node? (directory ++ [requestLogName]) = some (.file id)) (data : Bytes) :
    KeptAt (v.append id data) directory limits kept := by
  unfold Volume.append
  split
  · rcases h with ⟨hnone, hkept⟩ | ⟨s, ⟨other, hfile, hne⟩, hrest⟩
    · exact .inl ⟨hnone, hkept⟩
    · refine .inr ⟨s, ⟨other, ?_, hne⟩, hrest⟩
      apply hfile.of_sameAt
      apply Volume.sameAt_setContent
      rw [hfile.node]
      rw [hlog] at hne
      exact hne.symm
  · exact h

/-- The log is opened, and made if there is none, without a change of the snapshot. -/
theorem opened (h : KeptAt v directory limits kept) (hready : Ready v directory) {id : Nat}
    (hopen : v.openFile? (directory ++ [requestLogName]) = some (id, v')) :
    KeptAt v' directory limits kept := by
  cases hnode : v.node? (directory ++ [requestLogName]) with
  | some n =>
      cases n with
      | directory => exact absurd hnode (hready.plain requestLogName)
      | file other =>
          rw [Volume.openFile?, hnode] at hopen
          cases hopen
          exact h
  | none =>
      obtain ⟨made, hmade, hcreated⟩ :=
        hready.sound.openFile_new hnode (hready.rooted.hasParent requestLogName)
      rw [hmade] at hopen
      cases hopen
      have hsame := hcreated.same (directory ++ [snapshotName]) (append_name_ne (by decide))
      rcases h with ⟨hnone, hkept⟩ | ⟨s, ⟨other, hfile, -⟩, hrest⟩
      · exact .inl ⟨hsame.node.trans hnone, hkept⟩
      · refine .inr ⟨s, ⟨other, hfile.of_sameAt hsame, ?_⟩, hrest⟩
        rw [hcreated.file.node]
        intro heq
        cases heq
        exact absurd (hready.sound.below _ _ hfile.node) (Nat.lt_irrefl _)

/-- What is read from the snapshot file. -/
theorem loaded (h : KeptAt v directory limits kept) :
    ((v.read? (directory ++ [snapshotName])).bind Snapshot.decode? = none ∧ kept = []) ∨
      ∃ s : MemoryStats,
        (v.read? (directory ++ [snapshotName])).bind Snapshot.decode? = some s.toSnapshot ∧
          s.Shows limits kept ∧ s.Proper limits ∧ s.toSnapshot.Writable ∧
            kept.length < Number.wordBound := by
  rcases h with ⟨hnone, hkept⟩ | ⟨s, ⟨id, hfile, -⟩, hshows, hproper, hwritable, hword⟩
  · left
    rw [Volume.read?, Volume.content?, hnone]
    exact ⟨rfl, hkept⟩
  · right
    refine ⟨s, ?_, hshows, hproper, hwritable, hword⟩
    rw [hfile.read?, Option.bind_some, Snapshot.decode?_encode hwritable]

end KeptAt

/-! ## An open store -/

/-- A memory store is open: it shows some visits, and the snapshot of its directory others. -/
structure Serving (m : MemoryStore) (v : Volume) (directory : Path) (limits : Limits)
    (visits kept : List Visit) : Prop where
  logging : ∃ stored pending, Logging m v directory stored pending
  bounds : m.limits = limits
  startTime : m.stats.startTime.Representable
  proper : m.stats.Proper limits
  shows : m.stats.Shows limits visits
  kept : KeptAt v directory limits kept

namespace Serving

variable {m : MemoryStore} {v : Volume} {directory : Path} {limits : Limits}
  {visits kept : List Visit}

theorem record (h : Serving m v directory limits visits kept) {visit : Visit}
    (hvisit : visit.timestamp.Representable) :
    ∃ m' v', (Store.memory m).act v (.record visit) = (.memory m', v') ∧
      Serving m' v' directory limits (visits ++ [visit]) kept := by
  obtain ⟨stored, pending, hlogging⟩ := h.logging
  obtain ⟨id, hid, hfile⟩ := hlogging.log
  obtain ⟨m', v', hact, hnext⟩ := hlogging.record visit
  refine ⟨m', v', hact, ?_⟩
  rw [Store.act, Store.record, MemoryStore.record_eq, hid] at hact
  cases hact
  refine ⟨⟨_, _, hnext⟩, h.bounds, h.startTime, ?_, ?_, h.kept.append hfile.node _⟩
  · simp only [h.bounds]
    exact h.proper.record hvisit
  · simp only [h.bounds]
    exact h.shows.record visit

/-- After a flush the snapshot shows what the store shows. -/
theorem flush (h : Serving m v directory limits visits kept)
    (hbound : visits.length < Number.wordBound) :
    ∃ v', (Store.memory m).act v .flush = (.memory m, v') ∧
      Serving m v' directory limits visits visits := by
  obtain ⟨stored, pending, hlogging⟩ := h.logging
  obtain ⟨v', hsave, hnext⟩ := hlogging.save
  refine ⟨v', by simp only [Store.act, Store.flush, hsave], ⟨_, _, hnext⟩, h.bounds, h.startTime,
    h.proper, h.shows, .inr ⟨m.stats, ?_, h.shows, h.proper, h.proper.writable h.startTime,
      hbound⟩⟩
  obtain ⟨drafted, replaced, hdrafted, hrename, -, hsame⟩ := hlogging.ready.replaced
    (show snapshotName ≠ draftName by decide) m.stats.toSnapshot.encode
  have hv' : v' = replaced := by
    unfold MemoryStore.save at hsave
    simp only [hlogging.snapshot, draftOf_snapshot, hdrafted, hrename] at hsave
    exact (Prod.mk.inj hsave).2.symm
  rw [hv']
  refine ⟨v.nextId, hlogging.ready.fileAt_replaced hdrafted hrename, ?_⟩
  rw [(hsame requestLogName (by decide) (by decide)).node]
  -- The log has an older number.
  intro hlog
  exact absurd (hlogging.ready.sound.below _ _ hlog) (Nat.lt_irrefl _)

end Serving

/-! ## Acts -/

def Act.isFlush : Act → Bool
  | .record _ => false
  | .flush => true

/-- The visits that are recorded before the last flush. -/
def flushedVisits (acts : List Act) : List Visit :=
  (acts.reverse.dropWhile fun a => !a.isFlush).reverse.filterMap Act.visit?

theorem flushedVisits_flush (acts : List Act) :
    flushedVisits (acts ++ [.flush]) = acts.filterMap Act.visit? := by
  simp [flushedVisits, Act.isFlush, Act.visit?]

theorem flushedVisits_record (acts : List Act) (visit : Visit) :
    flushedVisits (acts ++ [.record visit]) = flushedVisits acts := by
  simp [flushedVisits, Act.isFlush]

theorem length_flushedVisits_le (acts : List Act) :
    (flushedVisits acts).length ≤ (acts.filterMap Act.visit?).length := by
  induction acts using List.reverseRecOn with
  | nil => exact Nat.le_refl _
  | append_singleton rest a ih =>
      rw [List.filterMap_append, List.length_append]
      cases a with
      | record visit =>
          rw [flushedVisits_record]
          exact Nat.le_trans ih (Nat.le_add_right _ _)
      | flush =>
          rw [flushedVisits_flush]
          exact Nat.le_add_right _ _

theorem Store.actAll_append (s : Store) (vol : Volume) (xs ys : List Act) :
    s.actAll vol (xs ++ ys) = (s.actAll vol xs).1.actAll (s.actAll vol xs).2 ys := by
  induction xs generalizing s vol with
  | nil => rfl
  | cons a rest ih => exact ih (s.act vol a).1 (s.act vol a).2

theorem Serving.actAll {m : MemoryStore} {v : Volume} {directory : Path} {limits : Limits}
    {visits : List Visit} (h : Serving m v directory limits visits visits) {acts : List Act}
    (hacts : ∀ visit ∈ acts.filterMap Act.visit?, visit.timestamp.Representable)
    (hbound : (visits ++ acts.filterMap Act.visit?).length < Number.wordBound) :
    ∃ m' v', (Store.memory m).actAll v acts = (.memory m', v') ∧
      Serving m' v' directory limits (visits ++ acts.filterMap Act.visit?)
        (visits ++ flushedVisits acts) := by
  -- The last act decides what was flushed.
  induction acts using List.reverseRecOn with
  | nil => exact ⟨m, v, rfl, by simpa [flushedVisits] using h⟩
  | append_singleton rest a ih =>
      rw [List.filterMap_append] at hacts hbound
      have hrest : (visits ++ rest.filterMap Act.visit?).length < Number.wordBound := by
        simp only [List.length_append] at hbound ⊢
        omega
      obtain ⟨m₁, v₁, hdone, hserving⟩ :=
        ih (fun visit hvisit => hacts visit (List.mem_append_left _ hvisit)) hrest
      have hlast : (Store.memory m).actAll v (rest ++ [a]) = (Store.memory m₁).act v₁ a := by
        rw [Store.actAll_append, hdone]
        rfl
      rw [hlast]
      cases a with
      | record visit =>
          obtain ⟨m', v', hact, hnext⟩ := hserving.record
            (hacts visit (List.mem_append_right _ (by simp [Act.visit?])))
          refine ⟨m', v', hact, ?_⟩
          rw [flushedVisits_record, List.filterMap_append, ← List.append_assoc]
          exact hnext
      | flush =>
          obtain ⟨v', hact, hnext⟩ := hserving.flush hrest
          refine ⟨m₁, v', hact, ?_⟩
          rw [flushedVisits_flush, List.filterMap_append,
            show [Act.flush].filterMap Act.visit? = [] from rfl, List.append_nil]
          exact hnext

/-! ## Opening -/

/-- A memory store that was opened has the statistics of the snapshot if there is one. -/
theorem Store.openMemory_eq_ok {limits : Limits} {directory : Path} {now : Timestamp}
    {v v' : Volume} {m : MemoryStore}
    (h : Store.openMemory limits (some directory) now v = .ok (m, v')) :
    ∃ id, v.openFile? (directory ++ [requestLogName]) = some (id, v') ∧ m.limits = limits ∧
      m.stats = ((v'.read? (directory ++ [snapshotName])).bind Snapshot.decode?).elim
        (.empty limits now) (MemoryStats.restore limits (.empty limits now)) := by
  unfold Store.openMemory MemoryStore.withLog at h
  simp only at h
  cases hopen : v.openFile? (directory ++ [requestLogName]) with
  | none =>
      rw [hopen] at h
      cases h
  | some opened =>
      obtain ⟨id, volume⟩ := opened
      rw [hopen] at h
      unfold MemoryStore.load at h
      simp only at h
      cases hnode : volume.node? (directory ++ [snapshotName]) with
      | none =>
          have hread := Volume.read?_of_not_file (v := volume) (fun _ => by rw [hnode]; simp)
          rw [hnode] at h
          cases h
          exact ⟨id, rfl, rfl, by rw [hread]; rfl⟩
      | some node =>
          cases node with
          | directory =>
              have hread := Volume.read?_of_not_file (v := volume) (fun _ => by rw [hnode]; simp)
              rw [hnode] at h
              cases h
              exact ⟨id, rfl, rfl, by rw [hread]; rfl⟩
          | file other =>
              rw [hnode] at h
              cases hread : (volume.read? (directory ++ [snapshotName])).bind Snapshot.decode? with
              | none =>
                  simp only [hread] at h
                  cases h
                  exact ⟨id, rfl, rfl, by rw [hread]; rfl⟩
              | some p =>
                  simp only [hread] at h
                  cases h
                  exact ⟨id, rfl, rfl, by rw [hread]; rfl⟩

/-- No store is open, and as soon as the directory is made its snapshot shows the visits. -/
def Rested (v : Volume) (directory : Path) (limits : Limits) (kept : List Visit) : Prop :=
  ∃ ready stored pending, v.makeDirectories? directory = some ready ∧
    Carries ready directory stored pending ∧ KeptAt ready directory limits kept

theorem rested_nil {v ready : Volume} {directory : Path} (hsound : v.Sound)
    (hmade : v.makeDirectories? directory = some ready)
    (hempty : ∀ name, v.node? (directory ++ [name]) = none) (limits : Limits) :
    Rested v directory limits [] := by
  obtain ⟨-, stored, pending, -, hcarries⟩ := holds_nil hsound hmade hempty
  obtain ⟨-, -, hsame⟩ := Volume.made_makeDirectories hmade
  exact ⟨ready, stored, pending, hmade, hcarries, .inl ⟨(hsame snapshotName).trans (hempty _), rfl⟩⟩

theorem Serving.rested {m : MemoryStore} {v : Volume} {directory : Path} {limits : Limits}
    {visits kept : List Visit} (h : Serving m v directory limits visits kept) :
    Rested v directory limits kept := by
  obtain ⟨stored, pending, hlogging⟩ := h.logging
  exact ⟨v, stored, pending, hlogging.ready.rooted.makeDirectories?, hlogging.carries, h.kept⟩

namespace Rested

variable {v : Volume} {directory : Path} {limits : Limits} {kept : List Visit}

theorem create (h : Rested v directory limits kept) {now : Timestamp}
    (hnow : now.Representable) :
    ∃ m v', Store.create .memory (some directory) limits now v = (.ok (.memory m), v') ∧
      m.stats.startTime = now ∧ Serving m v' directory limits kept kept := by
  obtain ⟨ready, stored, pending, hmade, hcarries, hbefore⟩ := h
  obtain ⟨m, v', hopen, hlogging⟩ := hcarries.openMemory limits now
  obtain ⟨id, hlog, hlimits, hstats⟩ := Store.openMemory_eq_ok hopen
  have hkept := hbefore.opened hcarries.ready hlog
  obtain ⟨hstart, hproper, hshows⟩ : m.stats.startTime = now ∧ m.stats.Proper limits ∧
      m.stats.Shows limits kept := by
    rcases hkept.loaded with ⟨hnone, rfl⟩ | ⟨s, hsome, hshows, hproper, hwritable, hword⟩
    · rw [hstats, hnone]
      exact ⟨rfl, MemoryStats.proper_empty limits now, MemoryStats.shows_empty limits now⟩
    · rw [hstats, hsome]
      exact ⟨rfl, .restore _ hwritable, hshows.restore hword hproper _⟩
  refine ⟨m, v', ?_, hstart, ⟨stored, pending, hlogging⟩, hlimits, hstart ▸ hnow, hproper, hshows,
    hkept⟩
  simp only [Store.create, Option.getD_some, hmade, hopen]

/-- A lifetime adds to the snapshot what it records before its last flush. -/
theorem run (h : Rested v directory limits kept) {life : Lifetime}
    (hbackend : life.backend = .memory) (hlimits : life.limits = limits)
    (hnow : life.now.Representable)
    (hvisits : ∀ visit ∈ life.visits, visit.timestamp.Representable)
    (hbound : (kept ++ life.visits).length < Number.wordBound) :
    Rested (life.run directory v) directory limits (kept ++ flushedVisits life.acts) := by
  obtain ⟨m, v₁, hcreate, -, hserving⟩ := h.create hnow
  obtain ⟨m', v', hacts, hlast⟩ := hserving.actAll hvisits hbound
  have hrun : life.run directory v = v' := by
    unfold Lifetime.run
    rw [hbackend, hlimits, hcreate]
    simp only [hacts]
    rfl
  rw [hrun]
  exact hlast.rested

theorem runAll (h : Rested v directory limits kept) {lives : List Lifetime}
    (hlives : ∀ life ∈ lives, life.backend = .memory ∧ life.limits = limits ∧
      life.now.Representable ∧ ∀ visit ∈ life.visits, visit.timestamp.Representable)
    (hbound : (kept ++ lives.flatMap Lifetime.visits).length < Number.wordBound) :
    Rested (Traffic.runAll directory v lives) directory limits
      (kept ++ lives.flatMap fun life => flushedVisits life.acts) := by
  induction lives generalizing v kept with
  | nil =>
      rw [List.flatMap_nil, List.append_nil]
      exact h
  | cons life rest ih =>
      obtain ⟨hbackend, hlimits, hnow, hvisits⟩ := hlives life List.mem_cons_self
      have hle := length_flushedVisits_le life.acts
      simp only [List.flatMap_cons, List.length_append] at hbound
      have hfirst := h.run hbackend hlimits hnow hvisits (by simp only [List.length_append]; omega)
      have hrest := ih hfirst (fun other hother => hlives other (List.mem_cons_of_mem life hother))
        (by simp only [List.length_append]; unfold Lifetime.visits at *; omega)
      rw [List.flatMap_cons, ← List.append_assoc]
      exact hrest

end Rested

end Tarpit.Traffic
