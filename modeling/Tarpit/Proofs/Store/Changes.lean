import Tarpit.Proofs.Store.Recorded
import Tarpit.Proofs.Volume.Changes

/-!
# What stores do to a volume

Whatever a store does, and whether it fails or not, all that comes of it on the
volume is some changes of files and directories.
-/

namespace Tarpit.Traffic

open Tarpit.Time (Timestamp)

variable {vol vol' : Volume}

/-! ## Memory stores -/

theorem RequestLog.becomes_append (log : RequestLog) (line : Bytes) (vol : Volume) :
    vol.Becomes (log.append line vol) := by
  cases log with
  | file id => exact Volume.becomes_append vol id line
  | full => exact .refl vol

namespace MemoryStore

variable {m m' : MemoryStore}

theorem becomes_withLog {path : Path} (h : m.withLog path vol = .ok (m', vol')) :
    vol.Becomes vol' := by
  unfold withLog at h
  split at h
  · next hopened =>
      cases h
      exact Volume.becomes_openFile? hopened
  · cases h

theorem becomes_record {patience : Patience} {v : Visit}
    (h : m.record vol patience v = .ok (m', vol')) : vol.Becomes vol' := by
  rw [record_eq_of_patience, record_eq] at h
  split at h
  · cases h
    cases m.log? with
    | none => exact .refl vol
    | some log => exact log.becomes_append v.line vol
  · cases h

theorem becomes_save (m : MemoryStore) (vol : Volume) : vol.Becomes (m.save vol).2 := by
  unfold save
  split
  · exact .refl vol
  · split
    · exact .refl vol
    · next hwrite =>
        have hdrafted := Volume.becomes_write? hwrite
        split
        · next hrename => exact hdrafted.trans (Volume.becomes_rename? hrename)
        · exact hdrafted

end MemoryStore

/-! ## Durable stores -/

namespace DurableStore

variable {d d' : DurableStore}

theorem becomes_openFile {path : Path} {now : Timestamp}
    (h : openFile vol path now = .ok (d, vol')) : vol.Becomes vol' := by
  unfold openFile at h
  split at h
  · cases h
  · next hopened =>
      have hbecomes := Volume.becomes_openFile? hopened
      split at h
      · cases h
        exact hbecomes
      · split at h
        · cases h
          exact hbecomes.trans (Volume.becomes_setContent _ _ _)
        · cases h
      · cases h

theorem becomes_commit (d : DurableStore) (vol : Volume) (tables : Ledger) :
    vol.Becomes (d.commit vol tables).2 := by
  unfold commit
  split
  · split
    · exact Volume.becomes_setContent vol _ _
    · exact .refl vol
  · exact .refl vol

theorem becomes_close (d : DurableStore) (vol : Volume) : vol.Becomes (d.close vol) := by
  unfold close
  split
  · exact Volume.becomes_setContent vol _ _
  · split
    · exact .refl vol
    · exact Volume.becomes_setContent vol _ _
  · exact .refl vol

theorem becomes_record {patience : Patience} {v : Visit}
    (h : d.record vol patience v = .ok (d', vol')) : vol.Becomes vol' := by
  unfold record at h
  cases hrecord : Ledger.record patience v d.tables with
  | error e =>
      rw [hrecord] at h
      cases h
  | ok tables =>
      rw [hrecord] at h
      have hcommit : d.commit vol tables = (d', vol') := Except.ok.inj h
      have hbecomes := d.becomes_commit vol tables
      rwa [hcommit] at hbecomes

theorem becomes_adoptStart (d : DurableStore) (vol : Volume) (time : Timestamp) :
    vol.Becomes (d.adoptStart vol time).2.2 := by
  unfold adoptStart
  split
  · exact d.becomes_commit vol _
  · exact .refl vol

end DurableStore

/-! ## Taking over -/

namespace Importing

variable {i j : Importing} {patience : Patience}

theorem becomes_line {bytes : Bytes} (h : i.line patience bytes = .ok j) :
    i.volume.Becomes j.volume := by
  unfold line at h
  split at h
  · cases h
  · split at h
    · cases h
      exact .refl _
    · split at h
      · cases h
        exact .refl _
      · unfold replay at h
        split at h
        · next hrecord =>
            cases h
            exact DurableStore.becomes_record hrecord
        · cases h
        · cases h
          exact .refl _

theorem becomes_lines (i : Importing) (patience : Patience) (ls : List Bytes) :
    i.volume.Becomes (i.lines patience ls).2.volume := by
  induction ls generalizing i patience with
  | nil => exact .refl _
  | cons bytes rest ih =>
      unfold lines
      split
      · next j hline => exact (becomes_line hline).trans (ih j patience.next)
      · exact .refl _

theorem becomes_retire (i : Importing) (directory : Path) (name : String) :
    i.volume.Becomes (i.retire directory name).volume := by
  unfold retire
  simp only
  split
  · next hrename => exact Volume.becomes_rename? hrename
  · exact .refl _

theorem becomes_requestLog (i : Importing) (directory : Path) (patience : Patience) :
    i.volume.Becomes (i.requestLog directory patience).2.volume := by
  unfold requestLog
  simp only
  have hlines := i.becomes_lines patience
    (Text.byteLines ((i.volume.read? (directory ++ [requestLogName])).getD []))
  split
  · next j hdone =>
      rw [hdone] at hlines
      exact hlines.trans (j.becomes_retire directory requestLogName)
  · exact hlines

theorem becomes_snapshot (i : Importing) (directory : Path) :
    i.volume.Becomes (i.snapshot directory).2.volume := by
  unfold snapshot
  split
  · exact .refl _
  · next p _ =>
      simp only
      refine Volume.Becomes.trans ?_ (becomes_retire _ directory snapshotName)
      exact i.store.becomes_adoptStart i.volume p.startTime

end Importing

theorem DurableStore.becomes_takeOver (d : DurableStore) (vol : Volume) (directory : Path)
    (patience : Patience) : vol.Becomes (d.takeOver vol directory patience).2.2 := by
  have hsnapshot : ∀ i : Importing, i.volume.Becomes
      (if vol.isFile (directory ++ [snapshotName]) then
        i.snapshot directory else (.ok (), i)).2.volume := by
    intro i
    split
    · exact i.becomes_snapshot directory
    · exact .refl _
  have hlog : vol.Becomes (if vol.isFile (directory ++ [requestLogName]) then
      Importing.requestLog ⟨d, vol, .empty⟩ directory patience
      else (.ok (), ⟨d, vol, .empty⟩)).2.volume := by
    split
    · exact Importing.becomes_requestLog ⟨d, vol, .empty⟩ directory patience
    · exact .refl vol
  unfold takeOver
  simp only
  split
  · next i hdone =>
      rw [hdone] at hlog
      exact hlog.trans (hsnapshot i)
  · exact hlog

/-! ## Stores of either backend -/

namespace Store

theorem becomes_record {s s' : Store} {patience : Patience} {v : Visit}
    (h : s.record vol patience v = .ok (s', vol')) : vol.Becomes vol' := by
  cases s with
  | memory m =>
      cases hrecord : m.record vol patience v with
      | error e =>
          rw [record, hrecord] at h
          cases h
      | ok recorded =>
          rw [record, hrecord] at h
          cases h
          exact MemoryStore.becomes_record hrecord
  | durable d =>
      cases hrecord : d.record vol patience v with
      | error e =>
          rw [record, hrecord] at h
          cases h
      | ok recorded =>
          rw [record, hrecord] at h
          cases h
          exact DurableStore.becomes_record hrecord

theorem becomes_flush (s : Store) (vol : Volume) : vol.Becomes (s.flush vol).2 := by
  cases s with
  | memory m => exact m.becomes_save vol
  | durable d => exact .refl vol

theorem becomes_close (s : Store) (vol : Volume) : vol.Becomes (s.close vol) := by
  cases s with
  | memory m => exact .refl vol
  | durable d => exact d.becomes_close vol

theorem becomes_openMemory {limits : Limits} {directory? : Option Path} {now : Timestamp}
    {m : MemoryStore} (h : openMemory limits directory? now vol = .ok (m, vol')) :
    vol.Becomes vol' := by
  unfold openMemory at h
  split at h
  · cases h
    exact .refl _
  · simp only at h
    split at h
    · cases h
    · next hlog =>
        have hbecomes := MemoryStore.becomes_withLog hlog
        split at h
        · cases h
          exact hbecomes
        · cases h
          exact hbecomes

theorem becomes_openDurable {directory? : Option Path} {now : Timestamp} {d : DurableStore}
    (h : openDurable directory? now vol = .ok (d, vol')) : vol.Becomes vol' := by
  unfold openDurable at h
  split at h
  · cases h
    exact .refl _
  · next directory =>
      split at h
      · cases h
      · next store opened hopened =>
          have htaken := store.becomes_takeOver opened directory .waiting
          rw [Except.ok.inj h] at htaken
          exact (DurableStore.becomes_openFile hopened).trans htaken

theorem becomes_create (backend : Backend) (directory? : Option Path) (limits : Limits)
    (now : Timestamp) (vol : Volume) :
    vol.Becomes (create backend directory? limits now vol).2 := by
  unfold create
  split
  · exact .refl vol
  · next hmade =>
      have hbecomes := Volume.becomes_makeDirectories? hmade
      split
      · split
        · next hopened => exact hbecomes.trans (becomes_openMemory hopened)
        · exact hbecomes
      · split
        · next hopened => exact hbecomes.trans (becomes_openDurable hopened)
        · exact hbecomes

end Store

end Tarpit.Traffic
