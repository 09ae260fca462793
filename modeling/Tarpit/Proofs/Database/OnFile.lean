import Tarpit.Proofs.Ledger.Record
import Tarpit.Proofs.Volume.Files
import Tarpit.Traffic.DurableStore

/-!
# Stores and their files

A durable store that keeps its tables in a file: what opening, changing and
closing it does to the file.
-/

namespace Tarpit.Traffic

open Tarpit.Time (Timestamp)

namespace DurableStore

theorem node?_commit (d : DurableStore) (v : Volume) (tables : Ledger) (path : Path) :
    (d.commit v tables).2.node? path = v.node? path := by
  unfold DurableStore.commit
  split
  · simp only
    split
    · rfl
    · rfl
  · rfl

def OnFile (d : DurableStore) (vol : Volume) (path : Path) : Prop :=
  ∃ id, d.file? = some id ∧ vol.FileAt path id (.ledger d.tables)

theorem OnFile.commit {d : DurableStore} {vol : Volume} {path : Path} (h : d.OnFile vol path)
    (tables : Ledger) : (d.commit vol tables).1.OnFile (d.commit vol tables).2 path := by
  obtain ⟨id, hid, hfile⟩ := h
  refine ⟨id, by rw [file?_commit, hid], ?_⟩
  rw [tables_commit]
  simp only [DurableStore.commit, hid, hfile.isDatabase, if_true]
  exact hfile.setContent _

theorem OnFile.close {d : DurableStore} {vol : Volume} {path : Path} (h : d.OnFile vol path) :
    ∃ id, (d.close vol).FileAt path id (.ledger d.tables) := by
  obtain ⟨id, hid, hfile⟩ := h
  refine ⟨id, ?_⟩
  unfold DurableStore.close
  rw [hid]
  cases d.journal with
  | whole => exact hfile.setContent _
  | changes =>
      simp only [hfile.isDatabase, if_true]
      exact hfile
  | nothing => exact hfile

/-- A record is refused as the tables refuse it, or commits the tables with the visit in them. -/
theorem record_eq (d : DurableStore) (vol : Volume) (patience : Patience) (v : Visit) :
    d.record vol patience v =
      match Ledger.refusal? patience v with
      | some e => .error e
      | none => .ok (d.commit vol (Ledger.recorded v d.tables)) := by
  rw [DurableStore.record, Ledger.record_eq]
  cases Ledger.refusal? patience v with
  | some e => rfl
  | none => rfl

/-- A start time is not adopted, and nothing changes, or the tables with it are committed. -/
theorem adoptStart_cases (d : DurableStore) (vol : Volume) (time : Timestamp) :
    (storedBefore time d.tables.startTime = false ∧ d.adoptStart vol time = (false, d, vol)) ∨
    (storedBefore time d.tables.startTime = true ∧
      d.adoptStart vol time = (true, d.commit vol (d.tables.adoptStart time).2)) := by
  unfold DurableStore.adoptStart Ledger.adoptStart
  cases storedBefore time d.tables.startTime with
  | false => exact .inl ⟨rfl, rfl⟩
  | true => exact .inr ⟨rfl, rfl⟩

theorem openFile_of_fileAt {vol : Volume} {path : Path} {id : Nat} {tables : Ledger}
    (h : vol.FileAt path id (.ledger tables)) (now : Timestamp) :
    openFile vol path now = .ok (⟨tables, some id, .nothing⟩, vol) := by
  simp [openFile, h.openFile?, h.held]

/-- Where there was no file, a new database stands after the opening. -/
theorem openFile_of_absent {vol : Volume} (hsound : vol.Sound) {path : Path}
    (hnone : vol.node? path = none) (hparent : vol.hasParent path = true) (now : Timestamp) :
    ∃ vol', openFile vol path now = .ok (⟨.empty now, some vol.nextId, .whole⟩, vol') ∧
      vol.Created path (.ledger (.empty now)) vol' := by
  obtain ⟨made, hmade, hcreated⟩ := hsound.openFile_new hnone hparent
  refine ⟨made.setContent vol.nextId (.ledger (.empty now)), ?_, hcreated.setContent hsound _⟩
  simp [openFile, hmade, hcreated.file.held]

end DurableStore

end Tarpit.Traffic
