import Tarpit.Proofs.Database.Operation
import Tarpit.Proofs.Ledger.Balance

/-!
# A database in balance

Whatever is asked of a database, and whenever its file is closed and opened
again, its tables hold the visits that were recorded with success, and agree.
-/

namespace Tarpit.Traffic

open Tarpit.Time (Timestamp)

namespace Database

/-- The file has tables with the visits, and a store that is open has the same tables. -/
structure Stands (db : Database) (tables : Ledger) (visits : List Visit) : Prop where
  file : ∃ id, db.volume.FileAt db.path id (.ledger tables) ∧
    ∀ d, db.store? = some d → d.file? = some id
  same : ∀ d, db.store? = some d → d.tables = tables
  holds : tables.Holds visits

/-- The database was never opened, or stands with the visits. -/
def Holding (db : Database) (visits : List Visit) : Prop :=
  (db.Fresh ∧ visits = []) ∨ ∃ tables, db.Stands tables visits

theorem Stands.onFile {db : Database} {tables : Ledger} {visits : List Visit}
    (h : db.Stands tables visits) {d : DurableStore} (hd : db.store? = some d) :
    d.OnFile db.volume db.path := by
  obtain ⟨id, hfile, hid⟩ := h.file
  exact ⟨id, hid d hd, by rw [h.same d hd]; exact hfile⟩

/-- A store that is on the file makes the database stand. -/
theorem stands_holding (db : Database) (opened : DurableStore × Volume) {visits : List Visit}
    (hfile : opened.1.OnFile opened.2 db.path) (holds : opened.1.tables.Holds visits) :
    (db.holding opened).Stands opened.1.tables visits := by
  obtain ⟨id, hid, hat⟩ := hfile
  refine ⟨⟨id, hat, ?_⟩, ?_, holds⟩
  · intro d' hd'
    cases hd'
    exact hid
  · intro d' hd'
    cases hd'
    rfl

theorem stands_commit {db : Database} {d : DurableStore} {tables : Ledger} {visits : List Visit}
    (hfile : d.OnFile db.volume db.path) (holds : tables.Holds visits) :
    (db.holding (d.commit db.volume tables)).Stands tables visits := by
  have hcommit := stands_holding db (d.commit db.volume tables) (hfile.commit tables)
    (by rw [DurableStore.tables_commit]; exact holds)
  rw [DurableStore.tables_commit] at hcommit
  exact hcommit

theorem Stands.shut {db : Database} {tables : Ledger} {visits : List Visit}
    (h : db.Stands tables visits) : db.shut.Stands tables visits := by
  refine ⟨?_, fun d hd => (by cases hd), h.holds⟩
  cases hstore : db.store? with
  | none =>
      obtain ⟨id, hfile, _⟩ := h.file
      refine ⟨id, ?_, fun d hd => (by cases hd)⟩
      simp only [Database.shut, hstore, Option.map_none, Option.getD_none]
      exact hfile
  | some d =>
      obtain ⟨id, hfile⟩ := (h.onFile hstore).close
      refine ⟨id, ?_, fun d hd => (by cases hd)⟩
      simp only [Database.shut, hstore, Option.map_some, Option.getD_some]
      rw [← h.same d hstore]
      exact hfile

/-! ## One operation -/

theorem holds_settled {l : Ledger} {visits : List Visit} (h : l.Holds visits)
    (entry : Operation × Reply) :
    (settled l entry).Holds (visits ++ (recordedBy? entry).toList) := by
  rcases settled_cases l entry with ⟨v, hvisit, -, hl⟩ | ⟨time, hvisit, -, hl⟩ | ⟨hvisit, -, hl⟩
  · rw [hvisit, hl]
    exact h.recorded v
  · rw [hvisit, hl, Option.toList_none, List.append_nil]
    exact h.adoptStart time
  · rw [hvisit, hl, Option.toList_none, List.append_nil]
    exact h

/-- A store that is open is asked: a visit is added exactly when the reply says so. -/
theorem Stands.ask {db : Database} {tables : Ledger} {visits : List Visit}
    (h : db.Stands tables visits) {d : DurableStore} (hd : db.store? = some d) (op : Operation) :
    (db.ask d op).2.Stands (settled tables (op, (db.ask d op).1))
      (visits ++ (recordedBy? (op, (db.ask d op).1)).toList) := by
  have holds := holds_settled h.holds (op, (db.ask d op).1)
  have htables := h.same d hd
  rcases ask_cases hd op with ⟨hdb, hsettled⟩ | hdb
  · rw [htables] at hsettled
    rw [hsettled] at holds ⊢
    rw [hdb]
    exact ⟨h.file, h.same, holds⟩
  · rw [htables] at hdb
    rw [hdb]
    exact stands_commit (h.onFile hd) holds

/-- Opening brings the tables that are in the file. -/
theorem Stands.reopen {db : Database} {tables : Ledger} {visits : List Visit}
    (h : db.Stands tables visits) (now : Timestamp) :
    ∃ d, (db.perform (.reopen now)).1 = .opened (.ok ()) ∧
      (db.perform (.reopen now)).2.store? = some d ∧
      (db.perform (.reopen now)).2.Stands tables visits := by
  have hshut := h.shut
  obtain ⟨id, hfile, _⟩ := hshut.file
  have hopen := DurableStore.openFile_of_fileAt hfile now
  refine ⟨⟨tables, some id, .nothing⟩, ?_⟩
  simp only [perform, show db.path = db.shut.path from rfl, hopen]
  exact ⟨trivial, rfl, stands_holding _ _ ⟨_, rfl, hfile⟩ h.holds⟩

theorem Stands.perform {db : Database} {tables : Ledger} {visits : List Visit}
    (h : db.Stands tables visits) (op : Operation) :
    (db.perform op).2.Stands (settled tables (op, (db.perform op).1))
      (visits ++ (recordedBy? (op, (db.perform op).1)).toList) := by
  rcases db.perform_cases op with rfl | ⟨now, rfl⟩ | ⟨-, hperform⟩ | ⟨d, hd, hperform⟩
  · simpa [Database.perform, settled, recordedBy?] using h.shut
  · obtain ⟨d, hreply, -, hstands⟩ := h.reopen now
    rw [hreply]
    simpa [settled, recordedBy?] using hstands
  · rw [hperform]
    simpa using h
  · rw [hperform]
    exact h.ask hd op

theorem Fresh.shut {db : Database} (h : db.Fresh) : db.shut = db := by
  obtain ⟨path, volume, store?⟩ := db
  obtain rfl : store? = none := h.closed
  rfl

/-- Opening succeeds, on the file as on nothing, and brings the tables that are there. -/
theorem Holding.reopen {db : Database} {visits : List Visit} (h : db.Holding visits)
    (now : Timestamp) : ∃ d, (db.perform (.reopen now)).1 = .opened (.ok ()) ∧
      (db.perform (.reopen now)).2.store? = some d ∧
      (db.perform (.reopen now)).2.Stands d.tables visits := by
  rcases h with ⟨hfresh, rfl⟩ | ⟨tables, hstands⟩
  · obtain ⟨vol, hopen, hcreated⟩ :=
      DurableStore.openFile_of_absent hfresh.sound hfresh.absent hfresh.parent now
    refine ⟨⟨.empty now, some db.volume.nextId, .whole⟩, ?_⟩
    simp only [perform, hfresh.shut, hopen]
    exact ⟨trivial, rfl, stands_holding _ _ ⟨_, rfl, hcreated.file⟩ (Ledger.holds_empty now)⟩
  · obtain ⟨d, hreply, hstore, hopened⟩ := hstands.reopen now
    exact ⟨d, hreply, hstore, hopened.same d hstore ▸ hopened⟩

theorem Holding.perform {db : Database} {visits : List Visit} (h : db.Holding visits)
    (op : Operation) : (db.perform op).2.Holding
      (visits ++ (recordedBy? (op, (db.perform op).1)).toList) := by
  rcases h with ⟨hfresh, rfl⟩ | ⟨tables, hstands⟩
  · rcases db.perform_cases op with rfl | ⟨now, rfl⟩ | ⟨-, hperform⟩ | ⟨d, hd, -⟩
    · refine Or.inl ⟨?_, rfl⟩
      show db.shut.Fresh
      rw [hfresh.shut]
      exact hfresh
    · obtain ⟨d, hreply, -, hopened⟩ := Holding.reopen (Or.inl ⟨hfresh, rfl⟩) now
      rw [hreply]
      exact Or.inr ⟨d.tables, hopened⟩
    · rw [hperform]
      exact Or.inl ⟨hfresh, by simp⟩
    · rw [hfresh.closed] at hd
      cases hd
  · exact Or.inr ⟨_, hstands.perform op⟩

/-! ## Runs -/

/-- The replies to a run tell what it made of the tables. -/
theorem Stands.run {db : Database} {tables : Ledger} {visits : List Visit}
    (h : db.Stands tables visits) (ops : List Operation) :
    (db.run ops).2.Stands ((db.run ops).1.foldl settled tables)
      (visits ++ recordedIn (db.run ops).1) := by
  induction ops generalizing db tables visits with
  | nil => simpa [Database.run, recordedIn] using h
  | cons op rest ih =>
      rw [run_cons, recordedIn_cons, ← List.append_assoc]
      exact ih (h.perform op)

theorem Holding.run {db : Database} {visits : List Visit} (h : db.Holding visits)
    (ops : List Operation) : (db.run ops).2.Holding (visits ++ recordedIn (db.run ops).1) := by
  induction ops generalizing db visits with
  | nil => simpa [Database.run, recordedIn] using h
  | cons op rest ih =>
      rw [run_cons, recordedIn_cons, ← List.append_assoc]
      exact ih (h.perform op)

theorem tables?_of_fileAt {db : Database} {id : Nat} {tables : Ledger}
    (h : db.volume.FileAt db.path id (.ledger tables)) : db.tables? = some tables := by
  simp [tables?, Volume.content?, h.node, h.held]

/--
After every run on a new file the tables in the file hold the visits that were recorded with
success and balance, a store that is open has these tables, and the file can be opened again.
-/
theorem balanced_run {db : Database} (hfresh : db.Fresh) (ops : List Operation) :
    (∀ tables, (db.run ops).2.tables? = some tables →
      tables.Balanced (recordedIn (db.run ops).1)) ∧
    (∀ d, (db.run ops).2.store? = some d → (db.run ops).2.tables? = some d.tables) ∧
    ((db.run ops).2.tables? = none → recordedIn (db.run ops).1 = []) ∧
    ∀ now, ((db.run ops).2.perform (.reopen now)).1 = .opened (.ok ()) := by
  have hrun : (db.run ops).2.Holding (recordedIn (db.run ops).1) := by
    simpa using Holding.run (Or.inl ⟨hfresh, rfl⟩) ops
  have hreopen : ∀ now, ((db.run ops).2.perform (.reopen now)).1 = .opened (.ok ()) := by
    intro now
    obtain ⟨d, hreply, _⟩ := hrun.reopen now
    exact hreply
  rcases hrun with ⟨hunborn, hnothing⟩ | ⟨tables, hstands⟩
  · have hnone : (db.run ops).2.tables? = none := by
      simp [tables?, Volume.content?, hunborn.absent]
    refine ⟨?_, ?_, fun _ => hnothing, hreopen⟩
    · intro tables htables
      rw [hnone] at htables
      cases htables
    · intro d hd
      rw [hunborn.closed] at hd
      cases hd
  · obtain ⟨id, hfile, _⟩ := hstands.file
    have htables := tables?_of_fileAt hfile
    refine ⟨?_, ?_, ?_, hreopen⟩
    · intro tables' htables'
      rw [htables] at htables'
      cases htables'
      exact hstands.holds.balanced
    · intro d hd
      rw [htables, hstands.same d hd]
    · intro hnone
      rw [htables] at hnone
      cases hnone

def inRoot : Database :=
  ⟨["visits.db"], .empty, none⟩

theorem fresh_inRoot : inRoot.Fresh :=
  ⟨rfl, Volume.sound_empty, rfl, by decide⟩

/-- A key that is longer than its column. -/
def longKeyVisit : Visit :=
  ⟨String.ofList (List.replicate 50 'k'), "agent", "/a", ⟨0, 0⟩⟩

/-- A run with a visit that is cut, one that is refused, one given up, and one after a reopening. -/
def mixedRun : List Operation :=
  [.reopen ⟨10, 0⟩, .record .waiting longKeyVisit, .record .waiting ⟨"10.0.0.1", "", "/", ⟨1, 0⟩⟩,
    .record (.leaving 0 3) ⟨"10.0.0.1", "agent", "/", ⟨2, 0⟩⟩, .adoptStart ⟨5, 0⟩,
    .summary .waiting, .close, .record .waiting longKeyVisit, .reopen ⟨20, 0⟩,
    .record .waiting ⟨"10.0.0.1", "agent", "/b", ⟨3, 0⟩⟩]

theorem balanced_mixedRun :
    inRoot.Fresh ∧
    recordedIn (inRoot.run mixedRun).1 =
      [longKeyVisit, ⟨"10.0.0.1", "agent", "/b", ⟨3, 0⟩⟩] ∧
    (inRoot.run mixedRun).2.tables?.map Ledger.total = some 2 ∧
    ∀ tables, (inRoot.run mixedRun).2.tables? = some tables →
      tables.Balanced (recordedIn (inRoot.run mixedRun).1) := by
  refine ⟨fresh_inRoot, ?_, ?_, (balanced_run fresh_inRoot mixedRun).1⟩
  · decide +kernel
  · decide +kernel

end Database

end Tarpit.Traffic
