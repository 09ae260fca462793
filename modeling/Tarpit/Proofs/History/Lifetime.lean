import Tarpit.Proofs.History.Directory
import Tarpit.Proofs.Import.Log

/-!
# Lifetimes

One store after another on a data directory, each opened, used and closed, and
what the directory holds between them: the visits in the tables, and those that
stand in the log only.
-/

namespace Tarpit.Traffic

open Tarpit.Time (Timestamp)

inductive Act where
  | record (v : Visit)
  | flush

/-- One store: how it is opened, and what is asked of it until it is closed. -/
structure Lifetime where
  backend : Backend
  limits : Limits
  now : Timestamp
  acts : List Act

def Act.visit? : Act → Option Visit
  | .record v => some v
  | .flush => none

def Lifetime.visits (life : Lifetime) : List Visit :=
  life.acts.filterMap Act.visit?

/-- The store and the volume after an act; one that fails changes nothing of the store. -/
def Store.act (s : Store) (vol : Volume) : Act → Store × Volume
  | .record v =>
      match s.record vol .waiting v with
      | .ok changed => changed
      | .error _ => (s, vol)
  | .flush => (s, (s.flush vol).2)

def Store.actAll (s : Store) (vol : Volume) : List Act → Store × Volume
  | [] => (s, vol)
  | a :: rest =>
      let (s, vol) := s.act vol a
      s.actAll vol rest

/-- The volume after a lifetime on a data directory. -/
def Lifetime.run (life : Lifetime) (directory : Path) (vol : Volume) : Volume :=
  match Store.create life.backend (some directory) life.limits life.now vol with
  | (.ok s, vol) =>
      let (s, vol) := s.actAll vol life.acts
      s.close vol
  | (.error _, vol) => vol

def runAll (directory : Path) (vol : Volume) : List Lifetime → Volume
  | [] => vol
  | life :: rest => runAll directory (life.run directory vol) rest

/-! ## Tables of visits -/

namespace Ledger

/-- The tables are those that the visits make, whenever it was that they were empty. -/
def Tables (l : Ledger) (visits : List Visit) : Prop :=
  l = recordedAll visits (empty l.startTime)

theorem tables_empty (now : Timestamp) : (empty now).Tables [] := rfl

theorem startTime_recordedAll (visits : List Visit) (l : Ledger) :
    (recordedAll visits l).startTime = l.startTime := by
  induction visits generalizing l with
  | nil => rfl
  | cons v rest ih => exact ih (recorded v l)

theorem recordedAll_startTime (visits : List Visit) (l : Ledger) (time : Timestamp) :
    recordedAll visits { l with startTime := time } =
      { recordedAll visits l with startTime := time } := by
  induction visits generalizing l with
  | nil => rfl
  | cons v rest ih => exact ih (recorded v l)

theorem Tables.recordedAll {l : Ledger} {visits : List Visit} (h : l.Tables visits)
    (more : List Visit) : (Ledger.recordedAll more l).Tables (visits ++ more) := by
  unfold Tables at *
  rw [startTime_recordedAll, recordedAll_append, ← h]

theorem Tables.adoptStart {l : Ledger} {visits : List Visit} (h : l.Tables visits)
    (time : Timestamp) : (l.adoptStart time).2.Tables visits := by
  unfold Ledger.adoptStart
  split
  · have hstart := recordedAll_startTime visits (Ledger.empty l.startTime) time
    rw [← h] at hstart
    exact hstart.symm
  · exact h

theorem foldlM_record {visits : List Visit} (h : ∀ v ∈ visits, v.Recordable) (l : Ledger) :
    visits.foldlM (fun l v => record .waiting v l) l = .ok (Ledger.recordedAll visits l) := by
  induction visits generalizing l with
  | nil => rfl
  | cons v rest ih =>
      have haccepts := (h v List.mem_cons_self).accepts
      have hrecord : record .waiting v l = .ok (recorded v l) :=
        record_eq_ok_iff.2 ⟨⟨rfl, haccepts⟩, rfl⟩
      rw [List.foldlM_cons, hrecord, ok_bind]
      exact ih (fun u hu => h u (List.mem_cons_of_mem v hu)) _

end Ledger

/-! ## Between two lifetimes -/

/-- The database of the directory holds the visits; without any there may be none. -/
def TablesAt (v : Volume) (directory : Path) (visits : List Visit) : Prop :=
  (v.node? (directory ++ [databaseName]) = none ∧ visits = []) ∨
    ∃ id tables, v.FileAt (directory ++ [databaseName]) id (.ledger tables) ∧ tables.Tables visits

/-- The log of the directory holds the lines of the visits; without any there may be none. -/
def LogAt (v : Volume) (directory : Path) (visits : List Visit) : Prop :=
  (v.node? (directory ++ [requestLogName]) = none ∧ visits = []) ∨
    ∃ id, v.FileAt (directory ++ [requestLogName]) id (.bytes (visits.flatMap Visit.line))

/-- The directory holds some visits in its tables and others in its log. -/
structure Carries (v : Volume) (directory : Path) (stored pending : List Visit) : Prop where
  ready : Ready v directory
  tables : TablesAt v directory stored
  log : LogAt v directory pending

theorem TablesAt.of_sameAt {v v' : Volume} {directory : Path} {visits : List Visit}
    (h : TablesAt v directory visits) (hsame : v.SameAt v' (directory ++ [databaseName])) :
    TablesAt v' directory visits := by
  rcases h with ⟨hnone, hvisits⟩ | ⟨id, tables, hfile, htables⟩
  · exact .inl ⟨hsame.node.trans hnone, hvisits⟩
  · exact .inr ⟨id, tables, hfile.of_sameAt hsame, htables⟩

theorem LogAt.of_sameAt {v v' : Volume} {directory : Path} {visits : List Visit}
    (h : LogAt v directory visits) (hsame : v.SameAt v' (directory ++ [requestLogName])) :
    LogAt v' directory visits := by
  rcases h with ⟨hnone, hvisits⟩ | ⟨id, hfile⟩
  · exact .inl ⟨hsame.node.trans hnone, hvisits⟩
  · exact .inr ⟨id, hfile.of_sameAt hsame⟩

end Tarpit.Traffic
