import Tarpit.Traffic.Volume

/-!
# The durable store

The tables of a database, in a file or for the time of the process only.  Every
change is in the file when the operation has ended.  A file that others write
over in the meantime is left as it is until the store is closed: while it is
open it relies on the journal that the database engine keeps beside the file.
-/

namespace Tarpit.Traffic

open Tarpit.Time (Timestamp)

/-- How much of an open database the journal beside its file holds. -/
inductive Journal where
  /-- Nothing: no change was made since the database was opened. -/
  | nothing
  /-- The changes since the database was opened. -/
  | changes
  /-- All of it, as the database was new when it was opened. -/
  | whole
  deriving DecidableEq, Repr

def Journal.extended : Journal → Journal
  | .nothing | .changes => .changes
  | .whole => .whole

/-- A durable store: its tables, the file that holds them and the journal beside it. -/
structure DurableStore where
  tables : Ledger
  file? : Option Nat
  journal : Journal
  deriving DecidableEq, Repr

namespace DurableStore

def inMemory (now : Timestamp) : DurableStore :=
  ⟨.empty now, none, .whole⟩

/-- The store with other tables, and the volume that holds them. -/
def commit (d : DurableStore) (vol : Volume) (tables : Ledger) : DurableStore × Volume :=
  let changed := { d with tables, journal := d.journal.extended }
  match d.file? with
  | some id =>
      (changed, if vol.isDatabase id then vol.setContent id (.ledger tables) else vol)
  | none => (changed, vol)

/-- The most bytes of a file that counts as empty: one may stand there to hold its place. -/
def maxPlaceholder : Nat := 1

/-- Opens the database at a path.  A file that counts as empty is a new database. -/
def openFile (vol : Volume) (path : Path) (now : Timestamp) :
    Except Failure (DurableStore × Volume) :=
  match vol.openFile? path with
  | none => .error .database
  | some (id, vol) =>
      match vol.held? id with
      | some (.ledger tables) => .ok (⟨tables, some id, .nothing⟩, vol)
      | some (.bytes data) =>
          if data.length ≤ maxPlaceholder then
            .ok (⟨.empty now, some id, .whole⟩, vol.setContent id (.ledger (.empty now)))
          else .error .database
      | _ => .error .database

/-- The file was written over and no journal makes up for it: the tables cannot be read any more. -/
def isLost (d : DurableStore) (vol : Volume) : Bool :=
  d.journal == .nothing && d.file?.any fun id => !vol.isDatabase id

/--
The volume after the store was closed, which moves the journal into the file.  Into a file that was
written over a whole journal brings the tables back; less than that leaves it damaged.
-/
def close (d : DurableStore) (vol : Volume) : Volume :=
  match d.file?, d.journal with
  | some id, .whole => vol.setContent id (.ledger d.tables)
  | some id, .changes => if vol.isDatabase id then vol else vol.setContent id .damaged
  | _, _ => vol

def record (d : DurableStore) (vol : Volume) (patience : Patience) (v : Visit) :
    Except Failure (DurableStore × Volume) := do
  let tables ← Ledger.record patience v d.tables
  .ok (d.commit vol tables)

/-- Moves the start time back to an earlier one; tells whether it did. -/
def adoptStart (d : DurableStore) (vol : Volume) (time : Timestamp) :
    Bool × DurableStore × Volume :=
  match d.tables.adoptStart time with
  | (true, tables) => (true, d.commit vol tables)
  | (false, _) => (false, d, vol)

theorem record_gone (d : DurableStore) (vol : Volume) (v : Visit) :
    d.record vol .gone v = .error .cancelled := rfl

theorem tables_commit (d : DurableStore) (vol : Volume) (tables : Ledger) :
    (d.commit vol tables).1.tables = tables := by
  unfold commit
  split
  · rfl
  · rfl

theorem file?_commit (d : DurableStore) (vol : Volume) (tables : Ledger) :
    (d.commit vol tables).1.file? = d.file? := by
  unfold commit
  split
  · next h => exact h.symm ▸ rfl
  · next h => exact h.symm ▸ rfl

end DurableStore

end Tarpit.Traffic
