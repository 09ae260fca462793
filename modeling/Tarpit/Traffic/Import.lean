import Tarpit.Text.Lines
import Tarpit.Traffic.DurableStore
import Tarpit.Traffic.Snapshot

/-!
# Taking over files

A durable store takes over the request log and the snapshot that a memory store
left behind.  The log is replayed line by line; of the snapshot only the start
time counts.  A file that was taken over gets a new name, so it is not taken
over again.
-/

namespace Tarpit.Traffic

/-- The names of the files in a data directory. -/
def requestLogName : String := "requests.ndjson"

def snapshotName : String := "stats.json"

def databaseName : String := "spidertrap.db"

/-- What is added to the name of a file that was taken over. -/
def importedSuffix : String := ".migrated"

/-- What taking over did. -/
structure ImportReport where
  imported : Nat
  skipped : Nat
  startAdopted : Bool
  files : List String
  deriving DecidableEq, Repr

namespace ImportReport

def empty : ImportReport :=
  ⟨0, 0, false, []⟩

def isEmpty (r : ImportReport) : Bool :=
  r.files.isEmpty

end ImportReport

/-- A store that is taking files over. -/
structure Importing where
  store : DurableStore
  volume : Volume
  report : ImportReport
  deriving DecidableEq, Repr

namespace Importing

/-- The state with one more line left out. -/
def skip (i : Importing) : Importing :=
  { i with report := { i.report with skipped := i.report.skipped + 1 } }

/-- Records the visit of a line as if its request came now. -/
def replay (i : Importing) (patience : Patience) (v : Visit) : Except Failure Importing :=
  match i.store.record i.volume patience (.of v.clientKey (some v.userAgent) v.path v.timestamp) with
  | .ok (store, volume) =>
      .ok ⟨store, volume, { i.report with imported := i.report.imported + 1 }⟩
  | .error .cancelled => .error .cancelled
  | .error _ => .ok i.skip

/-- One line of the log.  A blank line does not count. -/
def line (i : Importing) (patience : Patience) (bytes : Bytes) : Except Failure Importing :=
  match Text.Utf8.decode bytes with
  | none => .error .files
  | some chars =>
      if (Text.trim chars).isEmpty then .ok i
      else
        match Visit.decode? bytes with
        | none => .ok i.skip
        | some v => i.replay patience v

/--
The lines of the log, each a step for the caller's patience, up to the first failure; what was done
before it stays.
-/
def lines (i : Importing) (patience : Patience) : List Bytes → Except Failure Unit × Importing
  | [] => (.ok (), i)
  | bytes :: rest =>
      match i.line patience bytes with
      | .ok i => i.lines patience.next rest
      | .error e => (.error e, i)

/-- Gives a file that was taken over its new name, if it can have it. -/
def retire (i : Importing) (directory : Path) (name : String) : Importing :=
  let target := name ++ importedSuffix
  match i.volume.rename? (directory ++ [name]) (directory ++ [target]) with
  | some volume =>
      { i with volume, report := { i.report with files := i.report.files ++ [target] } }
  | none => i

def requestLog (i : Importing) (directory : Path) (patience : Patience) :
    Except Failure Unit × Importing :=
  let data := (i.volume.read? (directory ++ [requestLogName])).getD []
  match i.lines patience (Text.byteLines data) with
  | (.ok (), i) => (.ok (), i.retire directory requestLogName)
  | failed => failed

def snapshot (i : Importing) (directory : Path) : Except Failure Unit × Importing :=
  match (i.volume.read? (directory ++ [snapshotName])).bind Snapshot.decode? with
  | none => (.error .decoding, i)
  | some p =>
      let (adopted, store, volume) := i.store.adoptStart i.volume p.startTime
      let i : Importing := ⟨store, volume, { i.report with startAdopted := adopted }⟩
      (.ok (), i.retire directory snapshotName)

end Importing

/-- Takes over the files of a directory, of those that were there at the beginning. -/
def DurableStore.takeOver (d : DurableStore) (vol : Volume) (directory : Path)
    (patience : Patience) : Except Failure ImportReport × DurableStore × Volume :=
  let hasLog := vol.isFile (directory ++ [requestLogName])
  let hasSnapshot := vol.isFile (directory ++ [snapshotName])
  let start : Importing := ⟨d, vol, .empty⟩
  let afterLog := if hasLog then start.requestLog directory patience else (.ok (), start)
  let done := match afterLog with
    | (.ok (), i) => if hasSnapshot then i.snapshot directory else (.ok (), i)
    | failed => failed
  (done.1.map fun _ => done.2.report, done.2.store, done.2.volume)

end Tarpit.Traffic
