import Tarpit.Time.Ticker
import Tarpit.Traffic.Arrival
import Tarpit.Traffic.Chart

/-!
# Sessions

A volume, a clock that can be read and at most one open store, whose statistics are flushed
periodically and once more when it is closed.  A flusher that another one takes
the place of is not stopped: it goes on for as long as the session does, with
the store that was open when it was started.
-/

namespace Tarpit.Traffic

open Tarpit.Time (Clock Timestamp Ticker)

/-- Why a step of a session has no answer. -/
inductive Refusal where
  /-- No store that could answer is open. -/
  | notOpen
  /-- The store failed. -/
  | failed (cause : Failure)
  deriving DecidableEq, Repr

/-- What a memory store logs to when it is opened by hand. -/
inductive LogChoice where
  /-- The log file of the root. -/
  | file
  /-- A device without room. -/
  | full
  deriving DecidableEq, Repr

/-- How a store is opened. -/
inductive Opening where
  /--
  A memory store by hand, with the snapshot file of the root or without it.  Of several logs the
  last one is written to.
  -/
  | memory (snapshot : Bool) (logs : List LogChoice)
  /-- A durable store by hand, with the database of the root or without a file. -/
  | durable (file : Bool)
  /-- The store of a backend on a data directory or without one. -/
  | created (backend : Backend) (directory? : Option Path)
  deriving DecidableEq, Repr

/-- A flusher that another one took the place of. -/
structure StrayFlusher where
  ticker : Ticker
  /-- The store that it flushes, once that is closed; till then it is the open one. -/
  closed? : Option Store
  deriving DecidableEq, Repr

namespace StrayFlusher

/-- The flusher when the open store is closed, which it keeps in its last state. -/
def keep (f : StrayFlusher) (store? : Option Store) : StrayFlusher :=
  { f with closed? := f.closed?.or store? }

end StrayFlusher

/-- A session.  The running time, in milliseconds, is what the periods of flushes are counted in. -/
structure Session where
  now : Clock
  running : Nat
  volume : Volume
  store? : Option Store
  /-- The flusher that is stopped on demand and when the store is closed. -/
  flusher? : Option Ticker
  strays : List StrayFlusher
  deriving DecidableEq, Repr

namespace Session

def start (now : Clock) : Session :=
  ⟨now, 0, .empty, none, none, []⟩

def memory? (s : Session) : Option MemoryStore :=
  match s.store? with
  | some (.memory m) => some m
  | _ => none

def durable? (s : Session) : Option DurableStore :=
  match s.store? with
  | some (.durable d) => some d
  | _ => none

/-! ## The life of a store -/

/-- Flushes a store, whether it succeeds or not. -/
def flushedOf (s : Session) (store? : Option Store) : Session :=
  match store? with
  | some store => { s with volume := (store.flush s.volume).2 }
  | none => s

/-- Flushes the open store, whether it succeeds or not. -/
def flushed (s : Session) : Session :=
  s.flushedOf s.store?

/-- Stops the flusher, which flushes a last time. -/
def stopFlusher (s : Session) : Session :=
  match s.flusher? with
  | some _ => { s.flushed with flusher? := none }
  | none => s

def close (s : Session) : Session :=
  let s := s.stopFlusher
  { s with
    volume := (s.store?.map fun store => store.close s.volume).getD s.volume
    store? := none
    strays := s.strays.map fun f => f.keep s.store? }

/-- A memory store with one more log in place of the one before. -/
def attachLog (opened : MemoryStore × Volume) (log : LogChoice) :
    Except Failure (MemoryStore × Volume) :=
  match log with
  | .full => .ok ({ opened.1 with log? := some .full }, opened.2)
  | .file => opened.1.withLog [requestLogName] opened.2

/-- The memory store that is opened by hand. -/
def handMemory (vol : Volume) (now : Timestamp) (limits : Limits) (snapshot : Bool)
    (logs : List LogChoice) : Except Failure (MemoryStore × Volume) :=
  let plain := MemoryStore.empty limits now
  let store := if snapshot then { plain with snapshot? := some [snapshotName] } else plain
  logs.foldlM attachLog (store, vol)

def opened (vol : Volume) (now : Timestamp) (limits : Limits) :
    Opening → Except Failure Store × Volume
  | .memory snapshot logs =>
      match handMemory vol now limits snapshot logs with
      | .ok (m, vol) => (.ok (.memory m), vol)
      | .error e => (.error e, vol)
  | .durable true =>
      match DurableStore.openFile vol [databaseName] now with
      | .ok (d, vol) => (.ok (.durable d), vol)
      | .error e => (.error e, vol)
  | .durable false => (.ok (.durable (.inMemory now)), vol)
  | .created backend directory? => Store.create backend directory? limits now vol

/-- Closes the open store and opens another one; tells whether that relies on flushes. -/
def reopen (s : Session) (limits : Limits) (how : Opening) : Except Failure Bool × Session :=
  let s := s.close
  match opened s.volume s.now.time limits how with
  | (.ok store, volume) => (.ok store.requiresFlush, { s with volume, store? := some store })
  | (.error e, volume) => (.error e, { s with volume })

/-! ## Time -/

/--
Starts flushing the open store once per period, or never if there is no period.  A flusher that is
running goes astray.
-/
def startFlusher (s : Session) (period : Nat) : Except Refusal Unit × Session :=
  match s.store? with
  | some _ =>
      (.ok (), { s with
        flusher? := if period = 0 then none else some (.start period s.running)
        strays := s.strays ++ (s.flusher?.map fun ticker => ⟨ticker, none⟩).toList })
  | none => (.error .notOpen, s)

/-- The flushes of the strays that are due, in the order in which they were started. -/
def flushStrays (s : Session) : Session :=
  let flushOne := fun (s : Session) (f : StrayFlusher) =>
    if 0 < f.ticker.ticks s.running then s.flushedOf (f.closed?.or s.store?) else s
  let s := s.strays.foldl flushOne s
  { s with strays := s.strays.map fun f => { f with ticker := f.ticker.advance s.running } }

/-- The flush of the flusher, if it is due. -/
def flushDue (s : Session) : Session :=
  match s.flusher? with
  | some ticker =>
      let s := { s with flusher? := some (ticker.advance s.running) }
      if 0 < ticker.ticks s.running then s.flushed else s
  | none => s

/-- Lets time pass.  Flushes that fell due happen at the new time; one does for several. -/
def advance (s : Session) (ms : Nat) : Session :=
  let s := { s with now := s.now.later (ms * 1000000), running := s.running + ms }
  s.flushStrays.flushDue

/-! ## Steps on the open store -/

/-- The answer of a store, which is none if what it kept in files is gone. -/
def ask {α : Type} (s : Session) (query : Store → Except Failure α) : Except Refusal α :=
  match s.store? with
  | some store =>
      match query store with
      | .ok a => if store.isLost s.volume then .error (.failed .database) else .ok a
      | .error e => .error (.failed e)
  | none => .error .notOpen

def record (s : Session) (patience : Patience) (v : Visit) : Except Refusal Unit × Session :=
  match s.store? with
  | some store =>
      match store.record s.volume patience v with
      | .ok (recorded, volume) =>
          if store.isLost s.volume then (.error (.failed .database), s)
          else (.ok (), { s with volume, store? := some recorded })
      | .error e => (.error (.failed e), s)
  | none => (.error .notOpen, s)

/-- Records a visit several times; the answer is that of the last time. -/
def recordTimes (s : Session) (patience : Patience) (v : Visit) :
    Nat → Except Refusal Unit × Session
  | 0 => (.ok (), s)
  | 1 => s.record patience v
  | n + 2 => (s.record patience v).2.recordTimes patience v (n + 1)

/-- Records an arriving request; the answer is its client key. -/
def request (s : Session) (trusted : Bool) (headers : Net.Headers) (peer : Net.Endpoint)
    (path : String) (patience : Patience) : Except Refusal String × Session :=
  let v := Visit.arriving trusted headers peer path s.now.time
  match s.record patience v with
  | (.ok (), s) => (.ok v.clientKey, s)
  | (.error e, s) => (.error e, s)

def flush (s : Session) : Except Refusal Unit × Session :=
  match s.store? with
  | some store =>
      match store.flush s.volume with
      | (.ok (), volume) => (.ok (), { s with volume })
      | (.error e, volume) => (.error (.failed e), { s with volume })
  | none => (.error .notOpen, s)

/-! ## Steps on a memory store -/

/-- Takes the statistics from the snapshot file; tells whether there is one. -/
def load (s : Session) : Except Refusal Bool × Session :=
  match s.memory? with
  | some m =>
      match m.load s.volume with
      | .ok (found, m) => (.ok found, { s with store? := some (.memory m) })
      | .error e => (.error (.failed e), s)
  | none => (.error .notOpen, s)

def save (s : Session) : Except Refusal Unit × Session :=
  match s.memory? with
  | some _ => s.flush
  | none => (.error .notOpen, s)

/-- Takes the statistics from the text of a snapshot. -/
def restore (s : Session) (data : Bytes) : Except Refusal Unit × Session :=
  match s.memory? with
  | some m =>
      match Snapshot.decode? data with
      | some p => (.ok (), { s with store? := some (.memory (m.restore p)) })
      | none => (.error (.failed .decoding), s)
  | none => (.error .notOpen, s)

/-! ## Steps on a durable store -/

/-- Moves the start time back to an earlier one; tells whether it did. -/
def adoptStart (s : Session) (time : Timestamp) : Except Refusal Bool × Session :=
  match s.durable? with
  | some d =>
      if d.isLost s.volume then (.error (.failed .database), s)
      else
        let (adopted, d, volume) := d.adoptStart s.volume time
        (.ok adopted, { s with volume, store? := some (.durable d) })
  | none => (.error .notOpen, s)

/-- The first and the last visit of a client. -/
def keySeen (s : Session) (key : String) : Except Refusal (Option (Timestamp × Timestamp)) :=
  match s.durable? with
  | some d =>
      if d.isLost s.volume then .error (.failed .database) else .ok (d.tables.keySeen? key)
  | none => .error .notOpen

def takeOver (s : Session) (patience : Patience) : Except Refusal ImportReport × Session :=
  match s.durable? with
  | some d =>
      let (answer, d, volume) := d.takeOver s.volume [] patience
      let s := { s with volume, store? := some (.durable d) }
      match answer with
      | .ok report => (.ok report, s)
      | .error e => (.error (.failed e), s)
  | none => (.error .notOpen, s)

/-! ## Files of the volume -/

/-- Writes a file as a caller from outside; a file that cannot be written stays as it is. -/
def writeFile (s : Session) (path : Path) (data : Bytes) : Session :=
  { s with volume := (s.volume.write? path data).getD s.volume }

/-- Makes a directory as a caller from outside. -/
def makeDirectory (s : Session) (path : Path) : Session :=
  { s with volume := (s.volume.makeDirectories? path).getD s.volume }

/-- Removes a file or an empty directory; tells whether it did. -/
def remove (s : Session) (path : Path) : Bool × Session :=
  let (done, volume) := s.volume.remove path
  (done, { s with volume })

/-- A file that the database engine keeps beside a database while it is open. -/
def isEngineFile (name : String) : Bool :=
  name.endsWith "-wal" || name.endsWith "-shm"

def listing (s : Session) : List String :=
  ((s.volume.names []).filter fun name => !isEngineFile name).mergeSort

theorem flusher?_stopFlusher (s : Session) : s.stopFlusher.flusher? = none := by
  cases h : s.flusher? with
  | none => simp [stopFlusher, h]
  | some t => simp [stopFlusher, h]

/-- A flusher that is stopped a second time flushes no more. -/
theorem stopFlusher_stopFlusher (s : Session) : s.stopFlusher.stopFlusher = s.stopFlusher := by
  rw [stopFlusher, flusher?_stopFlusher]

end Session

end Tarpit.Traffic
