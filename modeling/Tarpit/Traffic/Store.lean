import Tarpit.Traffic.Import
import Tarpit.Traffic.MemoryStore

/-!
# Stores

The operations that every store has, whichever backend holds the statistics,
and the choice of a store at the start of a process.
-/

namespace Tarpit.Traffic

open Tarpit.Time (Timestamp)

/-- The backends. -/
inductive Backend where
  | memory
  | durable
  deriving DecidableEq, Repr

namespace Backend

def word : Backend → String
  | .memory => "memory"
  | .durable => "sqlite"

/-- The backend that a word names, without regard to blanks around it and to case. -/
def parse? (s : String) : Option Backend :=
  let word := Text.lowered (Text.trimmed s)
  if word = Backend.memory.word then some .memory
  else if word = Backend.durable.word then some .durable
  else none

/-- The complaint about a word that names no backend. -/
def unknownMessage (s : String) : String :=
  "unknown storage backend: " ++ s

end Backend

/-- A store of either backend. -/
inductive Store where
  | memory (store : MemoryStore)
  | durable (store : DurableStore)
  deriving DecidableEq, Repr

namespace Store

def record (s : Store) (vol : Volume) (patience : Patience) (v : Visit) :
    Except Failure (Store × Volume) :=
  match s with
  | .memory m => (m.record vol patience v).map fun (m, vol) => (.memory m, vol)
  | .durable d => (d.record vol patience v).map fun (d, vol) => (.durable d, vol)

def summary (s : Store) (patience : Patience) : Except Failure Summary := do
  patience.check 0
  patience.check 1
  match s with
  | .memory m => .ok m.stats.summary
  | .durable d => .ok d.tables.summary

def recent (s : Store) (patience : Patience) (n : Nat) : Except Failure (List Visit) := do
  patience.check 0
  patience.check 1
  match s with
  | .memory m => .ok (m.stats.recentVisits n)
  | .durable d => .ok (d.tables.recent n)

/-- The client keys with the highest counts, at most so many. -/
def topKeys (s : Store) (patience : Patience) (n : Nat) : Except Failure (List Ranked) := do
  patience.check 0
  patience.check 1
  match s with
  | .memory m => .ok (m.stats.keys.top n)
  | .durable d => .ok (d.tables.topKeys n)

/-- The user agents with the highest counts, at most so many. -/
def topAgents (s : Store) (patience : Patience) (n : Nat) : Except Failure (List Ranked) := do
  patience.check 0
  patience.check 1
  match s with
  | .memory m => .ok (m.stats.agents.top n)
  | .durable d => .ok (d.tables.topAgents n)

/-- The store relies on flushes to outlive the process. -/
def requiresFlush : Store → Bool
  | .memory _ => true
  | .durable _ => false

def flush (s : Store) (vol : Volume) : Except Failure Unit × Volume :=
  match s with
  | .memory m => m.save vol
  | .durable _ => (.ok (), vol)

/-- What the store kept in files is gone, and it can answer nothing. -/
def isLost (s : Store) (vol : Volume) : Bool :=
  match s with
  | .memory _ => false
  | .durable d => d.isLost vol

def close (s : Store) (vol : Volume) : Volume :=
  match s with
  | .memory _ => vol
  | .durable d => d.close vol

/-! ## Opening -/

/-- The memory store on a data directory.  A snapshot that cannot be read is left alone. -/
def openMemory (limits : Limits) (directory? : Option Path) (now : Timestamp) (vol : Volume) :
    Except Failure (MemoryStore × Volume) :=
  match directory? with
  | none => .ok (.empty limits now, vol)
  | some directory =>
      let fresh := { MemoryStore.empty limits now with snapshot? := some (directory ++ [snapshotName]) }
      match fresh.withLog (directory ++ [requestLogName]) vol with
      | .error e => .error e
      | .ok (store, vol) =>
          match store.load vol with
          | .ok (_, store) => .ok (store, vol)
          | .error _ => .ok (store, vol)

/-- The durable store on a data directory, whose files it takes over as far as it can. -/
def openDurable (directory? : Option Path) (now : Timestamp) (vol : Volume) :
    Except Failure (DurableStore × Volume) :=
  match directory? with
  | none => .ok (.inMemory now, vol)
  | some directory =>
      match DurableStore.openFile vol (directory ++ [databaseName]) now with
      | .error e => .error e
      | .ok (store, vol) => .ok (store.takeOver vol directory .waiting).2

/-- The store of a backend on a data directory, which is made if there is none. -/
def create (backend : Backend) (directory? : Option Path) (limits : Limits) (now : Timestamp)
    (vol : Volume) : Except Failure Store × Volume :=
  match vol.makeDirectories? (directory?.getD []) with
  | none => (.error .files, vol)
  | some vol =>
      match backend with
      | .memory =>
          match openMemory limits directory? now vol with
          | .ok (m, vol) => (.ok (.memory m), vol)
          | .error e => (.error e, vol)
      | .durable =>
          match openDurable directory? now vol with
          | .ok (d, vol) => (.ok (.durable d), vol)
          | .error e => (.error e, vol)

theorem record_gone (s : Store) (vol : Volume) (v : Visit) :
    s.record vol .gone v = .error .cancelled := by
  cases s with
  | memory m => rfl
  | durable d => rfl

end Store

end Tarpit.Traffic
