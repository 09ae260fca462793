import Tarpit.Traffic.MemoryStats
import Tarpit.Traffic.Volume

/-!
# The memory store

Bounded statistics in memory.  A snapshot file makes them outlive the process,
and a log of every request lets a durable store take the history over later.
-/

namespace Tarpit.Traffic

open Tarpit.Time (Timestamp)

/-- The log to which requests are appended. -/
inductive RequestLog where
  /-- An open file. -/
  | file (id : Nat)
  /-- A log on a device without room: every append fails. -/
  | full
  deriving DecidableEq, Repr

/-- A line appended to a log.  A failure to append is no failure of the request. -/
def RequestLog.append (log : RequestLog) (line : Bytes) (vol : Volume) : Volume :=
  match log with
  | .file id => vol.append id line
  | .full => vol

/-- A memory store. -/
structure MemoryStore where
  limits : Limits
  stats : MemoryStats
  snapshot? : Option Path
  log? : Option RequestLog
  deriving DecidableEq, Repr

namespace MemoryStore

def empty (limits : Limits) (startTime : Timestamp) : MemoryStore :=
  ⟨limits, .empty limits startTime, none, none⟩

/-- The store with the log file at a path, which is made if there is none. -/
def withLog (s : MemoryStore) (path : Path) (vol : Volume) :
    Except Failure (MemoryStore × Volume) :=
  match vol.openFile? path with
  | some (id, vol) => .ok ({ s with log? := some (.file id) }, vol)
  | none => .error .files

/-- Records a visit and appends its line to the log. -/
def record (s : MemoryStore) (vol : Volume) (patience : Patience) (v : Visit) :
    Except Failure (MemoryStore × Volume) := do
  patience.check 0
  patience.check 1
  let s' := { s with stats := s.stats.record s.limits v }
  match s.log? with
  | some log => .ok (s', log.append v.line vol)
  | none => .ok (s', vol)

/-- The store with all but the start time taken from a snapshot. -/
def restore (s : MemoryStore) (p : Snapshot) : MemoryStore :=
  { s with stats := s.stats.restore s.limits p }

/-- Takes the statistics from the snapshot file; tells whether there is one. -/
def load (s : MemoryStore) (vol : Volume) : Except Failure (Bool × MemoryStore) :=
  match s.snapshot? with
  | none => .ok (false, s)
  | some path =>
      match vol.node? path with
      | none => .ok (false, s)
      | some .directory => .error .files
      | some (.file _) =>
          match (vol.read? path).bind Snapshot.decode? with
          | some p => .ok (true, s.restore p)
          | none => .error .decoding

/-- What a file is called up to its last dot; a dot at the very beginning does not count. -/
def stem (name : List Char) : List Char :=
  let before := ((name.reverse.dropWhile (· != '.')).drop 1).reverse
  if before.isEmpty then name else before

/-- The path beside a file to which its next content is written first. -/
def draftOf (path : Path) : Path :=
  path.dropLast ++ (path.getLast?.toList.map fun name =>
    String.ofList (stem name.toList ++ ".json.tmp".toList))

/--
Writes the snapshot file: first all of it beside the old one, then in its place.
The draft stays where it is when it cannot take the place.
-/
def save (s : MemoryStore) (vol : Volume) : Except Failure Unit × Volume :=
  match s.snapshot? with
  | none => (.ok (), vol)
  | some path =>
      match vol.write? (draftOf path) s.stats.toSnapshot.encode with
      | none => (.error .files, vol)
      | some vol =>
          match vol.rename? (draftOf path) path with
          | some vol => (.ok (), vol)
          | none => (.error .files, vol)

theorem record_gone (s : MemoryStore) (vol : Volume) (v : Visit) :
    s.record vol .gone v = .error .cancelled := rfl

/-- Loading takes the statistics from a text that can be read, or nothing. -/
theorem load_eq_ok {s s' : MemoryStore} {vol : Volume} {found : Bool}
    (h : s.load vol = .ok (found, s')) :
    s' = s ∨ ∃ data p, Snapshot.decode? data = some p ∧ s' = s.restore p := by
  unfold load at h
  split at h
  · cases h
    exact .inl rfl
  · split at h
    · cases h
      exact .inl rfl
    · cases h
    · split at h
      · next p hread =>
          cases h
          obtain ⟨data, -, hdecode⟩ := Option.bind_eq_some_iff.1 hread
          exact .inr ⟨data, p, hdecode, rfl⟩
      · cases h

end MemoryStore

end Tarpit.Traffic
