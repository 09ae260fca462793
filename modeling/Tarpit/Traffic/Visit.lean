import Tarpit.Json.Builder
import Tarpit.Json.Member
import Tarpit.Json.Printer
import Tarpit.Text.Blank
import Tarpit.Time.Rfc3339

/-!
# Visits

One recorded request, and the JSON text in which it stands on a line of the
request log.
-/

namespace Tarpit.Traffic

open Tarpit.Time (Timestamp)
open Tarpit.Json (Value required? namedMembers?)

/-- A recorded request. -/
structure Visit where
  clientKey : String
  userAgent : String
  path : String
  timestamp : Timestamp
  deriving DecidableEq, Repr

/-- The user agent of a request that names none. -/
def unknownAgent : String := "Unknown"

/-- The user agent that is recorded: without blanks around it, and never blank. -/
def recordedAgent (agent : Option String) : String :=
  let trimmed := Text.trimmed (agent.getD "")
  if trimmed.isEmpty then unknownAgent else trimmed

namespace Visit

def of (clientKey : String) (agent : Option String) (path : String) (time : Timestamp) : Visit :=
  ⟨clientKey, recordedAgent agent, path, time⟩

/-! ## Written form -/

def timeValue (t : Timestamp) : Value :=
  .text (String.ofList t.text)

def time? (v : Value) : Option Timestamp :=
  v.text?.bind fun s => Timestamp.read? s.toList

def members (v : Visit) : List (String × Value) :=
  [("IP", .text v.clientKey), ("UserAgent", .text v.userAgent), ("Path", .text v.path),
    ("Timestamp", timeValue v.timestamp)]

def toJson (v : Visit) : Value :=
  Value.ofMembers v.members

/-- The visit that the members of an object describe. -/
def ofMembers? (members : List (String × Value)) : Option Visit := do
  let clientKey ← required? members "IP" Value.text?
  let userAgent ← required? members "UserAgent" Value.text?
  let path ← required? members "Path" Value.text?
  let timestamp ← required? members "Timestamp" time?
  some ⟨clientKey, userAgent, path, timestamp⟩

/-- The visit that a value describes: an object, or the four fields in order. -/
def ofJson? : Value → Option Visit
  | .object members => (namedMembers? members).bind ofMembers?
  | .array [clientKey, userAgent, path, timestamp] => do
      let clientKey ← clientKey.text?
      let userAgent ← userAgent.text?
      let path ← path.text?
      let timestamp ← time? timestamp
      some ⟨clientKey, userAgent, path, timestamp⟩
  | _ => none

def encode (v : Visit) : Bytes :=
  v.toJson.compact

def decode? (s : Bytes) : Option Visit :=
  (Value.parse? s).bind ofJson?

/-- The line of the visit in the request log, with its ending. -/
def line (v : Visit) : Bytes :=
  v.encode ++ [0x0A]

end Visit

theorem recordedAgent_ne_empty (agent : Option String) : recordedAgent agent ≠ "" := by
  unfold recordedAgent
  simp only
  split
  · decide
  · next h => simpa [String.isEmpty_iff] using h

end Tarpit.Traffic
