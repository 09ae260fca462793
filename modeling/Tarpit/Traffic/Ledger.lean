import Tarpit.Traffic.Failure
import Tarpit.Traffic.Summary
import Tarpit.Traffic.Tally
import Tarpit.Traffic.Visit

/-!
# The ledger

The tables of the durable statistics: the log of requests, the counts by client
key and by user agent, and the row of totals.  A request is four statements,
each checked by its table, and the caller is looked for around each of them;
when one is refused or the caller is gone, none of them happened.
-/

namespace Tarpit.Traffic

open Tarpit.Time (Timestamp)

/-- A row of a table of counts. -/
structure CountRow where
  label : String
  count : Nat
  firstSeen : Timestamp
  lastSeen : Timestamp
  deriving DecidableEq, Repr

/-- The tables.  Rows stand in the order in which they were inserted. -/
structure Ledger where
  startTime : Timestamp
  total : Nat
  log : List Visit
  keys : List CountRow
  agents : List CountRow
  deriving DecidableEq, Repr

def maxKeyLength : Nat := 45

def maxAgentLength : Nat := 512

def maxPathLength : Nat := 2048

def clamp (width : Nat) (s : String) : String :=
  String.ofList (s.toList.take width)

/-- The length of a text as the checks of the tables see it: up to the first NUL. -/
def storedLength (s : String) : Nat :=
  (s.toList.takeWhile (· != '\x00')).length

/-- The check on a label: not empty and not too long. -/
def labelFits (width : Nat) (s : String) : Bool :=
  0 < storedLength s && storedLength s ≤ width

/-- The stored text of one time comes before that of another. -/
def storedBefore (s t : Timestamp) : Bool :=
  decide (s.stored < t.stored)

def storedLatest (s t : Timestamp) : Timestamp :=
  if storedBefore s t then t else s

/-- The visits by their stored times from the last to the first, of equals the later recorded first. -/
def newestFirst (log : List Visit) : List Visit :=
  let keyed := log.reverse.map fun v => (v.timestamp.stored, v)
  (keyed.mergeSort fun a b => !decide (a.1 < b.1)).map Prod.snd

/-- The rows from the highest count to the lowest, the earlier ones first among equals. -/
def heaviestFirst (rows : List CountRow) : List CountRow :=
  rows.mergeSort fun a b => b.count ≤ a.count

/-- Counts a label once more in a table of counts. -/
def countLabel (rows : List CountRow) (label : String) (time : Timestamp) : List CountRow :=
  if rows.any fun r => r.label == label then
    rows.map fun r =>
      if r.label == label then
        { r with count := r.count + 1, lastSeen := storedLatest r.lastSeen time }
      else r
  else rows ++ [⟨label, 1, time, time⟩]

namespace Ledger

def empty (startTime : Timestamp) : Ledger :=
  ⟨startTime, 0, [], [], []⟩

/-- The visit with its texts cut to the widths of the columns. -/
def clamped (v : Visit) : Visit :=
  { v with
    clientKey := clamp maxKeyLength v.clientKey
    userAgent := clamp maxAgentLength v.userAgent
    path := clamp maxPathLength v.path }

/-! ## Statements -/

/-- Appends a row to the log, which takes any user agent and path within their widths. -/
def insertLog (v : Visit) (l : Ledger) : Except Failure Ledger :=
  if labelFits maxKeyLength v.clientKey && storedLength v.userAgent ≤ maxAgentLength &&
      storedLength v.path ≤ maxPathLength then
    .ok { l with log := l.log ++ [v] }
  else .error .database

def countKey (v : Visit) (l : Ledger) : Except Failure Ledger :=
  if labelFits maxKeyLength v.clientKey then
    .ok { l with keys := countLabel l.keys v.clientKey v.timestamp }
  else .error .database

def countAgent (v : Visit) (l : Ledger) : Except Failure Ledger :=
  if labelFits maxAgentLength v.userAgent then
    .ok { l with agents := countLabel l.agents v.userAgent v.timestamp }
  else .error .database

/-- Counts the request in the row of totals. -/
def countRequest (l : Ledger) : Except Failure Ledger :=
  .ok { l with total := l.total + 1 }

/-! ## Transactions and queries -/

def record (patience : Patience) (v : Visit) (l : Ledger) : Except Failure Ledger := do
  let row := clamped v
  patience.check 0
  patience.check 1
  let l ← insertLog row l
  patience.check 2
  let l ← countKey row l
  patience.check 3
  let l ← countAgent row l
  patience.check 4
  let l ← countRequest l
  patience.check 5
  .ok l

/-- Moves the start time back to an earlier one; tells whether it did. -/
def adoptStart (l : Ledger) (time : Timestamp) : Bool × Ledger :=
  if storedBefore time l.startTime then (true, { l with startTime := time }) else (false, l)

def summary (l : Ledger) : Summary :=
  ⟨l.startTime, l.total, l.keys.length, l.agents.length⟩

/-- The latest visits by their times, of equal times the one recorded last first. -/
def recent (l : Ledger) (n : Nat) : List Visit :=
  (newestFirst l.log).take n

/-- The labels of the rows with the highest counts. -/
def topOf (rows : List CountRow) (n : Nat) : List Ranked :=
  ((heaviestFirst rows).take n).map fun r => ⟨r.label, r.count⟩

def topKeys (l : Ledger) (n : Nat) : List Ranked :=
  topOf l.keys n

def topAgents (l : Ledger) (n : Nat) : List Ranked :=
  topOf l.agents n

/-- When a client key was first and last seen. -/
def keySeen? (l : Ledger) (key : String) : Option (Timestamp × Timestamp) :=
  (l.keys.find? fun r => r.label == key).map fun r => (r.firstSeen, r.lastSeen)

end Ledger

theorem length_toList_clamp_le (width : Nat) (s : String) : (clamp width s).toList.length ≤ width := by
  rw [clamp, String.toList_ofList, List.length_take]
  exact Nat.min_le_left width s.toList.length

theorem clamp_eq_self {width : Nat} {s : String} (h : s.toList.length ≤ width) :
    clamp width s = s := by
  rw [clamp, List.take_of_length_le h, String.ofList_toList]

theorem clamp_clamp (width : Nat) (s : String) : clamp width (clamp width s) = clamp width s := by
  simp [clamp, List.take_take]

theorem storedLength_le (s : String) : storedLength s ≤ s.toList.length :=
  (List.takeWhile_sublist _).length_le

/-- A cut text never breaks the upper bound of a column. -/
theorem storedLength_clamp_le (width : Nat) (s : String) : storedLength (clamp width s) ≤ width :=
  Nat.le_trans (storedLength_le _) (length_toList_clamp_le width s)

end Tarpit.Traffic
