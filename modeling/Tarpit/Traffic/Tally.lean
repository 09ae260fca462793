import Tarpit.Number.Decimal
import Tarpit.Time.Timestamp

/-!
# Tallies

Counts by label with a ceiling on the number of labels.  At the ceiling new
labels are turned away while known labels keep counting.  A count is one word,
and past the last word it goes on from zero.
-/

namespace Tarpit.Traffic

open Tarpit.Time (Timestamp)

/-- What is known of one label.  The sequence number tells which label came first. -/
structure Entry where
  label : String
  count : Nat
  firstSeen : Timestamp
  lastSeen : Timestamp
  sequence : Nat
  deriving DecidableEq, Repr

def Entry.add (e : Entry) (n : Nat) (time : Timestamp) : Entry :=
  { e with
    count := Number.wrapped (e.count + n)
    lastSeen := Timestamp.latest e.lastSeen time }

/-- The entry goes before another one in a ranking, or is the same. -/
def Entry.ranksBefore (e f : Entry) : Bool :=
  f.count < e.count || (f.count == e.count && e.sequence ≤ f.sequence)

/-- A label with its count. -/
structure Ranked where
  label : String
  count : Nat
  deriving DecidableEq, Repr

/-- Counts by label. -/
structure Tally where
  limit : Nat
  entries : List Entry
  nextSequence : Nat
  deriving DecidableEq, Repr

namespace Tally

/-- A tally of at most `limit` labels, with nothing counted. -/
def empty (limit : Nat) : Tally :=
  ⟨limit, [], 0⟩

def find? (t : Tally) (label : String) : Option Entry :=
  t.entries.find? fun e => e.label == label

def size (t : Tally) : Nat :=
  t.entries.length

def count? (t : Tally) (label : String) : Option Nat :=
  (t.find? label).map Entry.count

/-- When a label was first and last seen. -/
def seen? (t : Tally) (label : String) : Option (Timestamp × Timestamp) :=
  (t.find? label).map fun e => (e.firstSeen, e.lastSeen)

/-- The tally with a known label counted `n` times more. -/
def bump (t : Tally) (label : String) (n : Nat) (time : Timestamp) : Tally :=
  { t with entries := t.entries.map fun e => if e.label == label then e.add n time else e }

def insert (t : Tally) (label : String) (n : Nat) (time : Timestamp) : Tally :=
  { t with
    entries := t.entries ++ [⟨label, n, time, time, t.nextSequence⟩]
    nextSequence := t.nextSequence + 1 }

/-- Counts a label `n` times, if it is known or there is room; tells whether it did. -/
def add (t : Tally) (label : String) (n : Nat) (time : Timestamp) : Bool × Tally :=
  if n = 0 then (false, t)
  else if (t.find? label).isSome then (true, t.bump label n time)
  else if t.limit ≤ t.size then (false, t)
  else (true, t.insert label n time)

def increment (t : Tally) (label : String) (time : Timestamp) : Bool × Tally :=
  t.add label 1 time

/-- The labels with the highest counts; of equal counts the label that came first. -/
def top (t : Tally) (n : Nat) : List Ranked :=
  ((t.entries.mergeSort Entry.ranksBefore).take n).map fun e => ⟨e.label, e.count⟩

def counts (t : Tally) : List (String × Nat) :=
  t.entries.map fun e => (e.label, e.count)

theorem add_zero (t : Tally) (label : String) (time : Timestamp) :
    t.add label 0 time = (false, t) := by
  simp [add]

@[simp] theorem size_bump (t : Tally) (label : String) (n : Nat) (time : Timestamp) :
    (t.bump label n time).size = t.size := by
  simp [bump, size]

@[simp] theorem size_insert (t : Tally) (label : String) (n : Nat) (time : Timestamp) :
    (t.insert label n time).size = t.size + 1 := by
  simp [insert, size]

@[simp] theorem limit_add (t : Tally) (label : String) (n : Nat) (time : Timestamp) :
    (t.add label n time).2.limit = t.limit := by
  unfold add
  split
  · rfl
  · split
    · rfl
    · split
      · rfl
      · rfl

theorem length_top (t : Tally) (n : Nat) : (t.top n).length = min n t.size := by
  simp [top, size]

end Tally

end Tarpit.Traffic
