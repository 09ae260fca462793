import Tarpit.Number.Double

/-!
# Metrics

The numbers that the program keeps about itself, and the text in which a
collector reads them: families by name, each with its help, its type and its
samples.
-/

namespace Tarpit

open Tarpit.Number (doubleText)

/-! ## Histograms -/

/-- The upper bounds of the buckets of the response time, in seconds. -/
def responseBounds : List Float :=
  [0.05, 0.1, 0.25, 0.35, 0.5, 1, 2.5, 5]

/-- Observations by the first bound that they do not exceed. -/
structure Histogram where
  /-- For every bound the number of observations that it is the first for. -/
  counts : List Nat
  /-- The number of all observations. -/
  total : Nat
  sum : Float
  deriving Repr

namespace Histogram

def empty : Histogram :=
  ⟨responseBounds.map fun _ => 0, 0, 0⟩

/-- Counts a value at the first bound that it does not exceed. -/
def countAt (x : Float) : List Float → List Nat → List Nat
  | bound :: bounds, n :: counts =>
      if x ≤ bound then (n + 1) :: counts else n :: countAt x bounds counts
  | _, counts => counts

def observe (h : Histogram) (x : Float) : Histogram :=
  ⟨countAt x responseBounds h.counts, h.total + 1, h.sum + x⟩

/-- The numbers of observations up to every bound, above those before. -/
def cumulative (before : Nat) : List Nat → List Nat
  | [] => []
  | n :: counts => (before + n) :: cumulative (before + n) counts

end Histogram

/-! ## The metrics of the program -/

/-- The metrics. -/
structure Metrics where
  /-- Trap pages that were served. -/
  served : Nat
  /-- Requests that the limiter turned away. -/
  limited : Nat
  /-- Served requests that could not be recorded. -/
  recordFailures : Nat
  /-- Client keys with a bucket. -/
  tracked : Int
  /-- The times that trap pages took. -/
  responses : Histogram
  deriving Repr

namespace Metrics

def empty : Metrics :=
  ⟨0, 0, 0, 0, .empty⟩

abbrev Line := List Char

/-- The text of a count, which is a word of 64 bits. -/
def countText (n : Nat) : Line :=
  doubleText (Number.wrapped n).toFloat

def sample (name : Line) (value : Line) : Line :=
  name ++ ' ' :: value

/-- A family: its help, its type and its samples. -/
def family (name kind help : String) (samples : List Line) : List Line :=
  ("# HELP ".toList ++ name.toList ++ ' ' :: help.toList) ::
    ("# TYPE ".toList ++ name.toList ++ ' ' :: kind.toList) :: samples

def single (name kind help : String) (value : Line) : List Line :=
  family name kind help [sample name.toList value]

def bucket (name bound : Line) (n : Nat) : Line :=
  sample (name ++ "_bucket\x7ble=\"".toList ++ bound ++ "\"\x7d".toList) (countText n)

def histogram (name : Line) (h : Histogram) : List Line :=
  (responseBounds.zip (Histogram.cumulative 0 h.counts)).map
      (fun b => bucket name (doubleText b.1) b.2) ++
    [bucket name "+Inf".toList h.total, sample (name ++ "_sum".toList) (doubleText h.sum),
      sample (name ++ "_count".toList) (countText h.total)]

def lines (m : Metrics) : List Line :=
  single "trap_rate_limited_total" "counter" "Total trap requests rejected by the rate limiter"
      (countText m.limited) ++
    single "trap_record_failures_total" "counter" "Total requests that could not be recorded"
      (countText m.recordFailures) ++
    single "trap_requests_total" "counter" "Total trap requests served" (countText m.served) ++
    family "trap_response_duration_seconds" "histogram" "Trap response duration in seconds"
      (histogram "trap_response_duration_seconds".toList m.responses) ++
    single "trap_tracked_keys" "gauge" "Client keys currently tracked by the rate limiter"
      (doubleText (Float.ofInt m.tracked))

def text (m : Metrics) : String :=
  String.ofList (m.lines.flatMap fun line => line ++ ['\n'])

end Metrics

end Tarpit
