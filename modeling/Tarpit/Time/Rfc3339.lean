import Tarpit.Number.Decimal
import Tarpit.Text.Blank
import Tarpit.Time.Timestamp

/-!
# Texts of timestamps

The text that records and snapshots carry, the text that the tables of the
durable store keep and compare, and the lenient reading of RFC 3339 times.
-/

namespace Tarpit.Time

open Tarpit.Number (padded digits isDigit value)
open Tarpit.Text (trimStart isBlank)

/-- Years from 0 to 9999 have four digits; all others a sign and at least four. -/
def yearText (year : Int) : List Char :=
  if 0 ≤ year ∧ year ≤ 9999 then padded 4 year.toNat
  else (if year < 0 then '-' else '+') :: padded 4 year.natAbs

def dateText (d : Date) : List Char :=
  yearText d.year ++ '-' :: padded 2 d.month ++ '-' :: padded 2 d.day

/-- The fraction of a second in the fewest of 0, 3, 6 and 9 digits that is exact. -/
def fractionText (nanos : Nat) : List Char :=
  if nanos = 0 then []
  else if nanos % 1000000 = 0 then '.' :: padded 3 (nanos / 1000000)
  else if nanos % 1000 = 0 then '.' :: padded 6 (nanos / 1000)
  else '.' :: padded 9 nanos

/-- A time of day with colons; a leap second is the second 60 of its minute. -/
def timeText (secondOfDay nanos : Nat) : List Char :=
  padded 2 (secondOfDay / 3600) ++ ':' :: padded 2 (secondOfDay / 60 % 60) ++ ':' ::
    padded 2 (secondOfDay % 60 + nanos / Timestamp.nanosPerSecond) ++
    fractionText (nanos % Timestamp.nanosPerSecond)

/-- The text of a timestamp in records, snapshots and answers. -/
def Timestamp.text (t : Timestamp) : List Char :=
  dateText (dateOfDay t.day) ++ 'T' :: timeText t.secondOfDay t.nanos ++ ['Z']

/-- The text of a timestamp in the tables of the durable store. -/
def Timestamp.stored (t : Timestamp) : List Char :=
  dateText (dateOfDay t.day) ++ ' ' :: timeText t.secondOfDay t.nanos ++ "+00:00".toList

/-! ## Reading -/

/-- Digits at the front of a text, at least one and at most `most`, and what follows. -/
def number? (most : Nat) (s : List Char) : Option (Nat × List Char) :=
  let ds := (s.take most).takeWhile isDigit
  if ds.isEmpty then none else some (value ds, s.drop ds.length)

/-- Two digits at most, with blanks before them allowed. -/
def field? (s : List Char) : Option (Nat × List Char) :=
  number? 2 (trimStart s)

/-- A year: up to four digits, or a sign and any number of digits. -/
def year? (s : List Char) : Option (Int × List Char) :=
  match trimStart s with
  | '-' :: rest => (number? rest.length rest).map fun (n, rest') => (-(n : Int), rest')
  | '+' :: rest => (number? rest.length rest).map fun (n, rest') => ((n : Int), rest')
  | s' => (number? 4 s').map fun (n, rest') => ((n : Int), rest')

def mark? (c : Char) (s : List Char) : Option (List Char) :=
  match trimStart s with
  | d :: rest => if d = c then some rest else none
  | [] => none

/-- The nanoseconds that the digits of a fraction stand for; those past the ninth do not count. -/
def fractionNanos (ds : List Char) : Nat :=
  let kept := ds.take 9
  value kept * Nat.pow 10 (9 - kept.length)

/-- The fraction of a second, absent or a point with at least one digit. -/
def fraction? (s : List Char) : Option (Nat × List Char) :=
  match s with
  | '.' :: rest =>
      let ds := rest.takeWhile isDigit
      if ds.isEmpty then none else some (fractionNanos ds, rest.dropWhile isDigit)
  | _ => some (0, s)

def pair? (s : List Char) : Option (Nat × List Char) :=
  match s with
  | a :: b :: rest => if isDigit a && isDigit b then some (value [a, b], rest) else none
  | _ => none

/-- Hours and minutes of an offset in seconds; colons and blanks may stand between them. -/
def hoursAndMinutes? (s : List Char) : Option (Int × List Char) := do
  let (hours, s) ← pair? s
  let (minutes, s) ← pair? (s.dropWhile fun c => c == ':' || isBlank c)
  if minutes < 60 then some (((hours * 3600 + minutes * 60 : Nat) : Int), s) else none

def offset? (s : List Char) : Option (Int × List Char) :=
  match s with
  | [] => none
  | sign :: rest =>
      if (s.take 3).map Char.toLower = ['u', 't', 'c'] then some (0, s.drop 3)
      else if sign = 'Z' ∨ sign = 'z' then some (0, rest)
      else if sign = '+' then hoursAndMinutes? rest
      else if sign = '-' ∨ sign = '−' then
        (hoursAndMinutes? rest).map fun (n, rest') => (-n, rest')
      else none

/-- The mark between date and time of day. -/
def dateEnd? (s : List Char) : Option (List Char) :=
  match s with
  | c :: rest => if c = 'T' ∨ c = 't' ∨ c = ' ' then some rest else none
  | [] => none

/-- The fields of a time as read: local date and time of day, and the offset. -/
structure Reading where
  date : Date
  hour : Nat
  minute : Nat
  second : Nat
  nanos : Nat
  offset : Int
  deriving DecidableEq, Repr

/-- The fields in their order, with nothing but blanks after them. -/
def Reading.of? (s : List Char) : Option Reading := do
  let (year, s) ← year? s
  let s ← mark? '-' s
  let (month, s) ← field? s
  let s ← mark? '-' s
  let (day, s) ← field? s
  let s ← dateEnd? s
  let (hour, s) ← field? s
  let s ← mark? ':' s
  let (minute, s) ← field? s
  let s ← mark? ':' s
  let (second, s) ← field? s
  let (nanos, s) ← fraction? s
  let (offset, s) ← offset? (trimStart s)
  if (trimStart s).isEmpty then some ⟨⟨year, month, day⟩, hour, minute, second, nanos, offset⟩
  else none

/-- The fields name a date and a time of day that exist, and an offset below one day. -/
def Reading.isValid (r : Reading) : Bool :=
  r.date.isValid && Timestamp.yearInRange r.date.year && decide (r.hour < 24) &&
    decide (r.minute < 60) && decide (r.second ≤ 60) &&
    decide (r.offset.natAbs < 86400)

/-- The instant of valid fields.  The second 60 is a leap second of its minute. -/
def Reading.instant (r : Reading) : Timestamp :=
  let leap := r.second = 60
  let second := if leap then 59 else r.second
  { seconds := r.date.dayNumber * 86400 + ((r.hour * 3600 + r.minute * 60 + second : Nat) : Int)
      - r.offset
    nanos := r.nanos + (if leap then Timestamp.nanosPerSecond else 0) }

def Timestamp.read? (s : List Char) : Option Timestamp := do
  let r ← Reading.of? s
  let t := r.instant
  if r.isValid && Timestamp.yearInRange (dateOfDay t.day).year then some t else none

end Tarpit.Time
