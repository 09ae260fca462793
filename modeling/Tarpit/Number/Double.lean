import Tarpit.Number.Decimal
import Tarpit.Number.Shortest

/-!
# Text of doubles

Writing a double as the shortest decimal that reads back, always positional, and
reading a decimal text as the nearest double.
-/

namespace Tarpit.Number

/-- The interval of the reals that round to the finite positive double with these bits. -/
def doubleInterval (bits : Nat) : Interval :=
  let fraction : Nat := bits % (1 <<< 52)
  let field : Nat := (bits >>> 52) % (1 <<< 11)
  let m : Nat := if field = 0 then fraction else (1 <<< 52) + fraction
  let q : Int := (if field = 0 then 1 else (field : Int)) - 1075
  -- below a power of two the doubles lie closer
  let down : Nat := if fraction = 0 ∧ 1 < field then 1 else 2
  let s := q - 2
  let scale : Nat := 1 <<< s.toNat
  { low := (4 * m - down) * scale
    middle := 4 * m * scale
    high := (4 * m + 2) * scale
    den := 1 <<< (-s).toNat
    closed := m % 2 = 0 }

def doubleText (x : Float) : List Char :=
  if x.isNaN then "NaN".toList
  else
    let bits := x.toBits.toNat
    let sign := if bits < 1 <<< 63 then [] else ['-']
    let magnitude := bits % (1 <<< 63)
    if magnitude = 0 then sign ++ ['0']
    else if (0x7FF <<< 52) ≤ magnitude then sign ++ "inf".toList
    else sign ++ (doubleInterval magnitude).shortest.positional

/-- The exponent part of a decimal text: absent, or a letter, a sign and digits. -/
def exponent? (s : List Char) : Option Int :=
  match s with
  | [] => some 0
  | c :: rest =>
      if c = 'e' ∨ c = 'E' then
        match rest with
        | '-' :: ds => (natural? ds).map fun n => -(n : Int)
        | '+' :: ds => (natural? ds).map fun n => (n : Int)
        | ds => (natural? ds).map fun n => (n : Int)
      else none

/-- A decimal without sign: digits with an optional point and an optional exponent. -/
def decimal? (s : List Char) : Option Decimal :=
  let whole := s.takeWhile isDigit
  let afterWhole := s.dropWhile isDigit
  let places := match afterWhole with
    | '.' :: rest => rest.takeWhile isDigit
    | _ => []
  let afterPlaces := match afterWhole with
    | '.' :: rest => rest.dropWhile isDigit
    | _ => afterWhole
  if whole.isEmpty && places.isEmpty then none
  else
    (exponent? afterPlaces).map fun e => ⟨value (whole ++ places), e - (places.length : Int)⟩

/-- The double nearest to a decimal; past the largest one infinity, below the least one zero. -/
def Decimal.toDouble (d : Decimal) : Float :=
  if d.coefficient = 0 then 0
  else
    let magnitude : Int := ((Nat.toDigits 10 d.coefficient).length : Int) + d.exponent
    if 400 < magnitude then 1.0 / 0.0
    else if magnitude < -400 then 0
    else Float.ofScientific d.coefficient (d.exponent < 0) d.exponent.natAbs

/-- A double without sign, as a decimal or as one of the three words. -/
def unsignedDouble? (s : List Char) : Option Float :=
  let word := String.ofList (s.map Char.toLower)
  if word = "inf" ∨ word = "infinity" then some (1.0 / 0.0)
  else if word = "nan" then some (0.0 / 0.0)
  else (decimal? s).map Decimal.toDouble

def double? (s : List Char) : Option Float :=
  match s with
  | '-' :: rest => (unsignedDouble? rest).map fun x => -x
  | '+' :: rest => unsignedDouble? rest
  | _ => unsignedDouble? s

/-- The bits of a double as sixteen digits, or the word for no number. -/
def doubleBits (x : Float) : List Char :=
  if x.isNaN then "NaN".toList
  else
    let ds := Nat.toDigits 16 x.toBits.toNat
    List.replicate (16 - ds.length) '0' ++ ds

end Tarpit.Number
