/-!
# Shortest decimals

The decimal with the fewest digits inside an interval around a positive value
`num / den`.  On each grid of multiples of a power of ten only the two
neighbours of the value can be the nearest points, so the search looks at these,
from coarse grids to fine ones.
-/

namespace Tarpit.Number

/-- A positive value `middle` with the ends of the interval that rounds to it. -/
structure Interval where
  low : Nat
  middle : Nat
  high : Nat
  /-- The common denominator of the three. -/
  den : Nat
  /-- Whether the ends themselves round to the value. -/
  closed : Bool

/-- A point `n` of the grid lies inside the interval. -/
def Interval.holds (i : Interval) (n : Nat) : Bool :=
  let point := n * i.den
  if i.closed then i.low ≤ point && point ≤ i.high
  else i.low < point && point < i.high

/-- The interval seen in units of `10 ^ p`. -/
def Interval.scaled (i : Interval) (p : Int) : Interval :=
  if 0 ≤ p then { i with den := i.den * Nat.pow 10 p.toNat }
  else
    let factor := Nat.pow 10 (-p).toNat
    { i with low := i.low * factor, middle := i.middle * factor, high := i.high * factor }

/-- The nearer grid neighbour of the middle inside the interval; a tie goes up. -/
def Interval.nearest? (i : Interval) : Option Nat :=
  let below := i.middle / i.den
  let above := below + 1
  match i.holds below, i.holds above with
  | true, true => if 2 * (i.middle % i.den) < i.den then some below else some above
  | true, false => some below
  | false, true => some above
  | false, false => none

/-- A number of the grid `10 ^ exponent`. -/
structure Decimal where
  coefficient : Nat
  exponent : Int
  deriving DecidableEq, Repr

/-- The search from the grid `10 ^ p` to finer ones. -/
def Interval.shortestFrom (i : Interval) : Nat → Int → Decimal
  | 0, p => ⟨(i.scaled p).middle / (i.scaled p).den, p⟩
  | fuel + 1, p =>
      match (i.scaled p).nearest? with
      | some n => ⟨n, p⟩
      | none => i.shortestFrom fuel (p - 1)

/--
The shortest decimal of the interval.  The first grid has a unit above the
value, and forty grids further the unit is far below the width of the interval
around any double.
-/
def Interval.shortest (i : Interval) : Decimal :=
  let magnitude : Int :=
    ((Nat.toDigits 10 i.middle).length : Int) - ((Nat.toDigits 10 i.den).length : Int)
  i.shortestFrom 40 (magnitude + 2)

/-- The digits of a decimal in positional notation, with no exponent. -/
def Decimal.positional (d : Decimal) : List Char :=
  let ds := Nat.toDigits 10 d.coefficient
  if 0 ≤ d.exponent then ds ++ List.replicate d.exponent.toNat '0'
  else
    let places := (-d.exponent).toNat
    if places < ds.length then
      ds.take (ds.length - places) ++ '.' :: ds.drop (ds.length - places)
    else '0' :: '.' :: List.replicate (places - ds.length) '0' ++ ds

end Tarpit.Number
