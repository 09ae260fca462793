/-!
# Token levels

The numbers that token levels are counted in, with the few operations that the
limiter uses.  The limiter itself runs on doubles.
-/

namespace Tarpit.Rate

/-- An instant of the running clock in nanoseconds. -/
abbrev Instant := Int

/-- Numbers that levels are counted in. -/
class Level (R : Type) where
  /-- The level of some whole tokens. -/
  ofTokens : Nat → R
  /-- A number of seconds, given as whole seconds and nanoseconds. -/
  ofSeconds : Nat → Nat → R
  /-- How far below a bound a level may fall and still reach it. -/
  slack : R
  plus : R → R → R
  minus : R → R → R
  times : R → R → R
  /-- The smaller of two levels. -/
  smaller : R → R → R
  /-- The larger of two levels. -/
  larger : R → R → R
  /-- The first level is at least the second. -/
  atLeast : R → R → Bool

def nanosPerSecond : Nat := 1000000000

/-- The seconds from one instant to another, none if the clock went back. -/
def elapsed {R : Type} [Level R] (start now : Instant) : R :=
  let nanos := (now - start).toNat
  Level.ofSeconds (nanos / nanosPerSecond) (nanos % nanosPerSecond)

/-- The first of two doubles by an order; one that is no number gives way to the other. -/
def pickFloat (isFirst : Float → Float → Bool) (x y : Float) : Float :=
  if x.isNaN then y
  else if y.isNaN then x
  else if isFirst x y then x
  else y

instance : Level Float where
  ofTokens n := n.toFloat
  ofSeconds seconds nanos := seconds.toFloat + nanos.toFloat / 1e9
  slack := 1e-6
  plus x y := x + y
  minus x y := x - y
  times x y := x * y
  smaller := pickFloat fun x y => x ≤ y
  larger := pickFloat fun x y => y ≤ x
  atLeast x y := y ≤ x

end Tarpit.Rate
