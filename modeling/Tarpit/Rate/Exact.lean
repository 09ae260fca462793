import Tarpit.Rate.Level

/-!
# Exact levels

Levels as rational numbers, in which no operation rounds.
-/

namespace Tarpit.Rate

instance : Level Rat where
  ofTokens n := (n : Rat)
  ofSeconds seconds nanos := (seconds : Rat) + (nanos : Rat) / 1000000000
  slack := 1 / 1000000
  plus x y := x + y
  minus x y := x - y
  times x y := x * y
  smaller x y := if x ≤ y then x else y
  larger x y := if y ≤ x then x else y
  atLeast x y := decide (y ≤ x)

theorem smaller_le_right (x y : Rat) : Level.smaller x y ≤ y := by
  show (if x ≤ y then x else y) ≤ y
  split
  · next h => exact h
  · exact Rat.le_refl

end Tarpit.Rate
