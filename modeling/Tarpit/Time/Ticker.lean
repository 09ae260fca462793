/-!
# Tickers

A ticker is due once per period after its start.  Ticks that were missed are all
delivered when the time is next looked at.
-/

namespace Tarpit.Time

/-- A ticker, with the running time at which its next tick falls due. -/
structure Ticker where
  period : Nat
  due : Nat
  deriving DecidableEq, Repr

namespace Ticker

/-- A ticker started now; its first tick is a whole period away. -/
def start (period now : Nat) : Ticker :=
  ⟨period, now + period⟩

/-- The number of ticks that have fallen due. -/
def ticks (t : Ticker) (now : Nat) : Nat :=
  if now < t.due then 0 else (now - t.due) / t.period + 1

/-- The ticker after its due ticks were delivered. -/
def advance (t : Ticker) (now : Nat) : Ticker :=
  { t with due := t.due + t.ticks now * t.period }

theorem ticks_eq_zero_iff {t : Ticker} {now : Nat} : t.ticks now = 0 ↔ now < t.due := by
  unfold ticks
  split
  · next h => simp [h]
  · next h => simp [h]

theorem ticks_advance {t : Ticker} (h : 0 < t.period) (now : Nat) :
    (t.advance now).ticks now = 0 := by
  rw [ticks_eq_zero_iff]
  unfold advance ticks
  simp only
  split
  · next hdue => omega
  · next hdue =>
      have hlt := Nat.lt_div_mul_add (a := now - t.due) h
      have hexpand : ((now - t.due) / t.period + 1) * t.period =
          (now - t.due) / t.period * t.period + t.period := by
        rw [Nat.add_mul, Nat.one_mul]
      omega

end Ticker

end Tarpit.Time
