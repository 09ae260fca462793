import Tarpit.Proofs.Number.Normal
import Tarpit.Rate.Limiter

/-!
# The first request

The limiter runs on doubles, and there a new bucket holds a token: the levels of
a burst are normal doubles of at least one, the slack takes nothing from them,
and no time at a finite rate adds nothing.  So with nobody tracked the first
request of a client is let through.
-/

namespace Tarpit.Rate

open Tarpit.Number (Normal normal_ofNat zero_mul_of_pos)

theorem elapsed_self (now : Instant) : (elapsed now now : Float) = 0 := by
  have hstill : (Level.ofSeconds 0 0 : Float) = 0 := by decide +kernel
  rw [elapsed, Int.sub_self]
  exact hstill

theorem pickFloat_self (isFirst : Float → Float → Bool) (x : Float) :
    pickFloat isFirst x x = x := by
  unfold pickFloat
  simp only [ite_self]

theorem normal_slack : Normal (-72) (-72) Level.slack :=
  ⟨.finite .positive 4722366482869645 (-72) (by decide),
    ⟨_, _, _, rfl, by decide, by decide, by decide, by decide⟩, by decide +kernel⟩

namespace Bucket

theorem reaches_one {x : Float} {high : Int} (h : Normal (-52) high x) (hhigh : high ≤ 900) :
    reaches x (Level.ofTokens 1) = true := by
  have hsum : Normal (-52) (max high (-72) + 2) (x + Level.slack) :=
    h.add normal_slack (by decide) (by omega) (by decide) (by decide)
  exact decide_eq_true (hsum.one_le (by decide) (by omega))

variable {p : Policy Float}

theorem normal_capacity (hburst : 0 < p.burst) (hfits : p.burst < 2 ^ 53) :
    Normal (-52) 3 p.capacity :=
  normal_ofNat hburst hfits

theorem tokensAt_full_double (hfinite : p.rate.isFinite = true) (hrate : 0 < p.rate)
    (hburst : 0 < p.burst) (hfits : p.burst < 2 ^ 53) (now : Instant) :
    (full p now).tokensAt p now = p.capacity := by
  have hgain : Level.times (elapsed now now) p.rate = 0 := by
    rw [elapsed_self]
    exact zero_mul_of_pos hfinite hrate
  have hlevel : Level.plus p.capacity (0 : Float) = p.capacity :=
    (normal_capacity hburst hfits).add_zero (by decide) (by decide)
  rw [tokensAt, full, hgain, hlevel]
  exact pickFloat_self _ _

theorem consume_full_double (hfinite : p.rate.isFinite = true) (hrate : 0 < p.rate)
    (hburst : 0 < p.burst) (hfits : p.burst < 2 ^ 53) (now : Instant) :
    ((full p now).consume p now).1 = true := by
  have hreaches : reaches ((full p now).tokensAt p now) (Level.ofTokens 1) = true := by
    rw [tokensAt_full_double hfinite hrate hburst hfits]
    exact reaches_one (normal_capacity hburst hfits) (by decide)
  simp only [consume, refill, hreaches, if_true]

end Bucket

theorem Limiter.allow_of_untracked {l : Limiter Float} (hfinite : l.policy.rate.isFinite = true)
    (hrate : 0 < l.policy.rate) (hburst : 0 < l.policy.burst) (hfits : l.policy.burst < 2 ^ 53)
    (hlimit : 0 < l.policy.limit) (huntracked : l.tracked = 0) (key : String) (now : Instant) :
    (l.allow key now).1 = true := by
  have hnone : l.bucket? key = none := by
    rw [bucket?, List.length_eq_zero_iff.1 huntracked]
    rfl
  have hroom : ¬ l.policy.limit ≤ l.tracked := by omega
  simp only [allow, hnone, if_neg hroom]
  exact Bucket.consume_full_double hfinite hrate hburst hfits now

end Tarpit.Rate
