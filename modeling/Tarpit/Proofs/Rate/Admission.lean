import Mathlib.Tactic.Linarith
import Mathlib.Tactic.Ring
import Mathlib.Algebra.Order.Field.Rat
import Tarpit.Rate.Exact
import Tarpit.Proofs.Rate.Run

/-!
# How fast a client gets through

The level of a key is the potential: it grows by the rate at most, an admission
pays one token less the slack for it, and an eviction lends it one slack.
-/

namespace Tarpit.Rate

def secondsBetween (start now : Instant) : Rat :=
  ((now - start : Int) : Rat) / 1000000000

theorem secondsBetween_self (now : Instant) : secondsBetween now now = 0 := by
  simp [secondsBetween]

theorem secondsBetween_add (r s t : Instant) :
    secondsBetween r s + secondsBetween s t = secondsBetween r t := by
  simp only [secondsBetween, Int.cast_sub]
  ring

theorem secondsBetween_nonneg {s t : Instant} (h : s ≤ t) : 0 ≤ secondsBetween s t := by
  have hcast : (0 : Rat) ≤ ((t - s : Int) : Rat) := by exact_mod_cast Int.sub_nonneg.2 h
  exact div_nonneg hcast (by norm_num)

/-- Whole seconds and nanoseconds lose nothing of a duration. -/
theorem elapsed_eq {start now : Instant} (h : start ≤ now) :
    (elapsed start now : Rat) = secondsBetween start now := by
  obtain ⟨nanos, hnanos⟩ := Int.eq_ofNat_of_zero_le (Int.sub_nonneg.2 h)
  have hparts := Nat.div_add_mod nanos nanosPerSecond
  have hcast : (nanos : Rat) = 1000000000 * (nanos / nanosPerSecond : Nat)
      + (nanos % nanosPerSecond : Nat) := by
    exact_mod_cast hparts.symm
  unfold elapsed secondsBetween
  rw [hnanos, Int.toNat_natCast, Int.cast_natCast, hcast]
  show ((nanos / nanosPerSecond : Nat) : Rat) + ((nanos % nanosPerSecond : Nat) : Rat) / 1000000000
    = _
  ring

/-- A clock that went back stands still. -/
theorem elapsed_max {R : Type} [Level R] (start now : Instant) :
    (elapsed start (max start now) : R) = elapsed start now := by
  have hnanos : (max start now - start).toNat = (now - start).toNat := by omega
  unfold elapsed
  rw [hnanos]

theorem smaller_eq_min (x y : Rat) : Level.smaller x y = min x y :=
  (min_def x y).symm

theorem larger_eq_max (x y : Rat) : Level.larger x y = max x y := by
  rw [max_comm, max_def]
  rfl

/-! ## One bucket -/

namespace Bucket

variable {p : Policy Rat} {b : Bucket Rat} {s t now : Instant}

theorem reaches_iff (level bound : Rat) : reaches level bound ↔ bound ≤ level + 1 / 1000000 :=
  decide_eq_true_iff

theorem tokensAt_eq (h : b.updated ≤ now) :
    b.tokensAt p now = min (b.tokens + secondsBetween b.updated now * p.rate) p.burst := by
  unfold tokensAt
  rw [smaller_eq_min, elapsed_eq h]
  rfl

theorem tokensAt_max {R : Type} [Level R] (p : Policy R) (b : Bucket R) (now : Instant) :
    b.tokensAt p (max b.updated now) = b.tokensAt p now := by
  unfold tokensAt
  rw [elapsed_max]

theorem tokensAt_eq_min (p : Policy Rat) (b : Bucket Rat) (now : Instant) :
    b.tokensAt p now =
      min (b.tokens + secondsBetween b.updated (max b.updated now) * p.rate) p.burst := by
  rw [← tokensAt_max, tokensAt_eq (Int.le_max_left _ _)]

theorem tokensAt_le_burst (p : Policy Rat) (b : Bucket Rat) (now : Instant) :
    b.tokensAt p now ≤ p.burst :=
  smaller_le_right _ _

theorem tokensAt_nonneg (hrate : 0 ≤ p.rate) (htokens : 0 ≤ b.tokens) (h : b.updated ≤ now) :
    0 ≤ b.tokensAt p now := by
  have hgained := mul_nonneg (secondsBetween_nonneg h) hrate
  have hburst : (0 : Rat) ≤ p.burst := Nat.cast_nonneg _
  rw [tokensAt_eq h]
  exact le_min (by linarith) hburst

theorem tokensAt_grows (hrate : 0 ≤ p.rate) (h : b.updated ≤ s) (hst : s ≤ t) :
    b.tokensAt p t ≤ b.tokensAt p s + p.rate * secondsBetween s t := by
  have hgained := mul_nonneg hrate (secondsBetween_nonneg hst)
  have hsplit := secondsBetween_add b.updated s t
  rw [tokensAt_eq h, tokensAt_eq (Int.le_trans h hst), ← hsplit, ← min_add_add_right]
  apply le_min
  · refine (min_le_left _ _).trans (le_of_eq ?_)
    ring
  · exact (min_le_right _ _).trans (by linarith)

theorem tokensAt_of_updated (h : b.updated = now) : b.tokensAt p now = min b.tokens p.burst := by
  rw [tokensAt_eq (Int.le_of_eq h), h, secondsBetween_self, zero_mul, add_zero]

theorem tokensAt_full (p : Policy Rat) (now : Instant) : (full p now).tokensAt p now = p.burst := by
  have hupdated : (full p now).updated = now := rfl
  rw [tokensAt_of_updated hupdated]
  exact min_self _

/-- A call takes a token from the level of its instant, or leaves the bucket refilled. -/
theorem consume_cases_max (p : Policy Rat) (b : Bucket Rat) (now : Instant) :
    (1 ≤ b.tokensAt p now + 1 / 1000000 ∧
      b.consume p now = (true, ⟨max (b.tokensAt p now - 1) 0, max b.updated now⟩)) ∨
    (b.tokensAt p now + 1 / 1000000 < 1 ∧ b.consume p now = (false, b.refill p now)) := by
  have hone : (Level.ofTokens 1 : Rat) = 1 := Nat.cast_one
  have hzero : (Level.ofTokens 0 : Rat) = 0 := Nat.cast_zero
  simp only [consume, refill, hone, hzero, larger_eq_max]
  by_cases hreach : 1 ≤ b.tokensAt p now + 1 / 1000000
  · left
    rw [if_pos ((reaches_iff _ _).2 hreach)]
    exact ⟨hreach, rfl⟩
  · right
    rw [if_neg (mt (reaches_iff _ _).1 hreach)]
    exact ⟨lt_of_not_ge hreach, rfl⟩

theorem consume_cases (p : Policy Rat) (h : b.updated ≤ now) :
    (1 ≤ b.tokensAt p now + 1 / 1000000 ∧
      b.consume p now = (true, ⟨max (b.tokensAt p now - 1) 0, now⟩)) ∨
    (b.tokensAt p now + 1 / 1000000 < 1 ∧ b.consume p now = (false, ⟨b.tokensAt p now, now⟩)) := by
  have hcases := consume_cases_max p b now
  simp only [refill, Int.max_eq_right h] at hcases
  exact hcases

theorem updated_consume (h : b.updated ≤ now) : (b.consume p now).2.updated = now := by
  rcases consume_cases p h with ⟨-, hconsume⟩ | ⟨-, hconsume⟩
  · rw [hconsume]
  · rw [hconsume]

theorem tokens_consume_nonneg (hrate : 0 ≤ p.rate) (htokens : 0 ≤ b.tokens)
    (h : b.updated ≤ now) : 0 ≤ (b.consume p now).2.tokens := by
  rcases consume_cases p h with ⟨-, hconsume⟩ | ⟨-, hconsume⟩
  · rw [hconsume]
    exact le_max_right _ _
  · rw [hconsume]
    exact tokensAt_nonneg hrate htokens h

/-- An admission costs a token, or a slack less where the level is clamped at nothing. -/
theorem tokensAt_consume_add_le (p : Policy Rat) (h : b.updated ≤ now) :
    ((b.consume p now).1.toNat : Rat) * (1 - 1 / 1000000) + (b.consume p now).2.tokensAt p now ≤
      b.tokensAt p now := by
  rw [tokensAt_of_updated (updated_consume h)]
  have hleft := min_le_left (b.consume p now).2.tokens (p.burst : Rat)
  rcases consume_cases p h with ⟨hreach, hconsume⟩ | ⟨-, hconsume⟩
  · rw [hconsume] at hleft ⊢
    have hclamp : max (b.tokensAt p now - 1) 0 ≤ b.tokensAt p now - (1 - 1 / 1000000) :=
      max_le (by linarith) (by linarith)
    simp only [Bool.toNat_true, Nat.cast_one, one_mul] at hleft ⊢
    linarith
  · rw [hconsume] at hleft ⊢
    simp only [Bool.toNat_false, Nat.cast_zero, zero_mul, zero_add] at hleft ⊢
    exact hleft

end Bucket

/-! ## The level of a key -/

namespace Limiter

variable {l : Limiter Rat} {key : String} {s t m now : Instant}

/-- The level that a key has, one without a bucket that of a full one. -/
def levelOf (l : Limiter Rat) (key : String) (now : Instant) : Rat :=
  match l.bucket? key with
  | some b => b.tokensAt l.policy now
  | none => l.policy.burst

/-- No bucket is ahead of an instant, and none is in debt. -/
structure Steady (l : Limiter Rat) (m : Instant) : Prop where
  distinct : l.Distinct
  updated : ∀ key b, l.bucket? key = some b → b.updated ≤ m
  tokens : ∀ key b, l.bucket? key = some b → 0 ≤ b.tokens

theorem levelOf_some {b : Bucket Rat} (h : l.bucket? key = some b) :
    l.levelOf key now = b.tokensAt l.policy now := by
  unfold levelOf
  rw [h]

theorem levelOf_none (h : l.bucket? key = none) : l.levelOf key now = l.policy.burst := by
  unfold levelOf
  rw [h]

theorem levelOf_le_burst (l : Limiter Rat) (key : String) (now : Instant) :
    l.levelOf key now ≤ l.policy.burst := by
  unfold levelOf
  split
  · exact Bucket.tokensAt_le_burst _ _ _
  · exact le_refl _

theorem steady_new (p : Policy Rat) (m : Instant) : (new p).Steady m where
  distinct := distinct_new p
  updated := by
    intro key b hb
    cases hb
  tokens := by
    intro key b hb
    cases hb

theorem Steady.mono (h : l.Steady s) (hst : s ≤ t) : l.Steady t :=
  ⟨h.distinct, fun key b hb => Int.le_trans (h.updated key b hb) hst, h.tokens⟩

theorem Steady.levelOf_nonneg (h : l.Steady m) (hrate : 0 ≤ l.policy.rate) (key : String) :
    0 ≤ l.levelOf key m := by
  unfold levelOf
  split
  · next b hb => exact Bucket.tokensAt_nonneg hrate (h.tokens key b hb) (h.updated key b hb)
  · exact Nat.cast_nonneg _

theorem Steady.levelOf_grows (h : l.Steady s) (hrate : 0 ≤ l.policy.rate) (key : String)
    (hst : s ≤ t) : l.levelOf key t ≤ l.levelOf key s + l.policy.rate * secondsBetween s t := by
  have hgained := mul_nonneg hrate (secondsBetween_nonneg hst)
  unfold levelOf
  split
  · next b hb => exact Bucket.tokensAt_grows hrate (h.updated key b hb) hst
  · linarith

/-! ## One event -/

/-- A call spends from a bucket at the level of its key, or finds no room for one. -/
theorem Steady.call_cases (h : l.Steady m) (hnow : m ≤ now) (key : String) :
    (∃ b : Bucket Rat, b.updated ≤ now ∧ 0 ≤ b.tokens ∧
      l.levelOf key now = b.tokensAt l.policy now ∧
      (l.allow key now).1 = (b.consume l.policy now).1 ∧
      (l.after (.call key now)).bucket? key = some (b.consume l.policy now).2) ∨
    (l.bucket? key = none ∧ l.policy.limit ≤ l.tracked ∧ l.allow key now = (false, l)) := by
  cases hb : l.bucket? key with
  | some b =>
      left
      refine ⟨b, Int.le_trans (h.updated key b hb) hnow, h.tokens key b hb, levelOf_some hb, ?_, ?_⟩
      · simp only [allow, hb]
      · simp only [after, allow, hb]
        exact bucket?_setBucket_self hb _
  | none =>
      by_cases hroom : l.policy.limit ≤ l.tracked
      · right
        exact ⟨rfl, hroom, allow_at_limit hb hroom now⟩
      · left
        have hburst : (0 : Rat) ≤ l.policy.burst := Nat.cast_nonneg _
        refine ⟨Bucket.full l.policy now, Int.le_refl _, hburst, ?_, ?_, ?_⟩
        · rw [levelOf_none hb, Bucket.tokensAt_full]
        · simp only [allow, hb, if_neg hroom]
        · simp only [after, allow, hb, if_neg hroom]
          exact bucket?_addBucket_self hb _

/-- A bucket after an event was there before it, unless the event is a call of its key. -/
theorem Distinct.bucket?_after_cases (h : l.Distinct) (e : Event) {b : Bucket Rat}
    (hb : (l.after e).bucket? key = some b) : l.bucket? key = some b ∨ e = .call key e.time := by
  cases e with
  | sweep now =>
      left
      rw [show l.after (.sweep now) = l.swept now from rfl, bucket?_swept h,
        Option.filter_eq_some_iff] at hb
      exact hb.1
  | call other now =>
      by_cases hkey : key = other
      · right
        rw [hkey]
        rfl
      · left
        rw [bucket?_after_call_of_ne l hkey] at hb
        exact hb

theorem Steady.after (h : l.Steady m) (hrate : 0 ≤ l.policy.rate) {e : Event}
    (hnow : m ≤ e.time) : (l.after e).Steady e.time := by
  have hbucket : ∀ key b, (l.after e).bucket? key = some b → b.updated ≤ e.time ∧ 0 ≤ b.tokens := by
    intro key b hb
    rcases h.distinct.bucket?_after_cases e hb with hold | hcall
    · exact ⟨Int.le_trans (h.updated key b hold) hnow, h.tokens key b hold⟩
    · rw [hcall] at hb
      rcases h.call_cases hnow key with
        ⟨old, hupdated, htokens, -, -, hnew⟩ | ⟨hnone, -, hallow⟩
      · rw [hnew, Option.some.injEq] at hb
        rw [← hb]
        exact ⟨Int.le_of_eq (Bucket.updated_consume hupdated),
          Bucket.tokens_consume_nonneg hrate htokens hupdated⟩
      · rw [show l.after (.call key e.time) = (l.allow key e.time).2 from rfl, hallow, hnone] at hb
        cases hb
  exact ⟨h.distinct.after e, fun key b hb => (hbucket key b hb).1,
    fun key b hb => (hbucket key b hb).2⟩

theorem Steady.call_pays (h : l.Steady m) (hnow : m ≤ now) (key : String) :
    ((l.allow key now).1.toNat : Rat) * (1 - 1 / 1000000)
      + (l.after (.call key now)).levelOf key now ≤ l.levelOf key now := by
  rcases h.call_cases hnow key with ⟨b, hupdated, -, hlevel, hallowed, hnew⟩ | ⟨-, -, hallow⟩
  · have hspent := Bucket.tokensAt_consume_add_le l.policy hupdated
    rw [hallowed, hlevel, levelOf_some hnew, policy_after]
    exact hspent
  · have hafter : l.after (.call key now) = l := congrArg Prod.snd hallow
    rw [hallow, hafter, Bool.toNat_false, Nat.cast_zero, zero_mul, zero_add]

theorem levelOf_after_call_of_ne (l : Limiter Rat) {key other : String} (hkey : key ≠ other)
    (now : Instant) : (l.after (.call other now)).levelOf key now = l.levelOf key now := by
  unfold levelOf
  rw [bucket?_after_call_of_ne l hkey, policy_after]

/-- A sweep raises the level of a key by a slack, and only where it removes the bucket. -/
theorem Steady.sweep_pays (h : l.Steady m) (key : String) (now : Instant) :
    (l.after (.sweep now)).levelOf key now ≤
      l.levelOf key now + 1 / 1000000 * ((Moment.evicts key ⟨l, .sweep now⟩).toNat : Rat) := by
  have hswept : (l.after (.sweep now)).bucket? key =
      (l.bucket? key).filter fun b => !b.isFull l.policy now :=
    bucket?_swept h.distinct key now
  have hevicts : Moment.evicts key ⟨l, .sweep now⟩ =
      ((l.bucket? key).isSome && ((l.after (.sweep now)).bucket? key).isNone) := rfl
  cases hb : l.bucket? key with
  | none =>
      rw [hb, Option.filter_none] at hswept
      rw [hevicts, hb, levelOf_none hswept, levelOf_none hb, policy_after]
      simp
  | some b =>
      by_cases hfull : b.isFull l.policy now
      · rw [hb, Option.filter_some, hfull] at hswept
        have hreach : (l.policy.burst : Rat) ≤ b.tokensAt l.policy now + 1 / 1000000 :=
          (Bucket.reaches_iff _ _).1 hfull
        have hnone : (l.after (.sweep now)).bucket? key = none := hswept
        rw [hevicts, hb, hnone, levelOf_none hnone, levelOf_some hb, policy_after]
        simpa using hreach
      · rw [hb, Option.filter_some, Bool.eq_false_iff.2 hfull] at hswept
        have hkept : (l.after (.sweep now)).bucket? key = some b := hswept
        rw [hevicts, hb, hkept, levelOf_some hkept, levelOf_some hb, policy_after]
        simp

theorem Steady.pays (h : l.Steady m) {e : Event} (hnow : m ≤ e.time) (key : String) :
    ((Moment.admits key ⟨l, e⟩).toNat : Rat) * (1 - 1 / 1000000) + (l.after e).levelOf key e.time ≤
      l.levelOf key e.time + 1 / 1000000 * ((Moment.evicts key ⟨l, e⟩).toNat : Rat) := by
  cases e with
  | call other now =>
      have hevicts : Moment.evicts key ⟨l, .call other now⟩ = false := rfl
      rw [hevicts, Bool.toNat_false, Nat.cast_zero, mul_zero, add_zero]
      by_cases hkey : key = other
      · have hadmits : Moment.admits key ⟨l, .call other now⟩ = (l.allow key now).1 := by
          simp [Moment.admits, hkey]
        rw [hadmits, ← hkey]
        exact h.call_pays hnow key
      · have hadmits : Moment.admits key ⟨l, .call other now⟩ = false := by
          simp [Moment.admits, Ne.symm hkey]
        rw [hadmits, Bool.toNat_false, Nat.cast_zero, zero_mul, zero_add]
        exact le_of_eq (levelOf_after_call_of_ne l hkey now)
  | sweep now =>
      have hadmits : Moment.admits key ⟨l, .sweep now⟩ = false := rfl
      rw [hadmits, Bool.toNat_false, Nat.cast_zero, zero_mul, zero_add]
      exact h.sweep_pays key now

/-! ## Runs -/

variable {events : List Event}

theorem admissions_cons (l : Limiter Rat) (e : Event) (rest : List Event) (key : String)
    (s t : Instant) :
    l.admissions (e :: rest) key s t =
      (l.after e).admissions rest key s t
        + (Moment.within s t ⟨l, e⟩ && Moment.admits key ⟨l, e⟩).toNat := by
  simp only [admissions, history, List.countP_cons]
  cases (Moment.within s t ⟨l, e⟩ && Moment.admits key ⟨l, e⟩) <;> rfl

theorem evictions_cons (l : Limiter Rat) (e : Event) (rest : List Event) (key : String)
    (s t : Instant) :
    l.evictions (e :: rest) key s t =
      (l.after e).evictions rest key s t
        + (Moment.within s t ⟨l, e⟩ && Moment.evicts key ⟨l, e⟩).toNat := by
  simp only [evictions, history, List.countP_cons]
  cases (Moment.within s t ⟨l, e⟩ && Moment.evicts key ⟨l, e⟩) <;> rfl

theorem admissions_of_later (l : Limiter Rat) (key : String) (s : Instant)
    (hlater : ∀ e ∈ events, t < e.time) : l.admissions events key s t = 0 := by
  induction events generalizing l with
  | nil => rfl
  | cons e rest ih =>
      have he : ¬ e.time ≤ t := Int.not_le.2 (hlater e List.mem_cons_self)
      have hrest := ih (l.after e) fun f hf => hlater f (List.mem_cons_of_mem e hf)
      rw [admissions_cons, hrest]
      simp [Moment.within, he]

/-- From a moment inside the window the level of the key bounds what gets through. -/
theorem Steady.admissions_le_level (h : l.Steady m) (hrate : 0 ≤ l.policy.rate)
    (hordered : events.Pairwise fun e f => e.time ≤ f.time) (hafter : ∀ e ∈ events, m ≤ e.time)
    (key : String) (hsm : s ≤ m) (hmt : m ≤ t) :
    (l.admissions events key s t : Rat) * (1 - 1 / 1000000) ≤
      l.levelOf key m + l.policy.rate * secondsBetween m t
        + 1 / 1000000 * (l.evictions events key s t : Rat) := by
  induction events generalizing l m with
  | nil =>
      have hlevel := h.levelOf_nonneg hrate key
      have hgained := mul_nonneg hrate (secondsBetween_nonneg hmt)
      simp only [admissions, evictions, history, List.countP_nil, Nat.cast_zero, zero_mul, mul_zero]
      linarith
  | cons e rest ih =>
      have hnow : m ≤ e.time := hafter e List.mem_cons_self
      obtain ⟨hfirst, hrest⟩ := List.pairwise_cons.1 hordered
      by_cases het : e.time ≤ t
      · have hwithin : Moment.within s t ⟨l, e⟩ = true := by
          simp [Moment.within, Int.le_trans hsm hnow, het]
        have hstep := h.pays hnow key
        have hgrown := h.levelOf_grows hrate key hnow
        have hlast := ih (h.after hrate hnow) (by rwa [policy_after]) hrest hfirst
          (Int.le_trans hsm hnow) het
        have hsplit := secondsBetween_add m e.time t
        rw [policy_after] at hlast
        rw [admissions_cons, evictions_cons, hwithin, Bool.true_and, Bool.true_and, Nat.cast_add,
          Nat.cast_add, ← hsplit, mul_add, add_mul, mul_add]
        linarith
      · have hnone : l.admissions (e :: rest) key s t = 0 := by
          apply admissions_of_later
          intro f hf
          rcases List.mem_cons.1 hf with rfl | hf
          · exact Int.not_le.1 het
          · exact Int.lt_of_lt_of_le (Int.not_le.1 het) (hfirst f hf)
        have hlevel := h.levelOf_nonneg hrate key
        have hgained := mul_nonneg hrate (secondsBetween_nonneg hmt)
        have hlent : (0 : Rat) ≤ 1 / 1000000 * (l.evictions (e :: rest) key s t : Rat) :=
          mul_nonneg (by norm_num) (Nat.cast_nonneg _)
        rw [hnone, Nat.cast_zero, zero_mul]
        linarith

/-- Events before the window only decide the level that it starts with. -/
theorem Steady.admissions_between_le (h : l.Steady m) (hrate : 0 ≤ l.policy.rate)
    (hordered : events.Pairwise fun e f => e.time ≤ f.time) (hafter : ∀ e ∈ events, m ≤ e.time)
    (key : String) (hms : m ≤ s) (hst : s ≤ t) :
    (l.admissions events key s t : Rat) * (1 - 1 / 1000000) ≤
      l.policy.burst + l.policy.rate * secondsBetween s t
        + 1 / 1000000 * (l.evictions events key s t : Rat) := by
  induction events generalizing l m with
  | nil =>
      have hwindow := (h.mono hms).admissions_le_level hrate hordered (by simp) key
        (Int.le_refl s) hst
      have hburst := levelOf_le_burst l key s
      linarith
  | cons e rest ih =>
      obtain ⟨hfirst, hrest⟩ := List.pairwise_cons.1 hordered
      have hnow : m ≤ e.time := hafter e List.mem_cons_self
      by_cases hearly : e.time < s
      · have hwithin : Moment.within s t ⟨l, e⟩ = false := by
          simp [Moment.within, hearly]
        have hlast := ih (h.after hrate hnow) (by rwa [policy_after]) hrest hfirst
          (Int.le_of_lt hearly)
        rw [policy_after] at hlast
        rw [admissions_cons, evictions_cons, hwithin, Bool.false_and, Bool.false_and]
        exact hlast
      · have hlate : ∀ f ∈ e :: rest, s ≤ f.time := by
          intro f hf
          rcases List.mem_cons.1 hf with rfl | hf
          · exact Int.not_lt.1 hearly
          · exact Int.le_trans (Int.not_lt.1 hearly) (hfirst f hf)
        have hwindow := (h.mono hms).admissions_le_level hrate hordered hlate key
          (Int.le_refl s) hst
        have hburst := levelOf_le_burst l key s
        linarith

/--
Between two instants of a run no client gets through faster than its burst and
the rate allow, but for the slack of every admission and every eviction.
-/
theorem admissions_le (p : Policy Rat) (hrate : 0 ≤ p.rate)
    (hordered : events.Pairwise fun e f => e.time ≤ f.time) (key : String) (hst : s ≤ t) :
    ((new p).admissions events key s t : Rat) * (1 - 1 / 1000000) ≤
      p.burst + p.rate * secondsBetween s t
        + 1 / 1000000 * ((new p).evictions events key s t : Rat) := by
  obtain ⟨m, hms, hafter⟩ : ∃ m ≤ s, ∀ e ∈ events, m ≤ e.time := by
    cases events with
    | nil => exact ⟨s, Int.le_refl s, by simp⟩
    | cons e rest =>
        obtain ⟨hfirst, -⟩ := List.pairwise_cons.1 hordered
        refine ⟨min s e.time, Int.min_le_left _ _, ?_⟩
        intro f hf
        rcases List.mem_cons.1 hf with rfl | hf
        · exact Int.min_le_right _ _
        · exact Int.le_trans (Int.min_le_right _ _) (hfirst f hf)
  exact (steady_new p m).admissions_between_le hrate hordered hafter key hms hst

/-- A run in which a bucket is emptied, refused, refilled, swept away and made anew. -/
def sweptRun : List Event :=
  [.call "a" 0, .call "a" 0, .call "a" 0, .call "b" 1, .call "a" 1000000000,
    .sweep 3999999500, .call "a" 4000000000, .call "a" 4000000000, .call "a" 4000000000]

theorem admissions_sweptRun_le :
    (new ⟨1, 2, 5⟩ : Limiter Rat).admissions sweptRun "a" 0 4000000000 = 5 ∧
    (new ⟨1, 2, 5⟩ : Limiter Rat).evictions sweptRun "a" 0 4000000000 = 1 ∧
    ((new ⟨1, 2, 5⟩ : Limiter Rat).admissions sweptRun "a" 0 4000000000 : Rat)
        * (1 - 1 / 1000000) ≤
      (2 : Nat) + 1 * secondsBetween 0 4000000000
        + 1 / 1000000 * ((new ⟨1, 2, 5⟩ : Limiter Rat).evictions sweptRun "a" 0 4000000000 : Rat) :=
  ⟨by decide +kernel, by decide +kernel,
    admissions_le ⟨1, 2, 5⟩ (by decide +kernel) (by decide +kernel) "a" (by decide)⟩

end Limiter

end Tarpit.Rate
