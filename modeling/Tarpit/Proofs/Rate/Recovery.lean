import Mathlib.Data.Rat.Floor
import Tarpit.Proofs.Rate.Admission
import Tarpit.Proofs.Rate.Isolation

/-!
# Bursts and recovery

Of some calls of a key at one instant the first few get through, as many as the
level of the key has tokens.  A key that was turned away has as many tokens
later as the rate gives back in the meantime, up to the burst.
-/

namespace Tarpit.Rate

/-- The answers to some calls of which the first few get through. -/
def firstAdmitted (calls admitted : Nat) : List Bool :=
  List.replicate (min calls admitted) true ++ List.replicate (calls - admitted) false

theorem firstAdmitted_succ_succ (n k : Nat) :
    firstAdmitted (n + 1) (k + 1) = true :: firstAdmitted n k := by
  unfold firstAdmitted
  rw [Nat.succ_min_succ, Nat.succ_sub_succ, List.replicate_succ, List.cons_append]

theorem firstAdmitted_succ_zero (n : Nat) :
    firstAdmitted (n + 1) 0 = false :: firstAdmitted n 0 := by
  simp [firstAdmitted, List.replicate_succ]

/-! ## Tokens of a level -/

/-- The tokens that a level has for calls at one instant. -/
def wholeTokens (level : Rat) : Nat :=
  ⌊level + 1 / 1000000⌋₊

theorem wholeTokens_of_short {level : Rat} (h : level + 1 / 1000000 < 1) :
    wholeTokens level = 0 :=
  Nat.floor_eq_zero.2 h

theorem wholeTokens_natCast (n : Nat) : wholeTokens n = n := by
  refine (Nat.floor_eq_iff (by positivity)).2 ⟨?_, ?_⟩
  · linarith
  · linarith

/-- An admission takes one whole token, also where it clamps the level at nothing. -/
theorem wholeTokens_spent {level : Rat} (h : 1 ≤ level + 1 / 1000000) :
    wholeTokens level = wholeTokens (max (level - 1) 0) + 1 := by
  rcases le_total 1 level with hone | hone
  · rw [max_eq_left (by linarith), wholeTokens, wholeTokens, ← Nat.floor_add_one (by linarith)]
    congr 1
    ring
  · have hnothing : wholeTokens 0 = 0 := wholeTokens_of_short (by norm_num)
    rw [max_eq_right (by linarith), hnothing]
    refine (Nat.floor_eq_iff (by linarith)).2 ⟨?_, ?_⟩
    · rw [zero_add, Nat.cast_one]
      exact h
    · push_cast
      linarith

/-- What is short of a token has as many whole tokens later as it was given. -/
theorem wholeTokens_recovered {level : Rat} (hlevel : 0 ≤ level)
    (hshort : level + 1 / 1000000 < 1) (given burst : Nat) :
    wholeTokens (min (level + given) burst) = min given burst := by
  rcases Nat.lt_or_ge given burst with hlt | hge
  · have hcap : ((given + 1 : Nat) : Rat) ≤ burst := by exact_mod_cast hlt
    push_cast at hcap
    rw [min_eq_left (by linarith), Nat.min_eq_left (Nat.le_of_lt hlt)]
    refine (Nat.floor_eq_iff (by positivity)).2 ⟨?_, ?_⟩
    · linarith
    · linarith
  · have hcap : (burst : Rat) ≤ given := by exact_mod_cast hge
    rw [min_eq_right (by linarith), Nat.min_eq_right hge, wholeTokens_natCast]

namespace Limiter

/-! ## Several calls at one instant -/

section

variable {R : Type} [Level R]

/-- The key has a bucket, or there is room for one. -/
def HasPlace (l : Limiter R) (key : String) : Prop :=
  (l.bucket? key).isSome = true ∨ l.tracked < l.policy.limit

end

variable {l : Limiter Rat} {key : String} {s t m now : Instant} {events : List Event}

/-- A call of a key with a place takes a token from its level, or leaves it where it is short. -/
theorem Steady.call_spends (h : l.Steady now) (hplace : l.HasPlace key) :
    (1 ≤ l.levelOf key now + 1 / 1000000 ∧ (l.allow key now).1 = true ∧
      (l.after (.call key now)).bucket? key = some ⟨max (l.levelOf key now - 1) 0, now⟩) ∨
    (l.levelOf key now + 1 / 1000000 < 1 ∧ (l.allow key now).1 = false ∧
      (l.after (.call key now)).bucket? key = some ⟨l.levelOf key now, now⟩) := by
  rcases h.call_cases (Int.le_refl now) key with
    ⟨b, hupdated, -, hlevel, hanswer, hleft⟩ | ⟨hnone, hlimit, -⟩
  · rw [hlevel, hanswer, hleft]
    rcases Bucket.consume_cases l.policy hupdated with ⟨hreach, hconsume⟩ | ⟨hshort, hconsume⟩
    · left
      rw [hconsume]
      exact ⟨hreach, rfl, rfl⟩
    · right
      rw [hconsume]
      exact ⟨hshort, rfl, rfl⟩
  · rcases hplace with hsome | hroom
    · rw [hnone] at hsome
      cases hsome
    · omega

/-- Of some calls at one instant those get through that the level of the key has tokens for. -/
theorem Steady.allowTimes_eq (h : l.Steady now) (hrate : 0 ≤ l.policy.rate)
    (hplace : l.HasPlace key) (n : Nat) :
    (l.allowTimes key now n).1 = firstAdmitted n (wholeTokens (l.levelOf key now)) := by
  induction n generalizing l with
  | zero => simp [allowTimes, allowMore, firstAdmitted]
  | succ n ih =>
      have hafter : (l.after (.call key now)).Steady now := h.after hrate (Int.le_refl now)
      have hlevel := h.levelOf_nonneg hrate key
      have hcap := levelOf_le_burst l key now
      rw [allowTimes_succ]
      rcases h.call_spends hplace with ⟨hreach, hanswer, hleft⟩ | ⟨hshort, hanswer, hleft⟩
      · have hrest := ih hafter (by rwa [policy_after]) (.inl (by rw [hleft]; rfl))
        have hspent : max (l.levelOf key now - 1) 0 ≤ (l.policy.burst : Rat) :=
          max_le (by linarith) (by linarith)
        rw [levelOf_some hleft, Bucket.tokensAt_of_updated rfl, policy_after,
          min_eq_left hspent] at hrest
        rw [hanswer, wholeTokens_spent hreach, firstAdmitted_succ_succ]
        exact congrArg (true :: ·) hrest
      · have hrest := ih hafter (by rwa [policy_after]) (.inl (by rw [hleft]; rfl))
        rw [levelOf_some hleft, Bucket.tokensAt_of_updated rfl, policy_after, min_eq_left hcap,
          wholeTokens_of_short hshort] at hrest
        rw [hanswer, wholeTokens_of_short hshort, firstAdmitted_succ_zero]
        exact congrArg (false :: ·) hrest

/-! ## While a key waits -/

/-- Events in order between two instants, none of which is a call of the key. -/
structure Pause (events : List Event) (key : String) (start stop : Instant) : Prop where
  ordered : events.Pairwise fun e f => e.time ≤ f.time
  within : ∀ e ∈ events, start ≤ e.time ∧ e.time ≤ stop
  others : ∀ e ∈ events, e.caller? ≠ some key
  start_le : start ≤ stop

theorem Steady.afterAll (h : l.Steady s) (hrate : 0 ≤ l.policy.rate)
    (hordered : events.Pairwise fun e f => e.time ≤ f.time)
    (hwithin : ∀ e ∈ events, s ≤ e.time ∧ e.time ≤ t) (hst : s ≤ t) :
    (l.afterAll events).Steady t := by
  induction events generalizing l s with
  | nil => exact h.mono hst
  | cons e rest ih =>
      obtain ⟨hfirst, hrest⟩ := List.pairwise_cons.1 hordered
      obtain ⟨hlater, hearlier⟩ := hwithin e List.mem_cons_self
      exact ih (h.after hrate hlater) (by rwa [policy_after]) hrest
        (fun f hf => ⟨hfirst f hf, (hwithin f (List.mem_cons_of_mem e hf)).2⟩) hearlier

theorem steady_afterAll_new (p : Policy Rat) (hrate : 0 ≤ p.rate)
    (hordered : events.Pairwise fun e f => e.time ≤ f.time) (hnow : ∀ e ∈ events, e.time ≤ now) :
    ((new p).afterAll events).Steady now := by
  cases events with
  | nil => exact steady_new p now
  | cons e rest =>
      refine (steady_new p e.time).afterAll hrate hordered ?_ (hnow e List.mem_cons_self)
      intro f hf
      refine ⟨?_, hnow f hf⟩
      rcases List.mem_cons.1 hf with rfl | hf
      · exact Int.le_refl _
      · exact (List.pairwise_cons.1 hordered).1 f hf

/-- A bucket behind events that are no calls of its key was there before them. -/
theorem Distinct.bucket?_of_afterAll (h : l.Distinct)
    (hothers : ∀ e ∈ events, e.caller? ≠ some key) {b : Bucket Rat}
    (hb : (l.afterAll events).bucket? key = some b) : l.bucket? key = some b := by
  induction events generalizing l with
  | nil => exact hb
  | cons e rest ih =>
      have hafter : (l.after e).bucket? key = some b :=
        ih (h.after e) (fun f hf => hothers f (List.mem_cons_of_mem e hf)) hb
      rcases h.bucket?_after_cases e hafter with hbefore | hcall
      · exact hbefore
      · have hcaller : e.caller? = some key := by rw [hcall]; rfl
        exact absurd hcaller (hothers e List.mem_cons_self)

/-- Calls of other keys leave the bucket of a key alone. -/
theorem bucket?_afterAll_of_calls (l : Limiter Rat)
    (hcalls : ∀ e ∈ events, e.caller?.isSome = true)
    (hothers : ∀ e ∈ events, e.caller? ≠ some key) :
    (l.afterAll events).bucket? key = l.bucket? key := by
  induction events generalizing l with
  | nil => rfl
  | cons e rest ih =>
      have hrest := ih (l.after e) (fun f hf => hcalls f (List.mem_cons_of_mem e hf))
        (fun f hf => hothers f (List.mem_cons_of_mem e hf))
      cases e with
      | sweep now => cases hcalls _ List.mem_cons_self
      | call other now =>
          have hkey : key ≠ other := fun hkey =>
            hothers _ List.mem_cons_self (congrArg some hkey.symm)
          exact hrest.trans (bucket?_after_call_of_ne l hkey now)

/-! ## After a call that was turned away -/

/-- A bucket that a call found short is left with its level. -/
theorem Steady.refused_leaves (h : l.Steady now) (hsome : (l.bucket? key).isSome = true)
    (hrefused : (l.allow key now).1 = false) :
    l.levelOf key now + 1 / 1000000 < 1 ∧
      (l.after (.call key now)).bucket? key = some ⟨l.levelOf key now, now⟩ := by
  rcases h.call_spends (.inl hsome) with ⟨-, hadmitted, -⟩ | ⟨hshort, -, hleft⟩
  · rw [hadmitted] at hrefused
    cases hrefused
  · exact ⟨hshort, hleft⟩

/-- In the time for a token, cut to whole nanoseconds, at most a slack of it is missing. -/
theorem token_of_nanoseconds {rate : Rat} (hrate : 0 < rate) (hslow : rate ≤ 1000)
    {start stop : Instant} (h : start + ⌊1000000000 / rate⌋ ≤ stop) :
    1 - 1 / 1000000 < secondsBetween start stop * rate := by
  have hfloor := Int.lt_floor_add_one (1000000000 / rate)
  have hcast : ((⌊1000000000 / rate⌋ : Int) : Rat) ≤ ((stop - start : Int) : Rat) := by
    exact_mod_cast (show ⌊1000000000 / rate⌋ ≤ stop - start by linarith)
  have hnanos : 1000000000 / rate < ((stop - start : Int) : Rat) + 1 := by linarith
  rw [div_lt_iff₀ hrate, add_mul, one_mul] at hnanos
  rw [secondsBetween, div_mul_eq_mul_div, lt_div_iff₀ (by norm_num)]
  linarith

section

variable {pause : List Event} {later : Instant}

/-- The level of a key that was turned away, after a pause in which its bucket stayed. -/
theorem Steady.levelOf_after_pause (h : l.Steady now) (hsome : (l.bucket? key).isSome = true)
    (hrefused : (l.allow key now).1 = false) (hlater : now ≤ later)
    (hkept : (l.afterAll (.call key now :: pause)).bucket? key =
      (l.after (.call key now)).bucket? key) :
    (l.afterAll (.call key now :: pause)).levelOf key later =
      min (l.levelOf key now + secondsBetween now later * l.policy.rate) l.policy.burst := by
  obtain ⟨-, hleft⟩ := h.refused_leaves hsome hrefused
  rw [levelOf_some (hkept.trans hleft), policy_afterAll, Bucket.tokensAt_eq hlater]

theorem Steady.after_pause (h : l.Steady now) (hrate : 0 ≤ l.policy.rate)
    (hpause : Pause pause key now later) : (l.afterAll (.call key now :: pause)).Steady later := by
  have hafter : (l.after (.call key now)).Steady now := h.after hrate (Int.le_refl now)
  exact hafter.afterAll (by rwa [policy_after]) hpause.ordered hpause.within hpause.start_le

/-- A pause without sweeps gives a key the tokens of its time. -/
theorem Steady.allowTimes_after_pause (h : l.Steady now) (hrate : 0 < l.policy.rate)
    (hsome : (l.bucket? key).isSome = true) (hrefused : (l.allow key now).1 = false)
    (hpause : Pause pause key now later) (hcalls : ∀ e ∈ pause, e.caller?.isSome = true) {m : Nat}
    (hlater : secondsBetween now later = m / l.policy.rate) (n : Nat) :
    ((l.afterAll (.call key now :: pause)).allowTimes key later n).1 =
      firstAdmitted n (min m l.policy.burst) := by
  have hnonneg : 0 ≤ l.policy.rate := le_of_lt hrate
  obtain ⟨hshort, hleft⟩ := h.refused_leaves hsome hrefused
  have hlevel := h.levelOf_nonneg hnonneg key
  have hkept : (l.afterAll (.call key now :: pause)).bucket? key =
      (l.after (.call key now)).bucket? key :=
    (l.after (.call key now)).bucket?_afterAll_of_calls hcalls hpause.others
  have hgiven : secondsBetween now later * l.policy.rate = m := by
    rw [hlater, div_mul_cancel₀ _ (ne_of_gt hrate)]
  have hplace : (l.afterAll (.call key now :: pause)).HasPlace key :=
    .inl (by rw [hkept, hleft]; rfl)
  rw [(h.after_pause hnonneg hpause).allowTimes_eq (by rwa [policy_afterAll]) hplace,
    h.levelOf_after_pause hsome hrefused hpause.start_le hkept, hgiven,
    wholeTokens_recovered hlevel hshort]

/-- After the time for a token, in whole nanoseconds, a key gets through, also with a new bucket. -/
theorem Steady.allow_after_pause (h : l.Steady now) (hrate : 0 < l.policy.rate)
    (hburst : 1 ≤ l.policy.burst) (hsome : (l.bucket? key).isSome = true)
    (hrefused : (l.allow key now).1 = false) (hpause : Pause pause key now later)
    (hslow : l.policy.rate ≤ 1000) (hlater : now + ⌊1000000000 / l.policy.rate⌋ ≤ later)
    (hplace : (l.afterAll (.call key now :: pause)).HasPlace key) :
    ((l.afterAll (.call key now :: pause)).allow key later).1 = true := by
  have hnonneg : 0 ≤ l.policy.rate := le_of_lt hrate
  have hlevel := h.levelOf_nonneg hnonneg key
  have hgiven := token_of_nanoseconds hrate hslow hlater
  have hcap : (1 : Rat) ≤ l.policy.burst := by exact_mod_cast hburst
  have hreach : 1 - 1 / 1000000 ≤ (l.afterAll (.call key now :: pause)).levelOf key later := by
    cases hb : (l.afterAll (.call key now :: pause)).bucket? key with
    | none =>
        rw [levelOf_none hb, policy_afterAll]
        linarith
    | some b =>
        have hbefore := (h.distinct.after (.call key now)).bucket?_of_afterAll hpause.others hb
        rw [h.levelOf_after_pause hsome hrefused hpause.start_le (hb.trans hbefore.symm)]
        exact le_min (by linarith) (by linarith)
  rcases (h.after_pause hnonneg hpause).call_spends hplace with
    ⟨-, hadmitted, -⟩ | ⟨hshort, -, -⟩
  · exact hadmitted
  · linarith

end

/--
A key gets through as often as its level allows, a new one as often as its burst.  After it was
turned away it has the tokens that the rate gave back in the meantime, and the next one at the
latest after the time for one, in whole nanoseconds.
-/
theorem bursts_and_recovers (p : Policy Rat) (hrate : 0 < p.rate) (hburst : 1 ≤ p.burst)
    {events : List Event} (hordered : events.Pairwise fun e f => e.time ≤ f.time) {now : Instant}
    (hnow : ∀ e ∈ events, e.time ≤ now) (key : String) {l : Limiter Rat}
    (hl : l = (new p).afterAll events) :
    (l.bucket? key = none → l.tracked < p.limit →
      ∀ n, (l.allowTimes key now n).1 = firstAdmitted n p.burst) ∧
    ((l.bucket? key).isSome = true →
      ∀ n, (l.allowTimes key now n).1 = firstAdmitted n (wholeTokens (l.levelOf key now))) ∧
    ((l.bucket? key).isSome = true → (l.allow key now).1 = false →
      ∀ pause later, Pause pause key now later →
        (∀ m : Nat, (∀ e ∈ pause, e.caller?.isSome = true) →
          secondsBetween now later = m / p.rate →
          ∀ n, ((l.afterAll (.call key now :: pause)).allowTimes key later n).1 =
            firstAdmitted n (min m p.burst)) ∧
        (p.rate ≤ 1000 → now + ⌊1000000000 / p.rate⌋ ≤ later →
          (l.afterAll (.call key now :: pause)).HasPlace key →
          ((l.afterAll (.call key now :: pause)).allow key later).1 = true)) := by
  have hsteady : l.Steady now := by
    rw [hl]
    exact steady_afterAll_new p (le_of_lt hrate) hordered hnow
  obtain rfl : l.policy = p := by
    rw [hl, policy_afterAll]
    rfl
  have hnonneg : 0 ≤ l.policy.rate := le_of_lt hrate
  refine ⟨?_, ?_, ?_⟩
  · intro hnew hroom n
    rw [hsteady.allowTimes_eq hnonneg (.inr hroom), levelOf_none hnew, wholeTokens_natCast]
  · intro hsome n
    exact hsteady.allowTimes_eq hnonneg (.inl hsome) n
  · intro hsome hrefused pause later hpause
    constructor
    · intro m hcalls hlater n
      exact hsteady.allowTimes_after_pause hrate hsome hrefused hpause hcalls hlater n
    · intro hslow hlater hplace
      exact hsteady.allow_after_pause hrate hburst hsome hrefused hpause hslow hlater hplace

/-- The burst of a key is spent, at a rate of which a token takes no whole number of nanoseconds. -/
def spentRun : List Event :=
  [.call "a" 0, .call "a" 0]

theorem bursts_and_recovers_spentRun :
    let l := (new ⟨3, 2, 2⟩ : Limiter Rat).afterAll spentRun
    (l.allowTimes "b" 0 3).1 = [true, true, false] ∧
      (l.allowTimes "a" 333333333 2).1 = [true, false] ∧
      ((l.afterAll [.call "a" 0, .call "b" 500000000]).allowTimes "a" 1000000000 3).1 =
        [true, true, false] ∧
      ((l.afterAll [.call "a" 0, .call "b" 1, .sweep 2]).allow "a" 333333333).1 = true := by
  have hrate : (0 : Rat) < 3 := by norm_num
  have hordered : spentRun.Pairwise fun e f => e.time ≤ f.time := by decide
  have hcalls : Pause [.call "b" 500000000] "a" 0 1000000000 :=
    ⟨by decide, by decide, by decide, by decide⟩
  have hswept : Pause [.call "b" 1, .sweep 2] "a" 0 333333333 :=
    ⟨by decide, by decide, by decide, by decide⟩
  obtain ⟨hnew, -, -⟩ := bursts_and_recovers ⟨3, 2, 2⟩ hrate (by decide) hordered
    (show ∀ e ∈ spentRun, e.time ≤ 0 by decide) "b" rfl
  obtain ⟨-, -, hrecovers⟩ := bursts_and_recovers ⟨3, 2, 2⟩ hrate (by decide) hordered
    (show ∀ e ∈ spentRun, e.time ≤ 0 by decide) "a" rfl
  obtain ⟨-, htracked, -⟩ := bursts_and_recovers ⟨3, 2, 2⟩ hrate (by decide) hordered
    (show ∀ e ∈ spentRun, e.time ≤ 333333333 by decide) "a" rfl
  have hlevel : wholeTokens
      (((new ⟨3, 2, 2⟩ : Limiter Rat).afterAll spentRun).levelOf "a" 333333333) = 1 := by
    decide +kernel
  have hsome : (((new ⟨3, 2, 2⟩ : Limiter Rat).afterAll spentRun).bucket? "a").isSome = true := by
    decide +kernel
  have hrefused : (((new ⟨3, 2, 2⟩ : Limiter Rat).afterAll spentRun).allow "a" 0).1 = false := by
    decide +kernel
  refine ⟨hnew (by decide +kernel) (by decide +kernel) 3, ?_, ?_, ?_⟩
  · rw [htracked hsome 2, hlevel]
    rfl
  · exact (hrecovers hsome hrefused _ _ hcalls).1 3 (by decide)
      (by norm_num [secondsBetween]) 3
  · exact (hrecovers hsome hrefused _ _ hswept).2 (by norm_num) (by norm_num)
      (.inl (by decide +kernel))

end Limiter

end Tarpit.Rate
