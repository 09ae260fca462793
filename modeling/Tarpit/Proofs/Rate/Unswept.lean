import Tarpit.Proofs.Rate.Admission
import Tarpit.Proofs.Rate.Isolation

/-!
# Runs without their sweeps

A key whose bucket was swept away starts anew with a full one, so its level and
that of a bucket that is never swept drift apart.  What the swept key is behind
in tokens it is ahead in admissions.
-/

namespace Tarpit.Rate

theorem secondsBetween_max_le {s t : Instant} (h : s ≤ t) (now : Instant) :
    secondsBetween t (max t now) ≤ secondsBetween s (max s now) := by
  have hspan : max t now - t ≤ max s now - s := by
    unfold Instant at *
    omega
  have hcast : ((max t now - t : Int) : Rat) ≤ ((max s now - s : Int) : Rat) := by
    exact_mod_cast hspan
  exact div_le_div_of_nonneg_right hcast (by norm_num)

/-! ## Two buckets of a key -/

namespace Bucket

variable {p : Policy Rat} {lead : Nat} {b b' : Bucket Rat}

/-- The second bucket has at most so many tokens less than the first, and is no later. -/
structure Behind (lead : Nat) (b b' : Bucket Rat) : Prop where
  updated : b'.updated ≤ b.updated
  tokens : b.tokens ≤ b'.tokens + lead
  nonneg : 0 ≤ b'.tokens

theorem Behind.refill (h : Behind lead b b') (hrate : 0 ≤ p.rate) (now : Instant) :
    Behind lead (b.refill p now) (b'.refill p now) := by
  have hspan := mul_le_mul_of_nonneg_right (secondsBetween_max_le h.updated now) hrate
  have hgained := mul_nonneg (secondsBetween_nonneg (Int.le_max_left b'.updated now)) hrate
  have htokens := h.tokens
  have hlead : (0 : Rat) ≤ lead := Nat.cast_nonneg _
  refine ⟨max_le_max_right now h.updated, ?_, ?_⟩
  · show b.tokensAt p now ≤ b'.tokensAt p now + lead
    rw [tokensAt_eq_min, tokensAt_eq_min, ← min_add_add_right]
    exact min_le_min (by linarith) (by linarith)
  · show 0 ≤ b'.tokensAt p now
    rw [tokensAt_eq_min]
    exact le_min (add_nonneg h.nonneg hgained) (Nat.cast_nonneg _)

/-- No bucket is ahead of a new one. -/
theorem behind_full (p : Policy Rat) (lead : Nat) (b : Bucket Rat) (now : Instant) :
    Behind lead (b.refill p now) ((full p now).refill p now) := by
  have hlead : (0 : Rat) ≤ lead := Nat.cast_nonneg _
  have hcap := tokensAt_le_burst p b now
  have hfull := tokensAt_full p now
  refine ⟨?_, ?_, ?_⟩
  · exact max_le (Int.le_max_right _ _) (Int.le_max_right _ _)
  · show b.tokensAt p now ≤ (full p now).tokensAt p now + lead
    linarith
  · show 0 ≤ (full p now).tokensAt p now
    rw [hfull]
    exact Nat.cast_nonneg _

/--
One call to each of the buckets.  Where only the first has a token for it, the second was a token
behind, so it was an admission ahead.
-/
theorem Behind.consume {now : Instant} (h : Behind lead (b.refill p now) (b'.refill p now)) :
    ∃ lead', (b.consume p now).1.toNat + lead' ≤ (b'.consume p now).1.toNat + lead ∧
      Behind lead' (b.consume p now).2 (b'.consume p now).2 := by
  obtain ⟨hupdated, htokens, hnonneg⟩ := h
  simp only [Bucket.refill] at hupdated htokens hnonneg
  have hclamp := le_max_left (b'.tokensAt p now - 1) 0
  have hleft := le_max_right (b'.tokensAt p now - 1) 0
  rcases consume_cases_max p b now with ⟨hreach, hfirst⟩ | ⟨hshort, hfirst⟩
  · rcases consume_cases_max p b' now with ⟨-, hsecond⟩ | ⟨hshort', hsecond⟩
    · rw [hfirst, hsecond]
      refine ⟨lead, Nat.le_refl _, hupdated, max_le (by linarith) ?_, hleft⟩
      exact add_nonneg hleft (Nat.cast_nonneg _)
    · rw [hfirst, hsecond]
      obtain ⟨rest, rfl⟩ : ∃ rest, lead = rest + 1 := by
        refine Nat.exists_eq_succ_of_ne_zero fun hzero => ?_
        rw [hzero, Nat.cast_zero, add_zero] at htokens
        linarith
      rw [Nat.cast_add, Nat.cast_one] at htokens
      refine ⟨rest, ?_, hupdated, max_le ?_ ?_, hnonneg⟩
      · rw [Bool.toNat_true, Bool.toNat_false]
        omega
      · show b.tokensAt p now - 1 ≤ b'.tokensAt p now + rest
        linarith
      · exact add_nonneg hnonneg (Nat.cast_nonneg _)
  · rcases consume_cases_max p b' now with ⟨-, hsecond⟩ | ⟨-, hsecond⟩
    · rw [hfirst, hsecond]
      refine ⟨lead + 1, ?_, hupdated, ?_, hleft⟩
      · rw [Bool.toNat_true, Bool.toNat_false]
        omega
      · show b.tokensAt p now ≤ max (b'.tokensAt p now - 1) 0 + (lead + 1 : Nat)
        push_cast
        linarith
    · rw [hfirst, hsecond]
      exact ⟨lead, Nat.le_refl _, hupdated, htokens, hnonneg⟩

end Bucket

/-! ## One key -/

/-- Whenever the next call comes, the second bucket is at most so many tokens behind the first. -/
def Trails (p : Policy Rat) (lead : Nat) (b? b'? : Option (Bucket Rat)) : Prop :=
  ∀ now, Bucket.Behind lead ((b?.getD (.full p now)).refill p now)
    ((b'?.getD (.full p now)).refill p now)

theorem Trails.filter {p : Policy Rat} {lead : Nat} {b? b'? : Option (Bucket Rat)}
    (h : Trails p lead b? b'?) (keep : Bucket Rat → Bool) : Trails p lead b? (b'?.filter keep) := by
  cases hkept : b'?.filter keep with
  | none => exact fun now => Bucket.behind_full p lead _ now
  | some b' =>
      rw [(Option.filter_eq_some_iff.1 hkept).1] at h
      exact h

def Sighting.isCall : Sighting → Bool
  | .call _ _ => true
  | .sweep _ => false

theorem count_true_cons (answer : Bool) (rest : List Bool) :
    (answer :: rest).count true = answer.toNat + rest.count true := by
  cases answer with
  | true => rw [List.count_cons_self, Nat.add_comm, Bool.toNat_true]
  | false => rw [List.count_cons_of_ne (by decide), Bool.toNat_false, Nat.zero_add]

/-- Without the sweeps a key gets through at most as often, but for what it was ahead before. -/
theorem lone_filter_count_le {p : Policy Rat} (hrate : 0 ≤ p.rate) {lead : Nat}
    {b? b'? : Option (Bucket Rat)} (h : Trails p lead b? b'?) (seen : List Sighting) :
    (lone p b? (seen.filter Sighting.isCall)).count true ≤ (lone p b'? seen).count true + lead := by
  induction seen generalizing lead b? b'? with
  | nil => exact Nat.zero_le _
  | cons s rest ih =>
      cases s with
      | sweep now =>
          rw [List.filter_cons_of_neg (by simp [Sighting.isCall])]
          exact ih (h.filter fun b => !b.isFull p now)
      | call now crowded =>
          rw [List.filter_cons_of_pos rfl]
          cases crowded with
          | true => exact ih h
          | false =>
              obtain ⟨lead', hlead, hbehind⟩ := (h now).consume
              have htrails : Trails p lead' (some ((b?.getD (.full p now)).consume p now).2)
                  (some ((b'?.getD (.full p now)).consume p now).2) :=
                fun later => hbehind.refill hrate later
              have hrest := ih htrails
              simp only [lone, Sighting.answer?, Sighting.left?, Option.toList_some,
                List.singleton_append, count_true_cons]
              omega

/-! ## Runs -/

/-- The calls of a run alone. -/
def unswept (events : List Event) : List Event :=
  events.filter fun e => e.caller?.isSome

theorem filterMap_plain?_unswept (key : String) (events : List Event) :
    (unswept events).filterMap (Event.plain? key) =
      (events.filterMap (Event.plain? key)).filter Sighting.isCall := by
  unfold unswept
  rw [List.filterMap_filter, List.filter_filterMap]
  apply List.filterMap_congr
  intro e _
  cases e with
  | sweep now => rfl
  | call other now =>
      by_cases hother : other = key
      · simp [Event.plain?, Event.caller?, hother, Sighting.isCall, Option.filter]
      · simp [Event.plain?, Event.caller?, hother]

namespace Limiter

/--
Where all keys have room, a key gets through at least as often as in the same run without the
sweeps, at every point of the run.
-/
theorem admitted_unswept_le (p : Policy Rat) (hrate : 0 ≤ p.rate) {events : List Event}
    (hfew : (callers events).card ≤ p.limit) (key : String) (n : Nat) :
    ((new p).answers (unswept (events.take n)) key).count true ≤
      ((new p).answers (events.take n) key).count true := by
  have htaken : ∀ e ∈ events.take n, e ∈ events := fun e he => List.mem_of_mem_take he
  have hcalls : ∀ e ∈ unswept (events.take n), e ∈ events :=
    fun e he => htaken e (List.mem_filter.1 he).1
  have hunseen : Trails p 0 none none := fun now => Bucket.behind_full p 0 _ now
  rw [answers_of_few p key hcalls hfew, answers_of_few p key htaken hfew, filterMap_plain?_unswept]
  exact lone_filter_count_le hrate hunseen _

/--
A run in which the level of a bucket that is made anew is half a slack above that of the old one.
So the fourth call gets through, and does not without the sweep, and with the fifth it is the other
way round.
-/
def driftingRun : List Event :=
  [.call "a" 0, .sweep 999999500, .call "a" 999999500, .call "a" 1499999500,
    .call "a" 1999998500, .call "a" 1999999500]

theorem admitted_unswept_driftingRun_le :
    (new ⟨1, 2, 1⟩ : Limiter Rat).answers driftingRun "a" = [true, true, true, true, false] ∧
    (new ⟨1, 2, 1⟩ : Limiter Rat).answers (unswept driftingRun) "a" =
      [true, true, true, false, true] ∧
    ((new ⟨1, 2, 1⟩ : Limiter Rat).answers (unswept (driftingRun.take 5)) "a").count true ≤
      ((new ⟨1, 2, 1⟩ : Limiter Rat).answers (driftingRun.take 5) "a").count true :=
  ⟨by decide +kernel, by decide +kernel,
    admitted_unswept_le ⟨1, 2, 1⟩ (by decide +kernel) (by decide) "a" 5⟩

end Limiter

end Tarpit.Rate
