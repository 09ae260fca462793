import Mathlib.Data.List.Forall2
import Tarpit.Proofs.Rate.Admission
import Tarpit.Proofs.Rate.Isolation

/-!
# Calls that are turned away

A call that is turned away refills a bucket at most, and only one that stays
short of a token.  Nobody can tell such a bucket from the one that it was, so
the rest of a run goes on as if the call had not been made.
-/

namespace Tarpit.Rate

/-! ## Refilled buckets -/

namespace Bucket

section

variable {R : Type} [Level R]

/-- What a call does to a bucket is decided once the bucket is refilled. -/
theorem consume_congr {p : Policy R} {b b' : Bucket R} {s t : Instant}
    (h : b.refill p s = b'.refill p t) : b.consume p s = b'.consume p t := by
  unfold consume
  rw [h]

theorem isFull_congr {p : Policy R} {b b' : Bucket R} {s t : Instant}
    (h : b.refill p s = b'.refill p t) : b.isFull p s = b'.isFull p t :=
  congrArg (fun c : Bucket R => reaches c.tokens p.capacity) h

end

/-! ## Buckets that nobody can tell apart -/

variable {p : Policy Rat} {b b' : Bucket Rat} {s t now : Instant}

theorem tokensAt_mono (hrate : 0 ≤ p.rate) (b : Bucket Rat) (hst : s ≤ t) :
    b.tokensAt p s ≤ b.tokensAt p t := by
  have hlater : max b.updated s ≤ max b.updated t := max_le_max_left _ hst
  have hsplit := secondsBetween_add b.updated (max b.updated s) (max b.updated t)
  have hgained := mul_nonneg (secondsBetween_nonneg hlater) hrate
  rw [tokensAt_eq_min, tokensAt_eq_min, ← hsplit, add_mul]
  exact min_le_min_right _ (by linarith)

/-- A bucket that is short of a token is not capped, so it can be refilled in two steps. -/
theorem refill_refill (hburst : 1 ≤ p.burst) (hshort : b.tokensAt p t + 1 / 1000000 < 1)
    (now : Instant) : (b.refill p t).refill p now = b.refill p (max t now) := by
  have hcap : (1 : Rat) ≤ p.burst := by exact_mod_cast hburst
  have huncapped : b.tokensAt p t =
      b.tokens + secondsBetween b.updated (max b.updated t) * p.rate := by
    rw [tokensAt_eq_min] at hshort ⊢
    refine min_eq_left (le_of_not_ge fun hfull => ?_)
    rw [min_eq_right hfull] at hshort
    linarith
  have hupdated : max (max b.updated t) now = max b.updated (max t now) := max_assoc _ _ _
  have hsplit := secondsBetween_add b.updated (max b.updated t) (max b.updated (max t now))
  have htokens : (b.refill p t).tokensAt p now = b.tokensAt p (max t now) := by
    rw [tokensAt_eq_min p (b.refill p t), tokensAt_eq_min p b, ← hsplit, add_mul, ← add_assoc,
      ← huncapped, ← hupdated]
    rfl
  show Bucket.mk _ (max (max b.updated t) now) = Bucket.mk _ _
  rw [htokens, hupdated]

theorem consume_of_short (hshort : b.tokensAt p now + 1 / 1000000 < 1) :
    b.consume p now = (false, b.refill p now) := by
  rcases consume_cases_max p b now with ⟨hreach, -⟩ | ⟨-, hconsume⟩
  · linarith
  · exact hconsume

theorem short_of_refused (hrefused : (b.consume p now).1 = false) :
    b.tokensAt p now + 1 / 1000000 < 1 := by
  rcases consume_cases_max p b now with ⟨-, hconsume⟩ | ⟨hshort, -⟩
  · rw [hconsume] at hrefused
    cases hrefused
  · exact hshort

/-- The second bucket is the first one, or that one refilled while it was short of a token. -/
inductive Alike (p : Policy Rat) (b : Bucket Rat) : Bucket Rat → Prop where
  | same : Alike p b b
  | refilled (t : Instant) (hshort : b.tokensAt p t + 1 / 1000000 < 1) : Alike p b (b.refill p t)

theorem Alike.consume (h : Alike p b b') (hrate : 0 ≤ p.rate) (hburst : 1 ≤ p.burst)
    (now : Instant) :
    (b'.consume p now).1 = (b.consume p now).1 ∧
      Alike p (b.consume p now).2 (b'.consume p now).2 := by
  cases h with
  | same => exact ⟨rfl, .same⟩
  | refilled t hshort =>
      have hrefill := refill_refill hburst hshort now
      by_cases hlater : t ≤ now
      · rw [Int.max_eq_right hlater] at hrefill
        rw [consume_congr hrefill]
        exact ⟨rfl, .same⟩
      · -- The clock went back behind the refill, to where the bucket was short as well.
        have hback : now ≤ t := le_of_not_ge hlater
        have hshort' : b.tokensAt p now + 1 / 1000000 < 1 := by
          have hmono := tokensAt_mono hrate b hback
          linarith
        rw [Int.max_eq_left hback] at hrefill
        rw [consume_congr hrefill, consume_of_short hshort, consume_of_short hshort']
        have hagain := refill_refill hburst hshort' t
        rw [Int.max_eq_right hback] at hagain
        refine ⟨rfl, ?_⟩
        rw [← hagain]
        exact .refilled t (by rwa [show (b.refill p now).tokensAt p t = b.tokensAt p t from
          congrArg tokens hagain])

theorem Alike.isFull (h : Alike p b b') (hrate : 0 ≤ p.rate) (hburst : 1 ≤ p.burst)
    (now : Instant) : b'.isFull p now = b.isFull p now := by
  cases h with
  | same => rfl
  | refilled t hshort =>
      have hrefill := refill_refill hburst hshort now
      by_cases hlater : t ≤ now
      · rw [Int.max_eq_right hlater] at hrefill
        exact isFull_congr hrefill
      · have hback : now ≤ t := le_of_not_ge hlater
        have hcap : (1 : Rat) ≤ p.burst := by exact_mod_cast hburst
        have hmono := tokensAt_mono hrate b hback
        have hnotFull : ∀ s, b.tokensAt p s ≤ b.tokensAt p t → b.isFull p s = false := by
          intro s hs
          rw [Bool.eq_false_iff]
          intro hfull
          have hreach : (p.burst : Rat) ≤ b.tokensAt p s + 1 / 1000000 := (reaches_iff _ _).1 hfull
          linarith
        rw [Int.max_eq_left hback] at hrefill
        rw [isFull_congr hrefill, hnotFull t (le_refl _), hnotFull now hmono]

end Bucket

/-! ## Limiters that nobody can tell apart -/

/-- What an event replies: whether a call was let through, or how many buckets a sweep removed. -/
inductive Reply where
  | allowed (answer : Bool)
  | removed (count : Nat)
  deriving DecidableEq

/-- What is seen of an event: its reply, and how many keys are tracked behind it. -/
structure Outcome where
  reply : Reply
  tracked : Nat
  deriving DecidableEq

def Moment.outcome {R : Type} [Level R] (m : Moment R) : Outcome :=
  match m.event with
  | .call key now => ⟨.allowed (m.limiter.allow key now).1, (m.limiter.allow key now).2.tracked⟩
  | .sweep now => ⟨.removed (m.limiter.sweep now).1, (m.limiter.sweep now).2.tracked⟩

namespace Limiter

section

variable {R : Type} [Level R]

def outcomes (l : Limiter R) (events : List Event) : List Outcome :=
  (l.history events).map Moment.outcome

theorem outcomes_append (l : Limiter R) (xs ys : List Event) :
    l.outcomes (xs ++ ys) = l.outcomes xs ++ (l.afterAll xs).outcomes ys := by
  unfold outcomes
  rw [history_append, List.map_append]

theorem outcomes_cons (l : Limiter R) (e : Event) (rest : List Event) :
    l.outcomes (e :: rest) = Moment.outcome ⟨l, e⟩ :: (l.after e).outcomes rest := rfl

theorem length_outcomes (l : Limiter R) (events : List Event) :
    (l.outcomes events).length = events.length := by
  induction events generalizing l with
  | nil => rfl
  | cons e rest ih => exact congrArg (· + 1) (ih (l.after e))

end

variable {l l' : Limiter Rat} {key : String} {now : Instant}

/-- Limiters with the same keys in the same order, whose buckets nobody can tell apart. -/
structure Alike (l l' : Limiter Rat) : Prop where
  policy : l'.policy = l.policy
  buckets : List.Forall₂ (fun e e' => e'.1 = e.1 ∧ Bucket.Alike l.policy e.2 e'.2)
    l.buckets l'.buckets

theorem Alike.refl (l : Limiter Rat) : l.Alike l :=
  ⟨rfl, List.forall₂_same.2 fun _ _ => ⟨rfl, .same⟩⟩

theorem Alike.tracked (h : l.Alike l') : l'.tracked = l.tracked :=
  h.buckets.length_eq.symm

theorem Alike.bucket? (h : l.Alike l') (key : String) :
    Option.Rel (Bucket.Alike l.policy) (l.bucket? key) (l'.bucket? key) :=
  rel_lookup h.buckets key

theorem Alike.setBucket (h : l.Alike l') (key : String) {b b' : Bucket Rat}
    (hb : Bucket.Alike l.policy b b') : (l.setBucket key b).Alike (l'.setBucket key b') := by
  refine ⟨h.policy, ?_⟩
  show List.Forall₂ _ (l.buckets.map _) (l'.buckets.map _)
  rw [List.forall₂_map_left_iff, List.forall₂_map_right_iff]
  refine h.buckets.imp fun e e' hentry => ?_
  rw [hentry.1]
  cases e.1 == key with
  | true => exact ⟨rfl, hb⟩
  | false => exact hentry

theorem Alike.addBucket (h : l.Alike l') (key : String) {b b' : Bucket Rat}
    (hb : Bucket.Alike l.policy b b') : (l.addBucket key b).Alike (l'.addBucket key b') :=
  ⟨h.policy, List.rel_append h.buckets (.cons ⟨rfl, hb⟩ .nil)⟩

theorem Alike.swept (h : l.Alike l') (hrate : 0 ≤ l.policy.rate) (hburst : 1 ≤ l.policy.burst)
    (now : Instant) : (l.swept now).Alike (l'.swept now) := by
  refine ⟨h.policy, List.rel_filter ?_ h.buckets⟩
  intro e e' hentry
  have hfull : e'.2.isFull l.policy now = e.2.isFull l.policy now :=
    hentry.2.isFull hrate hburst now
  simp only [h.policy, hfull]

theorem Alike.call (h : l.Alike l') (hrate : 0 ≤ l.policy.rate) (hburst : 1 ≤ l.policy.burst)
    (key : String) (now : Instant) :
    (l'.allow key now).1 = (l.allow key now).1 ∧
      (l.allow key now).2.Alike (l'.allow key now).2 := by
  have hrel := h.bucket? key
  unfold allow
  rw [h.policy, h.tracked]
  generalize l.bucket? key = b? at hrel
  generalize l'.bucket? key = b?' at hrel
  cases hrel with
  | none =>
      simp only
      split
      · exact ⟨rfl, h⟩
      · exact ⟨rfl, h.addBucket key .same⟩
  | some hb =>
      obtain ⟨hanswer, hleft⟩ := hb.consume hrate hburst now
      exact ⟨hanswer, h.setBucket key hleft⟩

theorem Alike.step (h : l.Alike l') (hrate : 0 ≤ l.policy.rate) (hburst : 1 ≤ l.policy.burst)
    (e : Event) :
    Moment.outcome ⟨l', e⟩ = Moment.outcome ⟨l, e⟩ ∧ (l.after e).Alike (l'.after e) := by
  cases e with
  | call key now =>
      obtain ⟨hanswer, hafter⟩ := h.call hrate hburst key now
      refine ⟨?_, hafter⟩
      simp only [Moment.outcome, hanswer, hafter.tracked]
  | sweep now =>
      have hafter := h.swept hrate hburst now
      refine ⟨?_, hafter⟩
      simp only [Moment.outcome, sweep, h.tracked, hafter.tracked]

theorem Alike.outcomes (h : l.Alike l') (hrate : 0 ≤ l.policy.rate) (hburst : 1 ≤ l.policy.burst)
    (events : List Event) : l'.outcomes events = l.outcomes events := by
  induction events generalizing l l' with
  | nil => rfl
  | cons e rest ih =>
      obtain ⟨houtcome, hafter⟩ := h.step hrate hburst e
      have hrest := ih hafter (by rwa [policy_after]) (by rwa [policy_after])
      exact congrArg₂ List.cons houtcome hrest

/-! ## The call that is turned away -/

/-- A bucket that a call makes has a token for it. -/
theorem allow_of_room (hburst : 1 ≤ l.policy.burst) (hnew : l.bucket? key = none)
    (hroom : l.tracked < l.policy.limit) (now : Instant) : (l.allow key now).1 = true := by
  have hcap : (1 : Rat) ≤ l.policy.burst := by exact_mod_cast hburst
  have hupdated : (Bucket.full l.policy now).updated ≤ now := Int.le_refl now
  simp only [allow, hnew, if_neg (Nat.not_le.2 hroom)]
  rcases Bucket.consume_cases l.policy hupdated with ⟨-, hconsume⟩ | ⟨hshort, -⟩
  · rw [hconsume]
  · rw [Bucket.tokensAt_full] at hshort
    linarith

theorem Distinct.alike_of_refused (h : l.Distinct) (hburst : 1 ≤ l.policy.burst)
    (hrefused : (l.allow key now).1 = false) : l.Alike (l.allow key now).2 := by
  cases hb : l.bucket? key with
  | none =>
      by_cases hlimit : l.policy.limit ≤ l.tracked
      · rw [allow_at_limit hb hlimit]
        exact Alike.refl l
      · rw [allow_of_room hburst hb (Nat.not_le.1 hlimit)] at hrefused
        cases hrefused
  | some b =>
      have hshort : b.tokensAt l.policy now + 1 / 1000000 < 1 :=
        Bucket.short_of_refused (by simpa only [allow, hb] using hrefused)
      have hleft : (l.allow key now).2 = l.setBucket key (b.refill l.policy now) := by
        simp only [allow, hb, Bucket.consume_of_short hshort]
      rw [hleft]
      refine ⟨rfl, ?_⟩
      show List.Forall₂ _ l.buckets (l.buckets.map _)
      rw [List.forall₂_map_right_iff, List.forall₂_same]
      rintro ⟨k, c⟩ hentry
      by_cases hkey : k = key
      · have hfound : l.bucket? k = some c := (lookup_eq_some_iff_mem h).2 hentry
        rw [hkey, hb, Option.some.injEq] at hfound
        rw [hkey, ← hfound, beq_self_eq_true, if_pos rfl]
        exact ⟨rfl, .refilled now hshort⟩
      · rw [if_neg (by simpa using hkey)]
        exact ⟨rfl, .same⟩

/-- Behind a call that is turned away a run goes on as if the call had not been made. -/
theorem Distinct.outcomes_of_refused (h : l.Distinct) (hrate : 0 ≤ l.policy.rate)
    (hburst : 1 ≤ l.policy.burst) {e : Event} {tracked : Nat}
    (hrefused : Moment.outcome ⟨l, e⟩ = ⟨.allowed false, tracked⟩) (rest : List Event) :
    l.tracked = tracked ∧ (l.after e).outcomes rest = l.outcomes rest := by
  cases e with
  | sweep now => cases hrefused
  | call key now =>
      simp only [Moment.outcome, Outcome.mk.injEq, Reply.allowed.injEq] at hrefused
      have halike := h.alike_of_refused hburst hrefused.1
      exact ⟨halike.tracked.symm.trans hrefused.2, halike.outcomes hrate hburst rest⟩

/--
A call that is turned away changes neither how many keys are tracked nor anything that is seen of
the other events of a run.
-/
theorem outcomes_eraseIdx (p : Policy Rat) (hrate : 0 ≤ p.rate) (hburst : 1 ≤ p.burst)
    {events : List Event} {n tracked : Nat}
    (hrefused : ((new p).outcomes events)[n]? = some ⟨.allowed false, tracked⟩) :
    ((new p).afterAll (events.take n)).tracked = tracked ∧
      (new p).outcomes (events.eraseIdx n) = ((new p).outcomes events).eraseIdx n := by
  obtain ⟨hn, -⟩ := List.getElem?_eq_some_iff.1 hrefused
  rw [length_outcomes] at hn
  obtain ⟨before, e, rest, hlength, rfl⟩ : ∃ before e rest,
      before.length = n ∧ events = before ++ e :: rest :=
    ⟨events.take n, events[n], events.drop (n + 1), List.length_take_of_le (Nat.le_of_lt hn),
      by simp⟩
  have hseen : ((new p).outcomes before).length = n := by rw [length_outcomes, hlength]
  have hpolicy : ((new p).afterAll before).policy = p := policy_afterAll (new p) before
  rw [outcomes_append, List.getElem?_append_right (Nat.le_of_eq hseen), hseen, Nat.sub_self,
    outcomes_cons, List.getElem?_cons_zero, Option.some.injEq] at hrefused
  obtain ⟨htracked, hrest⟩ := ((distinct_new p).afterAll before).outcomes_of_refused
    (by rwa [hpolicy]) (by rwa [hpolicy]) hrefused rest
  refine ⟨by rwa [List.take_left' hlength], ?_⟩
  rw [← hlength, List.eraseIdx_append_of_length_le (Nat.le_refl _), Nat.sub_self,
    List.eraseIdx_cons_zero, outcomes_append, outcomes_append, outcomes_cons, hlength, ← hseen,
    List.eraseIdx_append_of_length_le (Nat.le_refl _), Nat.sub_self, List.eraseIdx_cons_zero, hrest]

/--
A run in which the clock goes back behind a call that is turned away, to where its key is turned
away again.
-/
def backwardRun : List Event :=
  [.call "a" 0, .call "b" 0, .call "c" 100000000, .call "a" 900000000, .call "a" 400000000,
    .sweep 700000000, .call "a" 1000000000, .sweep 2000000000]

theorem outcomes_backwardRun :
    ((new ⟨1, 1, 2⟩ : Limiter Rat).outcomes backwardRun)[3]? = some ⟨.allowed false, 2⟩ ∧
      (new ⟨1, 1, 2⟩ : Limiter Rat).outcomes (backwardRun.eraseIdx 3) =
        [⟨.allowed true, 1⟩, ⟨.allowed true, 2⟩, ⟨.allowed false, 2⟩, ⟨.allowed false, 2⟩,
          ⟨.removed 0, 2⟩, ⟨.allowed true, 2⟩, ⟨.removed 2, 0⟩] := by
  have hrefused : ((new ⟨1, 1, 2⟩ : Limiter Rat).outcomes backwardRun)[3]? =
      some ⟨.allowed false, 2⟩ := by decide +kernel
  have herased := (outcomes_eraseIdx (⟨1, 1, 2⟩ : Policy Rat) (by decide +kernel) (by decide)
    hrefused).2
  refine ⟨hrefused, herased.trans ?_⟩
  decide +kernel

end Limiter

end Tarpit.Rate
