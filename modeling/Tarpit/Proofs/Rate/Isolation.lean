import Mathlib.Data.Finset.Card
import Tarpit.Rate.Exact
import Tarpit.Proofs.Rate.Run

/-!
# Clients apart from each other

The answers to the calls of a key are those of a bucket that is alone.  Of the
other keys it only sees whether they leave room for it where it has to be made.
-/

namespace Tarpit.Rate

variable {R : Type} [Level R]

/-! ## What one key sees -/

/-- A call of the key is crowded out where it finds no bucket of the key and no room for one. -/
inductive Sighting where
  | call (now : Instant) (crowded : Bool)
  | sweep (now : Instant)
  deriving DecidableEq

namespace Sighting

def answer? (p : Policy R) (b? : Option (Bucket R)) : Sighting → Option Bool
  | .call _ true => some false
  | .call now false => some ((b?.getD (.full p now)).consume p now).1
  | .sweep _ => none

/-- The bucket of the key after a sighting. -/
def left? (p : Policy R) (b? : Option (Bucket R)) : Sighting → Option (Bucket R)
  | .call _ true => b?
  | .call now false => some ((b?.getD (.full p now)).consume p now).2
  | .sweep now => b?.filter fun b => !b.isFull p now

end Sighting

/-- The answers to a key that is alone, with its bucket if it has one. -/
def lone (p : Policy R) : Option (Bucket R) → List Sighting → List Bool
  | _, [] => []
  | b?, s :: rest => (s.answer? p b?).toList ++ lone p (s.left? p b?) rest

namespace Event

def caller? : Event → Option String
  | .call key _ => some key
  | .sweep _ => none

def concerns (key : String) : Event → Bool
  | .call other _ => other == key
  | .sweep _ => true

/-- What a key sees of an event where it is never crowded out. -/
def plain? (key : String) : Event → Option Sighting
  | .call other now => if other = key then some (.call now false) else none
  | .sweep now => some (.sweep now)

theorem plain?_of_not_concerns {key : String} {e : Event} (h : e.concerns key = false) :
    e.plain? key = none := by
  cases e with
  | call other now =>
      have hother : other ≠ key := by simpa [concerns] using h
      exact if_neg hother
  | sweep now => cases h

/-- The calls of other keys show nothing. -/
theorem filterMap_plain?_filter (key : String) (events : List Event) :
    (events.filter (concerns key)).filterMap (plain? key) = events.filterMap (plain? key) := by
  induction events with
  | nil => rfl
  | cons e rest ih =>
      cases hown : e.concerns key with
      | true => rw [List.filter_cons_of_pos hown, List.filterMap_cons, List.filterMap_cons, ih]
      | false =>
          rw [List.filter_cons_of_neg (by simp [hown]), ih,
            List.filterMap_cons_none (plain?_of_not_concerns hown)]

end Event

/-- The keys that a run uses. -/
def callers (events : List Event) : Finset String :=
  (events.filterMap Event.caller?).toFinset

namespace Moment

def crowds (key : String) (m : Moment R) : Bool :=
  (m.limiter.bucket? key).isNone && decide (m.limiter.policy.limit ≤ m.limiter.tracked)

def answer? (key : String) (m : Moment R) : Option Bool :=
  match m.event with
  | .call other now => if other = key then some (m.limiter.allow other now).1 else none
  | .sweep _ => none

def sighting? (key : String) (m : Moment R) : Option Sighting :=
  match m.event with
  | .call other now => if other = key then some (.call now (m.crowds key)) else none
  | .sweep now => some (.sweep now)

/-- A call of the key finds its bucket. -/
def finds (key : String) (m : Moment R) : Bool :=
  match m.event with
  | .call other _ => other != key || (m.limiter.bucket? key).isSome
  | .sweep _ => true

omit [Level R] in
theorem sighting?_of_finds {key : String} {m : Moment R} (h : m.finds key = true) :
    m.sighting? key = m.event.plain? key := by
  obtain ⟨l, e⟩ := m
  cases e with
  | sweep now => rfl
  | call other now =>
      by_cases hother : other = key
      · have hsome : (l.bucket? key).isSome = true := by simpa [finds, hother] using h
        have hcrowds : crowds key ⟨l, .call other now⟩ = false := by
          simp [crowds, Option.isNone_eq_false_iff.2 hsome]
        simp only [sighting?, Event.plain?, hcrowds]
      · simp only [sighting?, Event.plain?, if_neg hother]

end Moment

namespace Limiter

variable {l l' : Limiter R} {key : String} {events : List Event}

/-- The answers to the calls of a key in a run, in order. -/
def answers (l : Limiter R) (events : List Event) (key : String) : List Bool :=
  (l.history events).filterMap (Moment.answer? key)

def sightings (l : Limiter R) (events : List Event) (key : String) : List Sighting :=
  (l.history events).filterMap (Moment.sighting? key)

def afterAll (l : Limiter R) (events : List Event) : Limiter R :=
  events.foldl after l

/-- The key is tracked at each of its calls. -/
def Finds (l : Limiter R) (key : String) (events : List Event) : Prop :=
  ∀ m ∈ l.history events, m.finds key = true

theorem history_append (l : Limiter R) (xs ys : List Event) :
    l.history (xs ++ ys) = l.history xs ++ (l.afterAll xs).history ys := by
  induction xs generalizing l with
  | nil => rfl
  | cons e rest ih => exact congrArg (⟨l, e⟩ :: ·) (ih (l.after e))

theorem answers_append (l : Limiter R) (xs ys : List Event) (key : String) :
    l.answers (xs ++ ys) key = l.answers xs key ++ (l.afterAll xs).answers ys key := by
  unfold answers
  rw [history_append, List.filterMap_append]

theorem answers_cons (l : Limiter R) (e : Event) (rest : List Event) (key : String) :
    l.answers (e :: rest) key =
      (Moment.answer? key ⟨l, e⟩).toList ++ (l.after e).answers rest key :=
  answers_append l [e] rest key

@[simp] theorem policy_afterAll (l : Limiter R) (events : List Event) :
    (l.afterAll events).policy = l.policy := by
  induction events generalizing l with
  | nil => rfl
  | cons e rest ih => exact (ih (l.after e)).trans (policy_after l e)

theorem Distinct.afterAll (h : l.Distinct) (events : List Event) :
    (l.afterAll events).Distinct := by
  induction events generalizing l with
  | nil => exact h
  | cons e rest ih => exact ih (h.after e)

/-! ## One event -/

theorem allow_of_not_crowds {now : Instant} (h : Moment.crowds key ⟨l, .call key now⟩ = false) :
    (l.allow key now).1 = (((l.bucket? key).getD (.full l.policy now)).consume l.policy now).1 ∧
      (l.after (.call key now)).bucket? key =
        some (((l.bucket? key).getD (.full l.policy now)).consume l.policy now).2 := by
  cases hb : l.bucket? key with
  | some b =>
      simp only [after, allow, hb]
      exact ⟨rfl, bucket?_setBucket_self hb _⟩
  | none =>
      have hroom : ¬ l.policy.limit ≤ l.tracked := by simpa [Moment.crowds, hb] using h
      simp only [after, allow, hb, if_neg hroom]
      exact ⟨rfl, bucket?_addBucket_self hb _⟩

/-- What a key sees of an event decides the answer to it and what the event leaves of its bucket. -/
theorem Distinct.step_of_sighting (h : l.Distinct) {e : Event} {s : Sighting}
    (hs : Moment.sighting? key ⟨l, e⟩ = some s) :
    Moment.answer? key ⟨l, e⟩ = s.answer? l.policy (l.bucket? key) ∧
      (l.after e).bucket? key = s.left? l.policy (l.bucket? key) := by
  cases e with
  | sweep now =>
      cases hs
      exact ⟨rfl, bucket?_swept h key now⟩
  | call other now =>
      simp only [Moment.sighting?] at hs
      split at hs
      · next hkey =>
          cases hs
          subst hkey
          cases hcrowds : Moment.crowds other ⟨l, .call other now⟩ with
          | true =>
              simp only [Moment.crowds, Bool.and_eq_true, Option.isNone_iff_eq_none,
                decide_eq_true_eq] at hcrowds
              have hrefused := allow_at_limit hcrowds.1 hcrowds.2 now
              exact ⟨(if_pos rfl).trans (by rw [hrefused]; rfl),
                by rw [Limiter.after, hrefused]; rfl⟩
          | false =>
              obtain ⟨hanswer, hleft⟩ := allow_of_not_crowds hcrowds
              exact ⟨(if_pos rfl).trans (by rw [hanswer]; rfl), hleft⟩
      · cases hs

theorem step_of_no_sighting {e : Event} (h : Moment.sighting? key ⟨l, e⟩ = none) :
    Moment.answer? key ⟨l, e⟩ = none ∧ (l.after e).bucket? key = l.bucket? key := by
  cases e with
  | sweep now => cases h
  | call other now =>
      simp only [Moment.sighting?] at h
      split at h
      · cases h
      · next hkey => exact ⟨if_neg hkey, bucket?_after_call_of_ne l (Ne.symm hkey) now⟩

/-! ## Runs -/

theorem Distinct.answers_eq_lone (h : l.Distinct) (events : List Event) (key : String) :
    l.answers events key = lone l.policy (l.bucket? key) (l.sightings events key) := by
  induction events generalizing l with
  | nil => rfl
  | cons e rest ih =>
      have hrest := ih (h.after e)
      rw [policy_after] at hrest
      rw [answers_cons, hrest]
      unfold sightings
      rw [history]
      cases hs : Moment.sighting? key ⟨l, e⟩ with
      | none =>
          obtain ⟨hanswer, hbucket⟩ := step_of_no_sighting hs
          rw [List.filterMap_cons_none hs, hanswer, hbucket]
          rfl
      | some s =>
          obtain ⟨hanswer, hbucket⟩ := h.step_of_sighting hs
          rw [List.filterMap_cons_some hs, hanswer, hbucket]
          rfl

/-- A key that is never crowded out sees what it would see without the others. -/
theorem sightings_eq_plain
    (h : ∀ m ∈ l.history events, m.sighting? key = m.event.plain? key) :
    l.sightings events key = events.filterMap (Event.plain? key) := by
  induction events generalizing l with
  | nil => rfl
  | cons e rest ih =>
      have hfirst : Moment.sighting? key ⟨l, e⟩ = e.plain? key := h _ List.mem_cons_self
      have hrest : (l.after e).sightings rest key = rest.filterMap (Event.plain? key) :=
        ih fun m hm => h m (List.mem_cons_of_mem _ hm)
      unfold sightings at hrest ⊢
      rw [history, List.filterMap_cons, List.filterMap_cons, hfirst, hrest]

/-! ## Few keys -/

theorem mem_keys_after {e : Event} {k : String}
    (h : k ∈ (l.after e).buckets.map Prod.fst) :
    k ∈ l.buckets.map Prod.fst ∨ e.caller? = some k := by
  cases e with
  | sweep now => exact .inl ((List.filter_sublist.map Prod.fst).subset h)
  | call other now =>
      simp only [after, allow] at h
      split at h
      · unfold setBucket at h
        rw [map_fst_replace] at h
        exact .inl h
      · split at h
        · exact .inl h
        · unfold addBucket at h
          rw [List.map_append, List.mem_append, List.map_singleton, List.mem_singleton] at h
          exact h.imp_right fun hk => by rw [hk]; rfl

omit [Level R] in
/-- Where a key has no bucket the limiter has room, if all keys together do not exceed its limit. -/
theorem Distinct.tracked_lt {keys : Finset String} (h : l.Distinct)
    (hkeys : ∀ k ∈ l.buckets.map Prod.fst, k ∈ keys) (hkey : key ∈ keys)
    (hnone : l.bucket? key = none) : l.tracked < keys.card := by
  have hnodup : (key :: l.buckets.map Prod.fst).Nodup :=
    List.nodup_cons.2 ⟨not_mem_map_fst_of_lookup hnone, h⟩
  have hsubset : (key :: l.buckets.map Prod.fst).toFinset ⊆ keys := by
    intro k hk
    rcases List.mem_cons.1 (List.mem_toFinset.1 hk) with rfl | hk
    · exact hkey
    · exact hkeys k hk
  have hcard := Finset.card_le_card hsubset
  rw [List.toFinset_card_of_nodup hnodup, List.length_cons, List.length_map] at hcard
  exact hcard

theorem Distinct.sightings_of_few {keys : Finset String} (h : l.Distinct)
    (hkeys : ∀ k ∈ l.buckets.map Prod.fst, k ∈ keys)
    (hevents : ∀ e ∈ events, ∀ k, e.caller? = some k → k ∈ keys)
    (hlimit : keys.card ≤ l.policy.limit) :
    ∀ m ∈ l.history events, m.sighting? key = m.event.plain? key := by
  induction events generalizing l with
  | nil => simp [history]
  | cons e rest ih =>
      have hafter : ∀ k ∈ (l.after e).buckets.map Prod.fst, k ∈ keys := by
        intro k hk
        rcases mem_keys_after hk with hold | hcaller
        · exact hkeys k hold
        · exact hevents e List.mem_cons_self k hcaller
      have hrest := ih (h.after e) hafter
        (fun f hf => hevents f (List.mem_cons_of_mem e hf)) (by rwa [policy_after])
      intro m hm
      rcases List.mem_cons.1 hm with rfl | hm
      · cases e with
        | sweep now => rfl
        | call other now =>
            by_cases hother : other = key
            · have hkey : key ∈ keys :=
                hevents _ List.mem_cons_self key (by rw [← hother]; rfl)
              have hcrowds : Moment.crowds key ⟨l, .call other now⟩ = false := by
                cases hb : l.bucket? key with
                | some b => simp [Moment.crowds, hb]
                | none =>
                    have hroom := h.tracked_lt hkeys hkey hb
                    simp only [Moment.crowds, hb, Option.isNone_none, Bool.true_and,
                      decide_eq_false_iff_not]
                    omega
              simp only [Moment.sighting?, Event.plain?, hcrowds]
            · simp only [Moment.sighting?, Event.plain?, if_neg hother]
      · exact hrest m hm

/-- A key that is among few is never crowded out, also where some of the events are left out. -/
theorem answers_of_few (p : Policy R) (key : String) {run : List Event}
    (hrun : ∀ e ∈ run, e ∈ events) (h : (callers events).card ≤ p.limit) :
    (new p).answers run key = lone p none (run.filterMap (Event.plain? key)) := by
  have hcallers : ∀ e ∈ run, ∀ k, e.caller? = some k → k ∈ callers events :=
    fun e he k hk => List.mem_toFinset.2 (List.mem_filterMap.2 ⟨e, hrun e he, hk⟩)
  have hsighted : ∀ m ∈ (new p).history run, m.sighting? key = m.event.plain? key :=
    (distinct_new p).sightings_of_few (by simp [new]) hcallers h
  have hplain := sightings_eq_plain hsighted
  rw [(distinct_new p).answers_eq_lone, hplain]
  rfl

theorem answers_filter_of_few (p : Policy R) (key : String)
    (h : (callers events).card ≤ p.limit) :
    (new p).answers (events.filter (Event.concerns key)) key = (new p).answers events key := by
  rw [answers_of_few p key (fun e he => (List.mem_filter.1 he).1) h,
    answers_of_few p key (fun e he => he) h, Event.filterMap_plain?_filter]

/-! ## Keys that are tracked -/

theorem finds_cons (l : Limiter R) (key : String) (e : Event) (rest : List Event) :
    l.Finds key (e :: rest) ↔ Moment.finds key ⟨l, e⟩ = true ∧ (l.after e).Finds key rest := by
  unfold Finds
  rw [history, List.forall_mem_cons]

/-- Whether a key stays tracked does not depend on the calls of other keys. -/
theorem Distinct.finds_filter_iff (h : l.Distinct) (h' : l'.Distinct)
    (hpolicy : l'.policy = l.policy) (hbucket : l'.bucket? key = l.bucket? key) :
    l'.Finds key (events.filter (Event.concerns key)) ↔ l.Finds key events := by
  induction events generalizing l l' with
  | nil => simp [Finds, history]
  | cons e rest ih =>
      cases hown : e.concerns key with
      | false =>
          obtain ⟨other, now, rfl⟩ : ∃ other now, e = .call other now := by
            cases e with
            | call other now => exact ⟨other, now, rfl⟩
            | sweep now => cases hown
          have hother : other ≠ key := by simpa [Event.concerns] using hown
          have hfinds : Moment.finds key ⟨l, .call other now⟩ = true := by
            simp [Moment.finds, hother]
          have hrest := ih (h.after (.call other now)) h' (hpolicy.trans (policy_after _ _).symm)
            (hbucket.trans (bucket?_after_call_of_ne l (Ne.symm hother) now).symm)
          rw [List.filter_cons_of_neg (by simp [hown]), hrest, finds_cons, hfinds]
          simp
      | true =>
          have hfinds : Moment.finds key ⟨l', e⟩ = Moment.finds key ⟨l, e⟩ := by
            cases e with
            | call other now => simp only [Moment.finds, hbucket]
            | sweep now => rfl
          rw [List.filter_cons_of_pos hown, finds_cons, finds_cons, hfinds]
          apply and_congr_right
          intro hfound
          have hplain : ∃ s, e.plain? key = some s := by
            cases e with
            | call other now => exact ⟨_, if_pos (by simpa [Event.concerns] using hown)⟩
            | sweep now => exact ⟨_, rfl⟩
          obtain ⟨s, hs⟩ := hplain
          have hstep := h.step_of_sighting ((Moment.sighting?_of_finds hfound).trans hs)
          have hstep' := h'.step_of_sighting
            ((Moment.sighting?_of_finds (hfinds.trans hfound)).trans hs)
          apply ih (h.after e) (h'.after e)
          · rw [policy_after, policy_after, hpolicy]
          · rw [hstep.2, hstep'.2, hpolicy, hbucket]

theorem Distinct.answers_of_finds (h : l.Distinct) (hfinds : l.Finds key events) :
    l.answers events key =
      lone l.policy (l.bucket? key) ((events.filter (Event.concerns key)).filterMap
        (Event.plain? key)) := by
  have hplain := sightings_eq_plain fun m hm => Moment.sighting?_of_finds (hfinds m hm)
  rw [h.answers_eq_lone, hplain, Event.filterMap_plain?_filter]

/--
The answers to a key are those of a lone bucket, which sees of the other keys only whether they
leave room for it.  So they are the same without the calls of other keys where all keys fit into
the limiter, and while the key is tracked they are the same whatever calls other keys make.
-/
theorem answers_isolated (p : Policy R) (key : String) (events : List Event) :
    (new p).answers events key = lone p none ((new p).sightings events key) ∧
    ((callers events).card ≤ p.limit →
      (new p).answers (events.filter (Event.concerns key)) key = (new p).answers events key) ∧
    ∀ more more' : List Event,
      more'.filter (Event.concerns key) = more.filter (Event.concerns key) →
      ((new p).afterAll events).Finds key more →
      (new p).answers (events ++ more') key = (new p).answers (events ++ more) key := by
  refine ⟨(distinct_new p).answers_eq_lone events key, answers_filter_of_few p key, ?_⟩
  intro more more' hown hfinds
  have hdistinct := (distinct_new p).afterAll events
  have hfinds' : ((new p).afterAll events).Finds key more' := by
    rw [← hdistinct.finds_filter_iff hdistinct rfl rfl] at hfinds ⊢
    rwa [hown]
  rw [answers_append, answers_append, hdistinct.answers_of_finds hfinds,
    hdistinct.answers_of_finds hfinds', hown]

/-- A run in which the key is refused, is swept away and comes back. -/
def sharedRun : List Event :=
  [.call "a" 0, .call "b" 0, .call "a" 0, .call "a" 0, .sweep 4000000000, .call "b" 4000000000,
    .call "a" 4000000000]

/-- Calls of the key, with others that the limiter has no room for. -/
def crowdedRun : List Event :=
  [.call "c" 4000000000, .call "a" 4000000000, .call "b" 4000000000, .call "a" 4000000000]

theorem answers_sharedRun_isolated :
    (callers sharedRun).card ≤ 2 ∧
    (new ⟨1, 2, 2⟩ : Limiter Rat).answers (sharedRun.filter (Event.concerns "a")) "a" =
      (new ⟨1, 2, 2⟩ : Limiter Rat).answers sharedRun "a" ∧
    (new ⟨1, 2, 2⟩ : Limiter Rat).answers sharedRun "a" = [true, true, false, true] ∧
    ((new ⟨1, 2, 2⟩ : Limiter Rat).afterAll sharedRun).Finds "a" crowdedRun ∧
    (new ⟨1, 2, 2⟩ : Limiter Rat).answers
        (sharedRun ++ crowdedRun.filter (Event.concerns "a")) "a" =
      (new ⟨1, 2, 2⟩ : Limiter Rat).answers (sharedRun ++ crowdedRun) "a" := by
  have hfew : (callers sharedRun).card ≤ 2 := by decide
  have hfinds : ((new ⟨1, 2, 2⟩ : Limiter Rat).afterAll sharedRun).Finds "a" crowdedRun := by
    unfold Finds
    decide +kernel
  obtain ⟨-, hfiltered, hcrowded⟩ := answers_isolated (⟨1, 2, 2⟩ : Policy Rat) "a" sharedRun
  exact ⟨hfew, hfiltered hfew, by decide +kernel, hfinds,
    hcrowded crowdedRun _ (by rw [List.filter_filter]; simp) hfinds⟩

end Limiter

end Tarpit.Rate
