import Tarpit.Proofs.Lookup
import Tarpit.Rate.Limiter

/-!
# Runs of the limiter

A run is a list of calls and sweeps, each at an instant.  Every event of a run
is kept with the limiter that it met.
-/

namespace Tarpit.Rate

variable {R : Type} [Level R]

inductive Event where
  | call (key : String) (now : Instant)
  | sweep (now : Instant)

def Event.time : Event → Instant
  | .call _ now => now
  | .sweep now => now

/-- An event with the limiter that it met. -/
structure Moment (R : Type) where
  limiter : Limiter R
  event : Event

namespace Moment

def admits (key : String) (m : Moment R) : Bool :=
  match m.event with
  | .call other now => other == key && (m.limiter.allow other now).1
  | .sweep _ => false

def evicts (key : String) (m : Moment R) : Bool :=
  match m.event with
  | .call _ _ => false
  | .sweep now =>
      (m.limiter.bucket? key).isSome && ((m.limiter.sweep now).2.bucket? key).isNone

def within (s t : Instant) (m : Moment R) : Bool :=
  decide (s ≤ m.event.time) && decide (m.event.time ≤ t)

end Moment

namespace Limiter

def after (l : Limiter R) : Event → Limiter R
  | .call key now => (l.allow key now).2
  | .sweep now => (l.sweep now).2

def history (l : Limiter R) : List Event → List (Moment R)
  | [] => []
  | e :: rest => ⟨l, e⟩ :: (l.after e).history rest

/-- The number of calls of a key that were let through between two instants. -/
def admissions (l : Limiter R) (events : List Event) (key : String) (s t : Instant) : Nat :=
  (l.history events).countP fun m => m.within s t && m.admits key

/-- The number of sweeps between two instants that removed the bucket of a key. -/
def evictions (l : Limiter R) (events : List Event) (key : String) (s t : Instant) : Nat :=
  (l.history events).countP fun m => m.within s t && m.evicts key

/-! ## Buckets after an event -/

/-- Each key has one bucket at most. -/
def Distinct (l : Limiter R) : Prop :=
  (l.buckets.map Prod.fst).Nodup

omit [Level R] in
theorem distinct_new (p : Policy R) : (new p).Distinct :=
  List.nodup_nil

omit [Level R] in
theorem bucket?_setBucket_self {l : Limiter R} {key : String} {old : Bucket R}
    (h : l.bucket? key = some old) (b : Bucket R) : (l.setBucket key b).bucket? key = some b := by
  unfold bucket? setBucket at *
  rw [lookup_replace_self, h]
  rfl

omit [Level R] in
theorem bucket?_setBucket_of_ne (l : Limiter R) {key other : String} (h : other ≠ key)
    (b : Bucket R) : (l.setBucket key b).bucket? other = l.bucket? other :=
  lookup_replace_of_ne l.buckets h b

omit [Level R] in
theorem bucket?_addBucket_self {l : Limiter R} {key : String} (h : l.bucket? key = none)
    (b : Bucket R) : (l.addBucket key b).bucket? key = some b := by
  unfold bucket? addBucket at *
  rw [List.lookup_append, h]
  simp

omit [Level R] in
theorem bucket?_addBucket_of_ne (l : Limiter R) {key other : String} (h : other ≠ key)
    (b : Bucket R) : (l.addBucket key b).bucket? other = l.bucket? other := by
  have hne : (other == key) = false := by simpa using h
  simp only [bucket?, addBucket, List.lookup_append, List.lookup_cons, hne, List.lookup_nil,
    Option.or_none]

/-- A sweep keeps the bucket of a key unless it is full. -/
theorem bucket?_swept {l : Limiter R} (h : l.Distinct) (key : String) (now : Instant) :
    (l.swept now).bucket? key = (l.bucket? key).filter fun b => !b.isFull l.policy now :=
  lookup_filter_of_nodup h _ key

@[simp] theorem policy_after (l : Limiter R) (e : Event) : (l.after e).policy = l.policy := by
  cases e with
  | sweep now => rfl
  | call key now =>
      simp only [after, allow]
      split
      · rfl
      · split
        · rfl
        · rfl

theorem Distinct.after {l : Limiter R} (h : l.Distinct) (e : Event) : (l.after e).Distinct := by
  cases e with
  | sweep now => exact (List.filter_sublist.map Prod.fst).nodup h
  | call key now =>
      simp only [Limiter.after, allow]
      split
      · unfold Distinct setBucket
        rw [map_fst_replace]
        exact h
      · next hnew =>
          split
          · exact h
          · unfold Distinct addBucket
            rw [List.map_append, List.nodup_append]
            refine ⟨h, List.nodup_singleton _, ?_⟩
            intro a ha b hb hab
            rw [List.map_singleton, List.mem_singleton] at hb
            subst hab
            rw [hb] at ha
            exact not_mem_map_fst_of_lookup hnew ha

theorem bucket?_after_call_of_ne (l : Limiter R) {key other : String} (h : key ≠ other)
    (now : Instant) : (l.after (.call other now)).bucket? key = l.bucket? key := by
  simp only [after, allow]
  split
  · exact bucket?_setBucket_of_ne l h _
  · split
    · rfl
    · exact bucket?_addBucket_of_ne l h _

/-! ## Several calls at one instant -/

theorem allowMore_eq (l : Limiter R) (key : String) (now : Instant) (done : List Bool) (n : Nat) :
    l.allowMore key now done n =
      (done.reverse ++ (l.allowTimes key now n).1, (l.allowTimes key now n).2) := by
  induction n generalizing l done with
  | zero => simp [allowTimes, allowMore]
  | succ n ih =>
      simp only [allowTimes, allowMore]
      rw [ih, ih _ [_]]
      simp

theorem allowTimes_succ (l : Limiter R) (key : String) (now : Instant) (n : Nat) :
    l.allowTimes key now (n + 1) =
      ((l.allow key now).1 :: ((l.allow key now).2.allowTimes key now n).1,
        ((l.allow key now).2.allowTimes key now n).2) := by
  show (l.allow key now).2.allowMore key now [(l.allow key now).1] n = _
  rw [allowMore_eq]
  rfl

end Limiter

end Tarpit.Rate
