import Tarpit.Proofs.Rate.Isolation
import Tarpit.Rate.Sweeper

/-!
# Commands to a limiter with sweepers

Everything that can be done with a limiter that is swept in the background, and
what each command does to the keys that it tracks.
-/

namespace Tarpit.Rate

variable {R : Type} [Level R]

inductive Command where
  | allow (key : String) (n : Nat)
  | sweep
  | moveClock (nanos : Int)
  | startSweeper (period : Nat)
  | advance (ms : Nat)
  | stop
  deriving DecidableEq

namespace Limiter

variable {l : Limiter R} {key : String}

/-! ## Tracked keys -/

/-- The keys that have a bucket. -/
def keys (l : Limiter R) : Finset String :=
  (l.buckets.map Prod.fst).toFinset

omit [Level R] in
theorem mem_keys : key ∈ l.keys ↔ (l.bucket? key).isSome = true := by
  rw [keys, List.mem_toFinset]
  cases hb : l.bucket? key with
  | none => simpa using not_mem_map_fst_of_lookup hb
  | some b => simpa using mem_map_fst_of_lookup hb

omit [Level R] in
theorem Distinct.card_keys (h : l.Distinct) : l.keys.card = l.tracked := by
  rw [keys, List.toFinset_card_of_nodup h, List.length_map]
  rfl

/-! ## Calls -/

theorem keys_allow (h : key ∈ l.keys ∨ l.tracked < l.policy.limit) (now : Instant) :
    (l.allow key now).2.keys = insert key l.keys := by
  have hcrowds : Moment.crowds key ⟨l, .call key now⟩ = false := by
    rcases h with hkey | hroom
    · simp [Moment.crowds, Option.isNone_eq_false_iff.2 (mem_keys.1 hkey)]
    · simp [Moment.crowds, Nat.not_le.2 hroom]
  obtain ⟨-, hleft⟩ := allow_of_not_crowds hcrowds
  ext other
  show other ∈ (l.after (.call key now)).keys ↔ other ∈ insert key l.keys
  rw [Finset.mem_insert, mem_keys, mem_keys]
  by_cases hother : other = key
  · simp [hother, hleft]
  · simp [hother, bucket?_after_call_of_ne l hother]

theorem keys_subset_allow (l : Limiter R) (key : String) (now : Instant) :
    l.keys ⊆ (l.allow key now).2.keys := by
  by_cases h : key ∈ l.keys ∨ l.tracked < l.policy.limit
  · rw [keys_allow h]
    exact Finset.subset_insert key l.keys
  · obtain ⟨hnew, hlimit⟩ := not_or.1 h
    rw [allow_at_limit (by simpa [mem_keys] using hnew) (Nat.not_lt.1 hlimit)]

/-- At the limit a key that is not tracked is turned away however often it comes. -/
theorem allowTimes_at_limit (hnew : key ∉ l.keys) (hlimit : l.policy.limit ≤ l.tracked)
    (now : Instant) (n : Nat) : l.allowTimes key now n = (List.replicate n false, l) := by
  have hrefused := allow_at_limit (by simpa [mem_keys] using hnew) hlimit now
  induction n with
  | zero => rfl
  | succ n ih => rw [allowTimes_succ, hrefused, ih, List.replicate_succ]

theorem bucket?_allowTimes_of_ne (l : Limiter R) {other : String} (h : other ≠ key)
    (now : Instant) (n : Nat) : (l.allowTimes key now n).2.bucket? other = l.bucket? other := by
  induction n generalizing l with
  | zero => rfl
  | succ n ih =>
      rw [allowTimes_succ]
      exact (ih _).trans (bucket?_after_call_of_ne l h now)

theorem allowTimes_keeps {P : Limiter R → Prop}
    (hallow : ∀ l key now, P l → P (l.allow key now).2) (h : P l) (key : String) (now : Instant)
    (n : Nat) : P (l.allowTimes key now n).2 := by
  induction n generalizing l with
  | zero => exact h
  | succ n ih =>
      rw [allowTimes_succ]
      exact ih (hallow l key now h)

theorem keys_allowTimes (h : key ∈ l.keys ∨ l.tracked < l.policy.limit) (now : Instant) (n : Nat) :
    (l.allowTimes key now (n + 1)).2.keys = insert key l.keys := by
  have hfirst := keys_allow h now
  have hkept : key ∈ (l.allowTimes key now (n + 1)).2.keys := by
    rw [allowTimes_succ]
    refine allowTimes_keeps (P := fun l => key ∈ l.keys) ?_ ?_ key now n
    · exact fun l other now hkey => keys_subset_allow l other now hkey
    · rw [hfirst]
      exact Finset.mem_insert_self key l.keys
  ext other
  by_cases hother : other = key
  · simp [hother, hkept]
  · simp [hother, mem_keys, bucket?_allowTimes_of_ne l hother]

/-! ## Sweeps -/

/-- Of several sweeps at one instant the first does all. -/
theorem sweptTimes_succ (l : Limiter R) (now : Instant) (n : Nat) :
    l.sweptTimes now (n + 1) = l.swept now := by
  induction n generalizing l with
  | zero => rfl
  | succ n ih => rw [sweptTimes, ih, swept_swept]

theorem sweptTimes_eq (l : Limiter R) (now : Instant) (n : Nat) :
    l.sweptTimes now n = if 0 < n then l.swept now else l := by
  cases n with
  | zero => rfl
  | succ n => rw [sweptTimes_succ, if_pos (Nat.succ_pos n)]

theorem tracked_sweep (l : Limiter R) (now : Instant) :
    (l.sweep now).1 + (l.sweep now).2.tracked = l.tracked :=
  Nat.sub_add_cancel (tracked_swept_le l now)

end Limiter

namespace Swept

open Tarpit.Time (Ticker)

variable {s : Swept R} {c : Command}

/-! ## Performing commands -/

/-- The answers to a command, of which only calls have any, and what it leaves. -/
def perform (s : Swept R) : Command → List Bool × Swept R
  | .allow key n => s.allowTimes key n
  | .sweep => ([], s.sweep.2)
  | .moveClock nanos => ([], s.moveClock nanos)
  | .startSweeper period => ([], s.startSweeper period)
  | .advance ms => ([], s.advance ms)
  | .stop => ([], s.stop)

def after (s : Swept R) (c : Command) : Swept R :=
  (s.perform c).2

def afterAll (s : Swept R) (commands : List Command) : Swept R :=
  commands.foldl after s

/-- The command sweeps: by itself, or because a tick of a task falls due. -/
def sweeps (s : Swept R) : Command → Bool
  | .sweep => true
  | .advance ms => s.sweepers.any fun t => 0 < t.ticks (s.running + ms)
  | _ => false

/-- However many ticks of however many tasks fall due at one time, they do what one sweep does. -/
theorem limiter_advance (s : Swept R) (ms : Nat) :
    (s.advance ms).limiter =
      if s.sweeps (.advance ms) then s.limiter.swept (s.now + (ms * 1000000 : Nat))
      else s.limiter := by
  have hticks : ∀ (tasks : List Ticker) (l : Limiter R),
      tasks.foldl (fun l t => l.sweptTimes (s.now + (ms * 1000000 : Nat))
        (t.ticks (s.running + ms))) l =
      if tasks.any fun t => 0 < t.ticks (s.running + ms) then
        l.swept (s.now + (ms * 1000000 : Nat)) else l := by
    intro tasks
    induction tasks with
    | nil => exact fun l => rfl
    | cons t rest ih =>
        intro l
        rw [List.foldl_cons, ih, Limiter.sweptTimes_eq, List.any_cons]
        by_cases hdue : 0 < t.ticks (s.running + ms)
        · simp [hdue, Limiter.swept_swept]
        · simp [hdue]
  exact hticks s.sweepers s.limiter

/-- What calls and sweeps keep of a limiter is kept by every command. -/
theorem after_keeps {P : Limiter R → Prop} (hallow : ∀ l key now, P l → P (l.allow key now).2)
    (hswept : ∀ l now, P l → P (l.swept now)) (h : P s.limiter) (c : Command) :
    P (s.after c).limiter := by
  cases c with
  | allow key n => exact Limiter.allowTimes_keeps hallow h key s.now n
  | sweep => exact hswept s.limiter s.now h
  | moveClock nanos => exact h
  | startSweeper period =>
      show P (s.startSweeper period).limiter
      unfold startSweeper
      split
      · exact h
      · exact h
  | advance ms =>
      show P (s.advance ms).limiter
      rw [limiter_advance]
      split
      · exact hswept _ _ h
      · exact h
  | stop => exact h

theorem afterAll_keeps {P : Limiter R → Prop} (hallow : ∀ l key now, P l → P (l.allow key now).2)
    (hswept : ∀ l now, P l → P (l.swept now)) (h : P s.limiter) (commands : List Command) :
    P (s.afterAll commands).limiter := by
  induction commands generalizing s with
  | nil => exact h
  | cons c rest ih => exact ih (after_keeps hallow hswept h c)

/-- A key that is tracked stays tracked at least until a sweep. -/
theorem keys_subset_after (h : s.sweeps c = false) :
    s.limiter.keys ⊆ (s.after c).limiter.keys := by
  cases c with
  | allow key n =>
      intro other hother
      refine Limiter.allowTimes_keeps (P := fun l => other ∈ l.keys) ?_ hother key s.now n
      exact fun l key now hkept => Limiter.keys_subset_allow l key now hkept
  | sweep => cases h
  | moveClock nanos => exact Finset.Subset.refl _
  | startSweeper period =>
      show s.limiter.keys ⊆ (s.startSweeper period).limiter.keys
      unfold startSweeper
      split
      · exact Finset.Subset.refl _
      · exact Finset.Subset.refl _
  | advance ms =>
      show s.limiter.keys ⊆ (s.advance ms).limiter.keys
      rw [limiter_advance, h]
      exact Finset.Subset.refl _
  | stop => exact Finset.Subset.refl _

end Swept

end Tarpit.Rate
