import Tarpit.Proofs.Rate.Commands

/-!
# The limit on tracked keys

Whatever is done with a limiter, it never tracks more keys than its policy lets
it, and only sweeps let a key go.
-/

namespace Tarpit.Rate

variable {R : Type} [Level R]

/-- The limiter follows the policy, and has one bucket each for no more keys than it allows. -/
structure Limiter.Capped (p : Policy R) (l : Limiter R) : Prop where
  policy : l.policy = p
  distinct : l.Distinct
  tracked_le : l.tracked ≤ p.limit

namespace Limiter.Capped

variable {p : Policy R} {l : Limiter R}

omit [Level R] in
theorem new (p : Policy R) : (Limiter.new p).Capped p :=
  ⟨rfl, distinct_new p, Nat.zero_le p.limit⟩

theorem allow (h : l.Capped p) (key : String) (now : Instant) : (l.allow key now).2.Capped p := by
  obtain ⟨rfl, hdistinct, htracked⟩ := h
  exact ⟨policy_after l (.call key now), hdistinct.after (.call key now),
    tracked_allow_le htracked key now⟩

theorem swept (h : l.Capped p) (now : Instant) : (l.swept now).Capped p :=
  ⟨h.policy, h.distinct.after (.sweep now), Nat.le_trans (tracked_swept_le l now) h.tracked_le⟩

end Limiter.Capped

namespace Swept

/--
After every run the limiter tracks no more keys than its limit.  There a key that is not tracked is
turned away and nothing changes; otherwise the calls of a key add it to the tracked ones, if it was
none of them, and touch no bucket of another key.  No key is let go except by sweeps, and a sweep
tells how many it lets go.
-/
theorem tracks_up_to_limit (p : Policy R) (now : Instant) (commands : List Command) :
    let s := (start (.new p) now).afterAll commands
    (s.limiter.tracked = s.limiter.keys.card ∧ s.limiter.tracked ≤ p.limit) ∧
    (∀ key n, key ∉ s.limiter.keys → p.limit ≤ s.limiter.tracked →
      s.perform (.allow key n) = (List.replicate n false, s)) ∧
    (∀ key n, key ∈ s.limiter.keys ∨ s.limiter.tracked < p.limit →
      (s.after (.allow key (n + 1))).limiter.keys = insert key s.limiter.keys ∧
        ∀ other, other ≠ key →
          (s.after (.allow key (n + 1))).limiter.bucket? other = s.limiter.bucket? other) ∧
    (∀ c, s.sweeps c = false → s.limiter.keys ⊆ (s.after c).limiter.keys) ∧
    s.sweep.1 + (s.after .sweep).limiter.tracked = s.limiter.tracked := by
  intro s
  have hcapped : s.limiter.Capped p :=
    afterAll_keeps (fun l key now h => h.allow key now) (fun l now h => h.swept now)
      (Limiter.Capped.new p) commands
  obtain ⟨hpolicy, hdistinct, htracked⟩ := hcapped
  refine ⟨⟨hdistinct.card_keys.symm, htracked⟩, ?_, ?_, ?_, ?_⟩
  · intro key n hnew hlimit
    rw [← hpolicy] at hlimit
    show s.allowTimes key n = (List.replicate n false, s)
    rw [allowTimes, Limiter.allowTimes_at_limit hnew hlimit]
  · intro key n hplace
    rw [← hpolicy] at hplace
    constructor
    · exact Limiter.keys_allowTimes hplace s.now n
    · intro other hother
      exact Limiter.bucket?_allowTimes_of_ne s.limiter hother s.now (n + 1)
  · intro c hc
    exact keys_subset_after hc
  · exact Limiter.tracked_sweep s.limiter s.now

end Swept

end Tarpit.Rate
