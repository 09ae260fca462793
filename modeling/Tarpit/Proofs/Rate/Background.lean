import Mathlib.Data.List.Forall2
import Mathlib.Tactic.Ring
import Tarpit.Rate.Exact
import Tarpit.Proofs.Rate.Commands

/-!
# Sweeping tasks spelled out

A run with sweeping tasks is the run without them in which one sweep stands
wherever a tick of a task falls due.  Where that is depends on the commands
alone: the ticks of a task fall due whole periods after its start.
-/

namespace Tarpit.Rate

open Tarpit.Time (Ticker)

variable {R : Type} [Level R]

/-! ## Ticks -/

/-- A sweeping task, by the running time at its start and its period. -/
structure Task where
  start : Nat
  period : Nat
  deriving DecidableEq, Repr

namespace Task

/-- A tick of the task falls due behind one time, and not behind another. -/
def FallsDue (t : Task) (since till : Nat) : Prop :=
  ∃ k, 1 ≤ k ∧ since < t.start + k * t.period ∧ t.start + k * t.period ≤ till

instance (t : Task) (since till : Nat) : Decidable (t.FallsDue since till) :=
  decidable_of_iff
    (∃ k < till + 1, 1 ≤ k ∧ since < t.start + k * t.period ∧ t.start + k * t.period ≤ till) <| by
    constructor
    · rintro ⟨k, -, hk⟩
      exact ⟨k, hk⟩
    · rintro ⟨k, hk, hsince, htill⟩
      rcases Nat.eq_zero_or_pos t.period with hzero | hpos
      · rw [hzero, Nat.mul_zero] at hsince htill
        exact ⟨1, by omega, Nat.le_refl 1, by rw [hzero]; omega, by rw [hzero]; omega⟩
      · have hle := Nat.le_mul_of_pos_right k hpos
        exact ⟨k, by omega, hk, hsince, htill⟩

/-- The ticker of the task waits for its first tick behind a time. -/
structure Awaits (t : Task) (ticker : Ticker) (now : Nat) : Prop where
  period_eq : ticker.period = t.period
  period_pos : 0 < t.period
  due_eq : ∃ k, ticker.due = t.start + (k + 1) * t.period ∧ t.start + k * t.period ≤ now
  now_lt : now < ticker.due

variable {t : Task} {ticker : Ticker} {since till : Nat}

theorem awaits_start {period : Nat} (h : 0 < period) (now : Nat) :
    Awaits ⟨now, period⟩ (.start period now) now :=
  ⟨rfl, h, ⟨0, by simp [Ticker.start], by simp⟩, Nat.lt_add_of_pos_right h⟩

/-- The ticker is due just if a tick of its task is: of the ticks left the first is the awaited one. -/
theorem Awaits.ticks_pos_iff (h : t.Awaits ticker since) :
    0 < ticker.ticks till ↔ t.FallsDue since till := by
  obtain ⟨k, hdue, hpast⟩ := h.due_eq
  have hlater := h.now_lt
  rw [Nat.pos_iff_ne_zero, ne_eq, Ticker.ticks_eq_zero_iff, Nat.not_lt]
  constructor
  · intro hticks
    exact ⟨k + 1, Nat.succ_pos k, by omega, by omega⟩
  · rintro ⟨j, -, hsince, htill⟩
    have hk : k < j := by
      by_contra hle
      have hmul := Nat.mul_le_mul_right t.period (Nat.not_lt.1 hle)
      omega
    have hmul := Nat.mul_le_mul_right t.period (Nat.succ_le_of_lt hk)
    rw [Nat.succ_eq_add_one] at hmul
    omega

theorem Awaits.advance (h : t.Awaits ticker since) (hle : since ≤ till) :
    t.Awaits (ticker.advance till) till := by
  obtain ⟨k, hdue, hpast⟩ := h.due_eq
  have hpos : 0 < ticker.period := by rw [h.period_eq]; exact h.period_pos
  refine ⟨h.period_eq, h.period_pos, ⟨k + ticker.ticks till, ?_, ?_⟩, ?_⟩
  · show ticker.due + ticker.ticks till * ticker.period = _
    rw [hdue, h.period_eq]
    ring
  · rw [Ticker.ticks]
    split
    · rw [Nat.add_zero]
      omega
    · next hticks =>
        have hmul := Nat.div_mul_le_self (till - ticker.due) ticker.period
        rw [h.period_eq] at hmul ⊢
        have hsplit : (k + ((till - ticker.due) / t.period + 1)) * t.period =
            (k + 1) * t.period + (till - ticker.due) / t.period * t.period := by
          ring
        omega
  · exact Ticker.ticks_eq_zero_iff.1 (Ticker.ticks_advance hpos till)

end Task

/-! ## Runs spelled out -/

/-- The command neither starts nor stops a task. -/
def Command.isPlain : Command → Bool
  | .startSweeper _ | .stop => false
  | .allow _ _ | .sweep | .moveClock _ | .advance _ => true

/-- The tasks of a run, as far as its commands tell. -/
structure Roster where
  running : Nat
  tasks : List Task
  stopped : Bool

namespace Roster

def empty : Roster :=
  ⟨0, [], false⟩

def after (r : Roster) : Command → Roster
  | .startSweeper period =>
      if r.stopped ∨ period = 0 then r else { r with tasks := r.tasks ++ [⟨r.running, period⟩] }
  | .advance ms => { r with running := r.running + ms }
  | .stop => { r with tasks := [], stopped := true }
  | .allow _ _ | .sweep | .moveClock _ => r

def isDue (r : Roster) (ms : Nat) : Bool :=
  r.tasks.any fun t => decide (t.FallsDue r.running (r.running + ms))

/-- The commands that do without tasks what a command does with them. -/
def spelled (r : Roster) : Command → List Command
  | .startSweeper _ | .stop => []
  | .advance ms => if r.isDue ms then [.advance ms, .sweep] else [.advance ms]
  | .allow key n => [.allow key n]
  | .sweep => [.sweep]
  | .moveClock nanos => [.moveClock nanos]

def spelledOut (r : Roster) : List Command → List (List Command)
  | [] => []
  | c :: rest => r.spelled c :: (r.after c).spelledOut rest

theorem isPlain_of_mem_spelled {r : Roster} {c d : Command} (h : d ∈ r.spelled c) :
    d.isPlain = true := by
  cases c with
  | advance ms =>
      cases hdue : r.isDue ms with
      | true =>
          simp only [spelled, hdue, if_true, List.mem_cons, List.not_mem_nil, or_false] at h
          rcases h with rfl | rfl
          · rfl
          · rfl
      | false =>
          simp only [spelled, hdue, Bool.false_eq_true, if_false, List.mem_singleton] at h
          rw [h]
          rfl
  | startSweeper period => cases h
  | stop => cases h
  | _ =>
      rw [List.mem_singleton.1 h]
      rfl

theorem isPlain_of_mem_spelledOut {r : Roster} {commands group : List Command} {c : Command}
    (hgroup : group ∈ r.spelledOut commands) (hc : c ∈ group) : c.isPlain = true := by
  induction commands generalizing r with
  | nil => cases hgroup
  | cons d rest ih =>
      rcases List.mem_cons.1 hgroup with rfl | hrest
      · exact isPlain_of_mem_spelled hc
      · exact ih hrest

/-- The tasks of the roster are those that sweep the limiter. -/
structure Follows (r : Roster) (s : Swept R) : Prop where
  running : s.running = r.running
  stopped : s.stopped = r.stopped
  tasks : List.Forall₂ (fun t ticker => t.Awaits ticker r.running) r.tasks s.sweepers

variable {r : Roster} {s : Swept R}

omit [Level R] in
theorem follows_start (l : Limiter R) (now : Instant) : empty.Follows (Swept.start l now) :=
  ⟨rfl, rfl, .nil⟩

theorem Follows.after (h : r.Follows s) (c : Command) : (r.after c).Follows (s.after c) := by
  cases c with
  | allow key n => exact ⟨h.running, h.stopped, h.tasks⟩
  | sweep => exact ⟨h.running, h.stopped, h.tasks⟩
  | moveClock nanos => exact ⟨h.running, h.stopped, h.tasks⟩
  | startSweeper period =>
      show (r.after (.startSweeper period)).Follows (s.startSweeper period)
      simp only [Roster.after, Swept.startSweeper, h.stopped, h.running]
      split
      · exact h
      · next hruns =>
          have hpos := Nat.pos_of_ne_zero fun hzero => hruns (.inr hzero)
          exact ⟨rfl, rfl, List.rel_append h.tasks (.cons (Task.awaits_start hpos r.running) .nil)⟩
  | advance ms =>
      refine ⟨congrArg (· + ms) h.running, h.stopped, ?_⟩
      show List.Forall₂ _ r.tasks (s.sweepers.map fun t => t.advance (s.running + ms))
      rw [List.forall₂_map_right_iff, h.running]
      exact h.tasks.imp fun t ticker hawaits => hawaits.advance (Nat.le_add_right _ _)
  | stop => exact ⟨h.running, rfl, .nil⟩

omit [Level R] in
theorem Follows.sweeps_advance (h : r.Follows s) (ms : Nat) :
    s.sweeps (.advance ms) = r.isDue ms := by
  have hany : ∀ {tasks : List Task} {tickers : List Ticker},
      List.Forall₂ (fun t ticker => t.Awaits ticker r.running) tasks tickers →
      (tickers.any fun ticker => 0 < ticker.ticks (r.running + ms)) =
        tasks.any fun t => decide (t.FallsDue r.running (r.running + ms)) := by
    intro tasks tickers htasks
    induction htasks with
    | nil => rfl
    | cons hawaits _ ih =>
        rw [List.any_cons, List.any_cons, ih, decide_eq_decide.2 hawaits.ticks_pos_iff]
  unfold Swept.sweeps isDue
  rw [h.running]
  exact hany h.tasks

end Roster

namespace Swept

/-- The answers to some commands in order. -/
def answersTo (s : Swept R) : List Command → List Bool
  | [] => []
  | c :: rest => (s.perform c).1 ++ (s.after c).answersTo rest

/-- The answers to each group of commands, and how many keys are tracked behind it. -/
def view (s : Swept R) : List (List Command) → List (List Bool × Nat)
  | [] => []
  | group :: rest =>
      (s.answersTo group, (s.afterAll group).limiter.tracked) :: (s.afterAll group).view rest

/-- The second one has the same limiter at the same instant, and no tasks. -/
structure Unmanned (s s' : Swept R) : Prop where
  limiter : s'.limiter = s.limiter
  now : s'.now = s.now
  sweepers : s'.sweepers = []

variable {r : Roster} {s s' : Swept R}

theorem Unmanned.advance (h : s.Unmanned s') (ms : Nat) :
    (s'.advance ms).limiter = s.limiter ∧ (s'.advance ms).now = s.now + (ms * 1000000 : Nat) ∧
      (s'.advance ms).sweepers = [] := by
  simp [Swept.advance, h.sweepers, h.limiter, h.now]

/-- A command answers and leaves behind what the commands do that spell it out. -/
theorem Unmanned.perform (h : s.Unmanned s') (hr : r.Follows s) (c : Command) :
    s'.answersTo (r.spelled c) = (s.perform c).1 ∧
      (s.after c).Unmanned (s'.afterAll (r.spelled c)) := by
  cases c with
  | allow key n =>
      have hanswers : s'.limiter.allowTimes key s'.now n = s.limiter.allowTimes key s.now n := by
        rw [h.limiter, h.now]
      refine ⟨?_, congrArg Prod.snd hanswers, h.now, h.sweepers⟩
      show (s'.limiter.allowTimes key s'.now n).1 ++ [] = _
      rw [List.append_nil, hanswers]
      rfl
  | sweep =>
      refine ⟨rfl, ?_, h.now, h.sweepers⟩
      show s'.limiter.swept s'.now = s.limiter.swept s.now
      rw [h.limiter, h.now]
  | moveClock nanos => exact ⟨rfl, h.limiter, congrArg (· + nanos) h.now, h.sweepers⟩
  | startSweeper period =>
      refine ⟨rfl, ?_⟩
      show (s.startSweeper period).Unmanned s'
      unfold Swept.startSweeper
      split
      · exact h
      · exact ⟨h.limiter, h.now, h.sweepers⟩
  | advance ms =>
      obtain ⟨hlimiter, hnow, hsweepers⟩ := h.advance ms
      have hswept := limiter_advance s ms
      rw [hr.sweeps_advance] at hswept
      cases hdue : r.isDue ms with
      | true =>
          have hspelled : r.spelled (.advance ms) = [.advance ms, .sweep] := if_pos hdue
          rw [hdue, if_pos rfl] at hswept
          rw [hspelled]
          refine ⟨rfl, ?_, hnow, hsweepers⟩
          show (s'.advance ms).limiter.swept (s'.advance ms).now = (s.advance ms).limiter
          rw [hswept, hlimiter, hnow]
      | false =>
          have hspelled : r.spelled (.advance ms) = [.advance ms] := if_neg (by simp [hdue])
          rw [hdue, if_neg (by decide)] at hswept
          rw [hspelled]
          exact ⟨rfl, hlimiter.trans hswept.symm, hnow, hsweepers⟩
  | stop => exact ⟨rfl, h.limiter, h.now, h.sweepers⟩

theorem Unmanned.view (h : s.Unmanned s') (hr : r.Follows s) (commands : List Command) :
    s.view (commands.map fun c => [c]) = s'.view (r.spelledOut commands) := by
  induction commands generalizing r s s' with
  | nil => rfl
  | cons c rest ih =>
      obtain ⟨hanswers, hafter⟩ := h.perform hr c
      have hrest := ih hafter (hr.after c)
      rw [List.map_cons, Roster.spelledOut, Swept.view, Swept.view, hanswers, hafter.limiter]
      exact congrArg₂ List.cons (Prod.ext (List.append_nil _) rfl) hrest

/-! ## After a stop -/

/-- The tasks were stopped, and there are no others. -/
structure Ended (s : Swept R) : Prop where
  stopped : s.stopped = true
  sweepers : s.sweepers = []

theorem Ended.after (h : s.Ended) (c : Command) : (s.after c).Ended := by
  cases c with
  | startSweeper period =>
      have hnone : s.startSweeper period = s := if_pos (.inl h.stopped)
      show (s.startSweeper period).Ended
      rw [hnone]
      exact h
  | advance ms =>
      refine ⟨h.stopped, ?_⟩
      show s.sweepers.map _ = []
      rw [h.sweepers, List.map_nil]
  | stop => exact ⟨rfl, rfl⟩
  | _ => exact ⟨h.stopped, h.sweepers⟩

theorem ended_afterAll {commands : List Command} (h : s.Ended ∨ .stop ∈ commands) :
    (s.afterAll commands).Ended := by
  induction commands generalizing s with
  | nil =>
      show s.Ended
      simpa using h
  | cons c rest ih =>
      apply ih
      rcases h with hended | hstop
      · exact .inl (hended.after c)
      · rcases List.mem_cons.1 hstop with rfl | hrest
        · exact .inl ⟨rfl, rfl⟩
        · exact .inr hrest

omit [Level R] in
theorem Ended.sweeps_eq_false (h : s.Ended) {c : Command} (hc : c ≠ .sweep) :
    s.sweeps c = false := by
  cases c with
  | sweep => exact absurd rfl hc
  | advance ms => simp [sweeps, h.sweepers]
  | _ => rfl

/--
A sweep removes the buckets that are full and no others, and what it leaves a second one does as
well.  So a run with tasks looks like the run without them in which one sweep stands wherever time
passes to a tick, and behind a stop only a sweep lets a key go.
-/
theorem view_spelledOut {l : Limiter R} (h : l.Distinct) (now : Instant) :
    (∀ key, (l.sweep now).2.bucket? key =
      (l.bucket? key).filter fun b => !b.isFull l.policy now) ∧
    (l.sweep now).2.sweep now = (0, (l.sweep now).2) ∧
    (∀ commands, (∀ group ∈ Roster.empty.spelledOut commands, ∀ c ∈ group, c.isPlain = true) ∧
      (start l now).view (commands.map fun c => [c]) =
        (start l now).view (Roster.empty.spelledOut commands)) ∧
    ∀ before c, .stop ∈ before → c ≠ .sweep →
      ((start l now).afterAll before).limiter.keys ⊆
        (((start l now).afterAll before).after c).limiter.keys := by
  refine ⟨?_, ?_, ?_, ?_⟩
  · intro key
    exact Limiter.bucket?_swept h key now
  · show ((l.swept now).tracked - ((l.swept now).swept now).tracked, (l.swept now).swept now) = _
    rw [Limiter.swept_swept, Nat.sub_self]
    rfl
  · intro commands
    have hunmanned : (start l now).Unmanned (start l now) := ⟨rfl, rfl, rfl⟩
    exact ⟨fun group hgroup c hc => Roster.isPlain_of_mem_spelledOut hgroup hc,
      hunmanned.view (Roster.follows_start l now) commands⟩
  · intro before c hstop hc
    have hended : ((start l now).afterAll before).Ended := ended_afterAll (.inr hstop)
    exact keys_subset_after (hended.sweeps_eq_false hc)

/-- One key with a full bucket, and one with an empty bucket. -/
def halfIdle : Limiter Rat :=
  ⟨⟨100, 1, 3⟩, [("a", ⟨1, 0⟩), ("b", ⟨0, 0⟩)]⟩

/-- Two tasks of which ticks are missed, two stops, and a task that comes too late. -/
def mannedRun : List Command :=
  [.startSweeper 10, .advance 3, .startSweeper 7, .allow "c" 2, .advance 6, .advance 25,
    .allow "b" 2, .stop, .stop, .startSweeper 1, .advance 50, .allow "a" 1, .sweep]

theorem view_spelledOut_mannedRun :
    halfIdle.Distinct ∧
    ((halfIdle.sweep 0).2.bucket? "a").isNone = true ∧
    ((halfIdle.sweep 0).2.bucket? "b").isSome = true ∧
    (start halfIdle 0).view (mannedRun.map fun c => [c]) =
      [([], 2), ([], 2), ([], 2), ([true, false], 3), ([], 3), ([], 0), ([true, false], 1),
        ([], 1), ([], 1), ([], 1), ([], 1), ([true], 2), ([], 1)] ∧
    ((start halfIdle 0).afterAll (mannedRun.take 10)).limiter.keys ⊆
      (((start halfIdle 0).afterAll (mannedRun.take 10)).after (.advance 50)).limiter.keys := by
  have hdistinct : halfIdle.Distinct := by
    unfold Limiter.Distinct
    decide
  obtain ⟨hswept, -, hview, hstopped⟩ := view_spelledOut hdistinct 0
  refine ⟨hdistinct, ?_, ?_, ?_, ?_⟩
  · rw [hswept]
    decide +kernel
  · rw [hswept]
    decide +kernel
  · rw [(hview mannedRun).2]
    decide +kernel
  · exact hstopped _ _ (by decide) (by decide)

end Swept

end Tarpit.Rate
