import Tarpit.Proofs.History.Snapshots
import Tarpit.Traffic.Session

/-!
# Restarts of memory stores

Memory stores that follow one another on a data directory look like one store
that was never closed, but for the visits that were not flushed.  A flusher that
is stopped leaves no such visits.
-/

namespace Tarpit.Traffic

open Tarpit.Time (Timestamp)

/-! ## Sittings with a flusher -/

/-- What is done while a flusher is running. -/
inductive Deed where
  | record (v : Visit)
  | flush
  | wait (ms : Nat)

def Deed.visit? : Deed → Option Visit
  | .record v => some v
  | .flush | .wait _ => none

namespace Session

def perform (s : Session) : Deed → Session
  | .record v => (s.record .waiting v).2
  | .flush => s.flush.2
  | .wait ms => s.advance ms

/-- A memory store is opened with a flusher, used until the flusher is stopped, and closed. -/
def sitting (s : Session) (limits : Limits) (directory : Path) (period : Nat)
    (deeds : List Deed) : Session :=
  let s := (s.reopen limits (.created .memory (some directory))).2
  (deeds.foldl perform (s.startFlusher period).2).stopFlusher.close

/-- The memory store is open and has the only flusher. -/
structure Flushing (s : Session) (m : MemoryStore) : Prop where
  store : s.store? = some (.memory m)
  flusher : s.flusher?.isSome = true
  strays : s.strays = []

variable {s : Session} {m : MemoryStore}

theorem flushed_eq (h : s.store? = some (.memory m)) :
    s.flushed = { s with volume := ((Store.memory m).act s.volume .flush).2 } := by
  unfold flushed flushedOf
  rw [h]
  rfl

theorem flush_eq (h : s.store? = some (.memory m)) :
    s.flush.2 = { s with volume := ((Store.memory m).act s.volume .flush).2 } := by
  unfold flush Store.act
  simp only [h]
  cases (Store.memory m).flush s.volume with
  | mk answer volume =>
      cases answer with
      | ok _ => rfl
      | error e => rfl

/-- The flusher flushes at most once while time passes. -/
theorem advance_eq {ticker : Time.Ticker} (h : s.store? = some (.memory m))
    (hticker : s.flusher? = some ticker) (hstrays : s.strays = []) (ms : Nat) :
    s.advance ms = { s with
      now := s.now.later (ms * 1000000)
      running := s.running + ms
      flusher? := some (ticker.advance (s.running + ms))
      volume :=
        if 0 < ticker.ticks (s.running + ms) then ((Store.memory m).act s.volume .flush).2
        else s.volume } := by
  obtain ⟨now, running, volume, store?, flusher?, strays⟩ := s
  simp only at h hticker hstrays
  subst h hticker hstrays
  unfold advance flushStrays flushDue
  simp only [List.foldl_nil, List.map_nil]
  split
  · rfl
  · rfl

theorem record_eq (h : s.store? = some (.memory m)) (v : Visit) :
    (s.record .waiting v).2 = { s with
      store? := some ((Store.memory m).act s.volume (.record v)).1
      volume := ((Store.memory m).act s.volume (.record v)).2 } := by
  unfold Session.record Store.act
  rw [h]
  simp only [Store.record, MemoryStore.record_eq]
  rfl

/-- A deed comes down to acts on the store: of the time that passes only flushes are left. -/
theorem Flushing.perform (h : s.Flushing m) (d : Deed) :
    ∃ acts m', acts.filterMap Act.visit? = d.visit?.toList ∧
      (Store.memory m).actAll s.volume acts = (.memory m', (s.perform d).volume) ∧
      (s.perform d).Flushing m' := by
  cases d with
  | record v =>
      have hact : (Store.memory m).act s.volume (.record v) =
          (.memory { m with stats := m.stats.record m.limits v },
            m.log?.elim s.volume fun log => log.append v.line s.volume) := by
        simp only [Store.act, Store.record, MemoryStore.record_eq]
        rfl
      refine ⟨[.record v], { m with stats := m.stats.record m.limits v }, rfl, ?_, ?_⟩
      · rw [Session.perform, record_eq h.store, hact]
        exact hact
      · rw [Session.perform, record_eq h.store, hact]
        exact ⟨rfl, h.flusher, h.strays⟩
  | flush =>
      refine ⟨[.flush], m, rfl, ?_, ?_⟩
      · rw [Session.perform, flush_eq h.store]
        rfl
      · rw [Session.perform, flush_eq h.store]
        exact ⟨h.store, h.flusher, h.strays⟩
  | wait ms =>
      obtain ⟨ticker, hticker⟩ := Option.isSome_iff_exists.1 h.flusher
      have hadvance := advance_eq h.store hticker h.strays ms
      by_cases hdue : 0 < ticker.ticks (s.running + ms)
      · rw [if_pos hdue] at hadvance
        refine ⟨[.flush], m, rfl, ?_, ?_⟩
        · rw [Session.perform, hadvance]
          rfl
        · rw [Session.perform, hadvance]
          exact ⟨h.store, rfl, h.strays⟩
      · rw [if_neg hdue] at hadvance
        refine ⟨[], m, rfl, ?_, ?_⟩
        · rw [Session.perform, hadvance]
          rfl
        · rw [Session.perform, hadvance]
          exact ⟨h.store, rfl, h.strays⟩

theorem Flushing.performAll (h : s.Flushing m) (deeds : List Deed) :
    ∃ acts m', acts.filterMap Act.visit? = deeds.filterMap Deed.visit? ∧
      (Store.memory m).actAll s.volume acts =
        (.memory m', (deeds.foldl Session.perform s).volume) ∧
      (deeds.foldl Session.perform s).Flushing m' := by
  induction deeds generalizing s m with
  | nil => exact ⟨[], m, rfl, rfl, h⟩
  | cons d rest ih =>
      obtain ⟨first, m₁, hvisits, hacts, hnext⟩ := h.perform d
      obtain ⟨more, m', hmore, hrest, hlast⟩ := ih hnext
      refine ⟨first ++ more, m', ?_, ?_, hlast⟩
      · rw [List.filterMap_append, hvisits, hmore, List.filterMap_cons]
        cases d.visit? with
        | none => rfl
        | some v => rfl
      · rw [Store.actAll_append, hacts]
        exact hrest

/-- The flusher flushes a last time when it is stopped. -/
theorem Flushing.volume_stopped (h : s.Flushing m) :
    s.stopFlusher.close.volume = ((Store.memory m).act s.volume .flush).2 := by
  obtain ⟨ticker, hticker⟩ := Option.isSome_iff_exists.1 h.flusher
  have hstopped : s.stopFlusher = { s.flushed with flusher? := none } := by
    rw [stopFlusher, hticker]
  rw [hstopped, flushed_eq h.store, close, stopFlusher]
  simp only [h.store]
  rfl

/-- No store is open and no flusher is left. -/
structure Idle (s : Session) : Prop where
  store : s.store? = none
  flusher : s.flusher? = none
  strays : s.strays = []

/-- A sitting is a lifetime that ends with a flush. -/
theorem Idle.volume_sitting (h : s.Idle) {limits : Limits} {directory : Path} {volume : Volume}
    (hcreate : Store.create .memory (some directory) limits s.now.time s.volume =
      (.ok (.memory m), volume)) {period : Nat} (hperiod : 0 < period) (deeds : List Deed) :
    ∃ acts, acts.filterMap Act.visit? = deeds.filterMap Deed.visit? ∧
      (s.sitting limits directory period deeds).volume =
        Lifetime.run ⟨.memory, limits, s.now.time, acts ++ [.flush]⟩ directory s.volume := by
  obtain ⟨now, running, before, store?, flusher?, strays⟩ := s
  obtain ⟨hstore, hflusher, hstrays⟩ := h
  simp only at hstore hflusher hstrays hcreate
  subst hstore hflusher hstrays
  let opened : Session :=
    ⟨now, running, volume, some (.memory m), some (.start period running), []⟩
  have hopened : (((Session.mk now running before none none []).reopen limits
      (.created .memory (some directory))).2.startFlusher period).2 = opened := by
    have hreopen : ((Session.mk now running before none none []).reopen limits
        (.created .memory (some directory))).2 =
          ⟨now, running, volume, some (.memory m), none, []⟩ := by
      have hclosed : (Session.mk now running before none none []).close =
          ⟨now, running, before, none, none, []⟩ := rfl
      have hcreated : Session.opened before now.time limits (.created .memory (some directory)) =
          (.ok (.memory m), volume) := hcreate
      simp only [reopen, hclosed, hcreated]
    rw [hreopen, startFlusher]
    simp only [if_neg (Nat.ne_of_gt hperiod)]
    rfl
  obtain ⟨acts, m', hvisits, hacts, hlast⟩ :=
    Flushing.performAll (s := opened) ⟨rfl, rfl, rfl⟩ deeds
  refine ⟨acts, hvisits, ?_⟩
  have hrun : Lifetime.run ⟨.memory, limits, now.time, acts ++ [.flush]⟩ directory before =
      ((Store.memory m').act (deeds.foldl Session.perform opened).volume .flush).2 := by
    have hacts' : (Store.memory m).actAll volume acts =
      (.memory m', (deeds.foldl Session.perform opened).volume) := hacts
    simp only [Lifetime.run, hcreate, Store.actAll_append, hacts']
    rfl
  rw [hrun, sitting]
  simp only [hopened]
  exact hlast.volume_stopped

end Session

/-! ## Restarts -/

theorem Rested.sitting {s : Session} {directory : Path} {limits : Limits} {kept : List Visit}
    (h : Rested s.volume directory limits kept) (hidle : s.Idle) (hnow : s.now.time.Representable)
    {period : Nat} (hperiod : 0 < period) {deeds : List Deed}
    (hdeeds : ∀ visit ∈ deeds.filterMap Deed.visit?, visit.timestamp.Representable)
    (hbound : (kept ++ deeds.filterMap Deed.visit?).length < Number.wordBound) :
    Rested (s.sitting limits directory period deeds).volume directory limits
      (kept ++ deeds.filterMap Deed.visit?) := by
  obtain ⟨m, volume, hcreate, -, -⟩ := h.create hnow
  obtain ⟨acts, hvisits, hvolume⟩ := hidle.volume_sitting hcreate hperiod deeds
  let life : Lifetime := ⟨.memory, limits, s.now.time, acts ++ [.flush]⟩
  have hlife : life.visits = deeds.filterMap Deed.visit? := by
    rw [Lifetime.visits, List.filterMap_append, hvisits]
    exact List.append_nil _
  rw [← hlife] at hdeeds hbound
  have hrun := h.run (show life.backend = .memory from rfl) rfl hnow hdeeds hbound
  rw [show flushedVisits life.acts = _ from flushedVisits_flush acts, hvisits] at hrun
  rw [hvolume]
  exact hrun

theorem Rested.looksLike {v : Volume} {directory : Path} {limits : Limits} {kept : List Visit}
    (h : Rested v directory limits kept) {now : Timestamp} (hnow : now.Representable)
    {more : List Visit} (hmore : ∀ visit ∈ more, visit.timestamp.Representable) :
    ∃ m v', Store.create .memory (some directory) limits now v = (.ok (.memory m), v') ∧
      (m.stats.recordAll limits more).LooksLike
        (.recordAll limits (kept ++ more) (.empty limits now)) := by
  obtain ⟨m, v', hcreate, rfl, hserving⟩ := h.create hnow
  exact ⟨m, v', hcreate, hserving.shows.looksLike hserving.proper hmore⟩

theorem length_flushed_le (lives : List Lifetime) :
    (lives.flatMap fun life => flushedVisits life.acts).length ≤
      (lives.flatMap Lifetime.visits).length := by
  induction lives with
  | nil => exact Nat.le_refl _
  | cons life rest ih =>
      rw [List.flatMap_cons, List.flatMap_cons, List.length_append, List.length_append]
      exact Nat.add_le_add (length_flushedVisits_le life.acts) ih

/--
On a directory that was empty a memory store that opens after others looks like one store with the
visits that each of them recorded before its last flush, whatever is recorded from then on.  If the
last of them had a flusher that was stopped, none of its visits are missing.
-/
theorem looksLike_after_runAll {v ready : Volume} {directory : Path} (hsound : v.Sound)
    (hmade : v.makeDirectories? directory = some ready)
    (hempty : ∀ name, v.node? (directory ++ [name]) = none) (limits : Limits)
    (earlier : List Lifetime)
    (hearlier : ∀ life ∈ earlier, life.backend = .memory ∧ life.limits = limits ∧
      life.now.Representable ∧ ∀ visit ∈ life.visits, visit.timestamp.Representable)
    {now : Timestamp} (hnow : now.Representable) (more : List Visit)
    (hmore : ∀ visit ∈ more, visit.timestamp.Representable) :
    ((earlier.flatMap Lifetime.visits).length < Number.wordBound →
      ∃ m v', Store.create .memory (some directory) limits now (runAll directory v earlier) =
          (.ok (.memory m), v') ∧
        (m.stats.recordAll limits more).LooksLike (.recordAll limits
          ((earlier.flatMap fun life => flushedVisits life.acts) ++ more) (.empty limits now))) ∧
    ∀ (s : Session) (period : Nat) (deeds : List Deed), s.Idle →
      s.volume = runAll directory v earlier → s.now.time.Representable → 0 < period →
      (∀ visit ∈ deeds.filterMap Deed.visit?, visit.timestamp.Representable) →
      (earlier.flatMap Lifetime.visits ++ deeds.filterMap Deed.visit?).length < Number.wordBound →
      ∃ m v', Store.create .memory (some directory) limits now
          (s.sitting limits directory period deeds).volume = (.ok (.memory m), v') ∧
        (m.stats.recordAll limits more).LooksLike (.recordAll limits
          ((earlier.flatMap fun life => flushedVisits life.acts) ++
            deeds.filterMap Deed.visit? ++ more) (.empty limits now)) := by
  have hrested : (earlier.flatMap Lifetime.visits).length < Number.wordBound →
      Rested (runAll directory v earlier) directory limits
        (earlier.flatMap fun life => flushedVisits life.acts) :=
    fun hbound => (rested_nil hsound hmade hempty limits).runAll hearlier hbound
  constructor
  · intro hbound
    exact (hrested hbound).looksLike hnow hmore
  · intro s period deeds hidle hvolume hstart hperiod hdeeds hbound
    have hflushed := length_flushed_le earlier
    rw [List.length_append] at hbound
    have hbefore := hrested (by omega)
    rw [← hvolume] at hbefore
    exact (hbefore.sitting hidle hstart hperiod hdeeds
      (by rw [List.length_append]; omega)).looksLike hnow hmore

def narrowLimits : Limits := ⟨1, 1, 2⟩

/-- A visit behind the last flush, and a store that is not flushed. -/
def narrowLives : List Lifetime :=
  [⟨.memory, narrowLimits, ⟨0, 0⟩, [.record firstVisit, .flush, .record secondVisit]⟩,
    ⟨.memory, narrowLimits, ⟨10, 0⟩, [.record secondVisit]⟩]

def narrowSession : Session :=
  { Session.start ⟨⟨20, 0⟩, rfl⟩ with volume := runAll ["data"] .empty narrowLives }

def narrowDeeds : List Deed :=
  [.record secondVisit, .wait 5000, .record firstVisit]

theorem looksLike_after_narrowLives :
    (∃ m v', Store.create .memory (some ["data"]) narrowLimits ⟨30, 0⟩
        (runAll ["data"] .empty narrowLives) = (.ok (.memory m), v') ∧
      m.stats.recentVisits 5 = [firstVisit]) ∧
    ∃ m v', Store.create .memory (some ["data"]) narrowLimits ⟨30, 0⟩
        (narrowSession.sitting narrowLimits ["data"] 1000 narrowDeeds).volume =
          (.ok (.memory m), v') ∧
      m.stats.keys.count? "10.0.0.1" = some 2 ∧ m.stats.keys.count? "10.0.0.2" = none ∧
      m.stats.recentVisits 5 = [firstVisit, secondVisit] := by
  have hmade : Volume.empty.makeDirectories? ["data"] =
      some (Volume.empty.setNode ["data"] .directory) := by decide
  have hearlier : ∀ life ∈ narrowLives, life.backend = .memory ∧ life.limits = narrowLimits ∧
      life.now.Representable ∧ ∀ visit ∈ life.visits, visit.timestamp.Representable := by
    decide +kernel
  have hdeeds : ∀ visit ∈ narrowDeeds.filterMap Deed.visit?, visit.timestamp.Representable := by
    decide +kernel
  have hnow : (⟨30, 0⟩ : Timestamp).Representable := by decide +kernel
  obtain ⟨hlives, hsitting⟩ := looksLike_after_runAll Volume.sound_empty hmade (fun name => rfl)
    narrowLimits narrowLives hearlier hnow [] (by simp)
  obtain ⟨m, v', hcreate, hlooks⟩ := hlives (by decide +kernel)
  obtain ⟨m', v'', hcreate', hlooks'⟩ := hsitting narrowSession 1000 narrowDeeds ⟨rfl, rfl, rfl⟩
    (by rw [narrowSession]) (by decide +kernel) (by decide) hdeeds (by decide +kernel)
  refine ⟨⟨m, v', hcreate, (hlooks.recent 5).trans ?_⟩, m', v'', hcreate',
    (hlooks'.keys _).trans ?_, (hlooks'.keys _).trans ?_, (hlooks'.recent 5).trans ?_⟩
  · decide +kernel
  · decide +kernel
  · decide +kernel
  · decide +kernel

end Tarpit.Traffic
