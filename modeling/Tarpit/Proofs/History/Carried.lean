import Tarpit.Proofs.History.Durable
import Tarpit.Proofs.History.Memory

/-!
# Visits across lifetimes

Whatever backends follow one another on a data directory, and whatever a memory
store keeps in its statistics, a durable store that opens there has every
visit of all lifetimes before it.
-/

namespace Tarpit.Traffic

open Tarpit.Time (Timestamp)

/-- The directory holds the visits: the first of them in its tables, the last in its log. -/
structure Holds (v : Volume) (directory : Path) (visits : List Visit) : Prop where
  recordable : ∀ visit ∈ visits, visit.Recordable
  carries : ∃ stored pending, stored ++ pending = visits ∧ Carries v directory stored pending

/-! ## Opening -/

/-- A store is opened on a directory as if it had been made before. -/
theorem Store.create_made {v ready : Volume} {directory : Path}
    (h : v.makeDirectories? directory = some ready) (backend : Backend) (limits : Limits)
    (now : Timestamp) :
    Store.create backend (some directory) limits now v =
      Store.create backend (some directory) limits now ready := by
  obtain ⟨-, hrooted, -⟩ := Volume.made_makeDirectories h
  simp only [Store.create, Option.getD_some, h, hrooted.makeDirectories?]

theorem Lifetime.run_made {v ready : Volume} {directory : Path}
    (h : v.makeDirectories? directory = some ready) (life : Lifetime) :
    life.run directory v = life.run directory ready := by
  unfold Lifetime.run
  rw [Store.create_made h]

/-- Nothing is held by a directory without names. -/
theorem holds_nil {v ready : Volume} {directory : Path} (hsound : v.Sound)
    (hmade : v.makeDirectories? directory = some ready)
    (hempty : ∀ name, v.node? (directory ++ [name]) = none) : Holds ready directory [] := by
  obtain ⟨hready, hrooted, hsame⟩ := Volume.made_makeDirectories hmade
  have hnone : ∀ name, ready.node? (directory ++ [name]) = none := by
    intro name
    rw [hsame, hempty]
  refine ⟨by simp, [], [], rfl, ?_, ?_, ?_⟩
  · refine ⟨hready hsound, hrooted, hnone draftName, ?_⟩
    intro name
    rw [hnone name]
    simp
  · exact .inl ⟨hnone databaseName, rfl⟩
  · exact .inl ⟨hnone requestLogName, rfl⟩

namespace Holds

variable {v : Volume} {directory : Path} {visits : List Visit}

theorem createMemory (h : Holds v directory visits) (limits : Limits) (now : Timestamp) :
    ∃ m v' stored pending, stored ++ pending = visits ∧
      Store.create .memory (some directory) limits now v = (.ok (.memory m), v') ∧
      Logging m v' directory stored pending := by
  obtain ⟨stored, pending, hvisits, hcarries⟩ := h.carries
  obtain ⟨m, v', hopen, hlogging⟩ := hcarries.openMemory limits now
  refine ⟨m, v', stored, pending, hvisits, ?_, hlogging⟩
  simp only [Store.create, Option.getD_some, hcarries.ready.rooted.makeDirectories?, hopen]

theorem createDurable (h : Holds v directory visits) (limits : Limits) (now : Timestamp) :
    ∃ d v', Store.create .durable (some directory) limits now v = (.ok (.durable d), v') ∧
      Recording d v' directory visits := by
  obtain ⟨stored, pending, hvisits, hcarries⟩ := h.carries
  have hpending : ∀ visit ∈ pending, visit.Recordable := by
    intro visit hvisit
    apply h.recordable
    rw [← hvisits]
    exact List.mem_append_right stored hvisit
  obtain ⟨d, v', hopen, hrecording⟩ := hcarries.openDurable hpending now
  rw [hvisits] at hrecording
  refine ⟨d, v', ?_, hrecording⟩
  simp only [Store.create, Option.getD_some, hcarries.ready.rooted.makeDirectories?, hopen]

/-! ## Lifetimes -/

/-- A lifetime adds its visits, in the log or in the tables. -/
theorem run (h : Holds v directory visits) (life : Lifetime)
    (hlife : ∀ visit ∈ life.visits, visit.Recordable) :
    Holds (life.run directory v) directory (visits ++ life.visits) := by
  have hrecordable : ∀ visit ∈ visits ++ life.visits, visit.Recordable := by
    intro visit hvisit
    rcases List.mem_append.1 hvisit with hbefore | hnew
    · exact h.recordable visit hbefore
    · exact hlife visit hnew
  obtain ⟨backend, limits, now, acts⟩ := life
  refine ⟨hrecordable, ?_⟩
  cases backend with
  | memory =>
      obtain ⟨m, v₁, stored, pending, hvisits, hcreate, hlogging⟩ := h.createMemory limits now
      obtain ⟨m', v', hacts, hlast⟩ := hlogging.actAll acts
      refine ⟨stored, pending ++ acts.filterMap Act.visit?, ?_, ?_⟩
      · rw [← List.append_assoc, hvisits]
        rfl
      · simp only [Lifetime.run, hcreate, hacts]
        exact hlast.carries
  | durable =>
      obtain ⟨d, v₁, hcreate, hrecording⟩ := h.createDurable limits now
      obtain ⟨d', v', hacts, hlast⟩ := hrecording.actAll hlife
      refine ⟨visits ++ acts.filterMap Act.visit?, [], List.append_nil _, ?_⟩
      simp only [Lifetime.run, hcreate, hacts]
      exact hlast.close

theorem runAll (h : Holds v directory visits) (lives : List Lifetime)
    (hlives : ∀ life ∈ lives, ∀ visit ∈ life.visits, visit.Recordable) :
    Holds (runAll directory v lives) directory (visits ++ lives.flatMap Lifetime.visits) := by
  induction lives generalizing v visits with
  | nil =>
      rw [List.flatMap_nil, List.append_nil]
      exact h
  | cons life rest ih =>
      have hfirst := h.run life (hlives life List.mem_cons_self)
      have hrest := ih hfirst fun other hother => hlives other (List.mem_cons_of_mem life hother)
      rw [List.flatMap_cons, ← List.append_assoc]
      exact hrest

end Holds

/-- After any lifetimes on a directory that was empty, a durable store opens, its log has the
visits of all of them, and its tables are those of recording the visits directly. -/
theorem opened_after_runAll {v ready : Volume} {directory : Path} (hsound : v.Sound)
    (hmade : v.makeDirectories? directory = some ready)
    (hempty : ∀ name, v.node? (directory ++ [name]) = none) (earlier : List Lifetime)
    (hearlier : ∀ life ∈ earlier, ∀ visit ∈ life.visits, visit.Recordable) (limits : Limits)
    (now : Timestamp) :
    ∃ d v', Store.create .durable (some directory) limits now (runAll directory v earlier) =
        (.ok (.durable d), v') ∧
      d.tables.log = (earlier.flatMap Lifetime.visits).map Ledger.clamped ∧
      (earlier.flatMap Lifetime.visits).foldlM (fun l visit => Ledger.record .waiting visit l)
        (.empty d.tables.startTime) = .ok d.tables := by
  have hholds := (holds_nil hsound hmade hempty).runAll earlier hearlier
  rw [List.nil_append] at hholds
  obtain ⟨d, v', hcreate, hrecording⟩ := hholds.createDurable limits now
  refine ⟨d, v', ?_, ?_, ?_⟩
  · -- Only the first store finds the directory as it was.
    rw [← hcreate]
    cases earlier with
    | nil => exact Store.create_made hmade .durable limits now
    | cons life rest => rw [runAll, runAll, Lifetime.run_made hmade]
  · rw [hrecording.tables, Ledger.log_recordedAll]
    rfl
  · rw [Ledger.foldlM_record hholds.recordable]
    exact congrArg Except.ok hrecording.tables.symm

/-- The visits of two clients, one of which names no user agent. -/
def firstVisit : Visit := .of "10.0.0.1" none "/a" ⟨0, 0⟩
def secondVisit : Visit := .of "10.0.0.2" (some " agent ") "/b\n" ⟨86400, 5⟩

theorem recordable_firstVisit : firstVisit.Recordable :=
  ⟨⟨none, rfl⟩, by decide, by decide, by decide⟩

theorem recordable_secondVisit : secondVisit.Recordable :=
  ⟨⟨some " agent ", rfl⟩, by decide, by decide, by decide⟩

/-- A memory store that keeps one client and is not flushed, a durable store, and a memory store
that is flushed. -/
def mixedLives : List Lifetime :=
  [⟨.memory, ⟨1, 1, 1⟩, ⟨0, 0⟩, [.record firstVisit, .record secondVisit]⟩,
    ⟨.durable, {}, ⟨10, 0⟩, [.record firstVisit]⟩,
    ⟨.memory, {}, ⟨20, 0⟩, [.record secondVisit, .flush]⟩]

theorem opened_after_mixedLives :
    Volume.empty.makeDirectories? ["data"] = some (Volume.empty.setNode ["data"] .directory) ∧
    ∃ d v', Store.create .durable (some ["data"]) {} ⟨30, 0⟩
        (runAll ["data"] .empty mixedLives) = (.ok (.durable d), v') ∧
      d.tables.log = [firstVisit, secondVisit, firstVisit, secondVisit] := by
  have hmade : Volume.empty.makeDirectories? ["data"] =
      some (Volume.empty.setNode ["data"] .directory) := by decide
  have hrecordable : ∀ life ∈ mixedLives, ∀ visit ∈ life.visits, visit.Recordable := by
    intro life hlife visit hvisit
    have hvisits : ∀ life ∈ mixedLives, ∀ visit ∈ life.visits,
        visit = firstVisit ∨ visit = secondVisit := by decide
    rcases hvisits life hlife visit hvisit with rfl | rfl
    · exact recordable_firstVisit
    · exact recordable_secondVisit
  obtain ⟨d, v', hcreate, hlog, -⟩ := opened_after_runAll Volume.sound_empty hmade
    (fun name => rfl) mixedLives hrecordable {} ⟨30, 0⟩
  have hclamped : (mixedLives.flatMap Lifetime.visits).map Ledger.clamped =
      [firstVisit, secondVisit, firstVisit, secondVisit] := by decide
  exact ⟨hmade, d, v', hcreate, hlog.trans hclamped⟩

end Tarpit.Traffic
