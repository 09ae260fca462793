import Tarpit.Proofs.History.Lifetime

/-!
# Lifetimes of memory stores

A memory store adds its visits to the log of the directory, whatever its limits
keep of them and whether or not it is flushed.
-/

namespace Tarpit.Traffic

/-- A memory store is open on the directory and writes to its log. -/
structure Logging (m : MemoryStore) (v : Volume) (directory : Path)
    (stored pending : List Visit) : Prop where
  ready : Ready v directory
  tables : TablesAt v directory stored
  snapshot : m.snapshot? = some (directory ++ [snapshotName])
  log : ∃ id, m.log? = some (.file id) ∧
    v.FileAt (directory ++ [requestLogName]) id (.bytes (pending.flatMap Visit.line))

namespace Logging

variable {m : MemoryStore} {v : Volume} {directory : Path} {stored pending : List Visit}

/-- Writing to the log leaves the database alone, as no file holds both. -/
theorem tablesAt_append (h : TablesAt v directory stored) {path : Path} {id : Nat} {before : Bytes}
    (hfile : v.FileAt path id (.bytes before)) (data : Bytes) :
    TablesAt (v.append id data) directory stored := by
  have happend : v.append id data = v.setContent id (.bytes (before ++ data)) := by
    rw [Volume.append, hfile.held]
  rw [happend]
  apply h.of_sameAt
  apply Volume.sameAt_setContent
  rcases h with ⟨hnone, -⟩ | ⟨other, tables, hdatabase, -⟩
  · rw [hnone]
    simp
  · rw [hdatabase.node]
    intro hsame
    cases hsame
    have hheld := hdatabase.held
    rw [hfile.held] at hheld
    cases hheld

theorem record (h : Logging m v directory stored pending) (visit : Visit) :
    ∃ m' v', (Store.memory m).act v (.record visit) = (.memory m', v') ∧
      Logging m' v' directory stored (pending ++ [visit]) := by
  obtain ⟨id, hid, hfile⟩ := h.log
  refine ⟨{ m with stats := m.stats.record m.limits visit }, v.append id visit.line, ?_, ?_⟩
  · have hrecord : m.record v .waiting visit =
        .ok ({ m with stats := m.stats.record m.limits visit }, v.append id visit.line) := by
      unfold MemoryStore.record
      rw [hid]
      rfl
    simp only [Store.act, Store.record, hrecord]
    rfl
  · refine ⟨h.ready.append id _, tablesAt_append h.tables hfile _, h.snapshot, id, hid, ?_⟩
    have hlines : (pending ++ [visit]).flatMap Visit.line =
        pending.flatMap Visit.line ++ visit.line := by
      rw [List.flatMap_append, List.flatMap_singleton]
    rw [hlines]
    exact hfile.append _

theorem save (h : Logging m v directory stored pending) :
    ∃ v', m.save v = (.ok (), v') ∧ Logging m v' directory stored pending := by
  obtain ⟨drafted, v', hdrafted, hrename, hready, hsame⟩ :=
    h.ready.replaced (show snapshotName ≠ draftName by decide) m.stats.toSnapshot.encode
  refine ⟨v', ?_, hready, ?_, h.snapshot, ?_⟩
  · unfold MemoryStore.save
    simp only [h.snapshot, draftOf_snapshot, hdrafted, hrename]
  · exact h.tables.of_sameAt (hsame databaseName (by decide) (by decide))
  · obtain ⟨id, hid, hfile⟩ := h.log
    exact ⟨id, hid, hfile.of_sameAt (hsame requestLogName (by decide) (by decide))⟩

theorem act (h : Logging m v directory stored pending) (a : Act) :
    ∃ m' v', (Store.memory m).act v a = (.memory m', v') ∧
      Logging m' v' directory stored (pending ++ a.visit?.toList) := by
  cases a with
  | record visit => exact h.record visit
  | flush =>
      obtain ⟨v', hsave, hlogging⟩ := h.save
      refine ⟨m, v', ?_, ?_⟩
      · simp only [Store.act, Store.flush, hsave]
      · simpa [Act.visit?] using hlogging

theorem actAll (h : Logging m v directory stored pending) (acts : List Act) :
    ∃ m' v', (Store.memory m).actAll v acts = (.memory m', v') ∧
      Logging m' v' directory stored (pending ++ acts.filterMap Act.visit?) := by
  induction acts generalizing m v pending with
  | nil => exact ⟨m, v, rfl, by simpa using h⟩
  | cons a rest ih =>
      obtain ⟨m₁, v₁, hact, hlogging⟩ := h.act a
      obtain ⟨m', v', hrest, hlast⟩ := ih hlogging
      refine ⟨m', v', ?_, ?_⟩
      · simp only [Store.actAll, hact, hrest]
      · have hvisits : (a :: rest).filterMap Act.visit? =
            a.visit?.toList ++ rest.filterMap Act.visit? := by
          rw [List.filterMap_cons]
          cases a.visit? with
          | none => rfl
          | some visit => rfl
        rw [hvisits, ← List.append_assoc]
        exact hlast

theorem carries (h : Logging m v directory stored pending) :
    Carries v directory stored pending := by
  obtain ⟨id, -, hfile⟩ := h.log
  exact ⟨h.ready, h.tables, .inr ⟨id, hfile⟩⟩

end Logging

/-! ## Opening -/

/-- A memory store opens on every directory that carries visits, and goes on with its log. -/
theorem Carries.openMemory {v : Volume} {directory : Path} {stored pending : List Visit}
    (h : Carries v directory stored pending) (limits : Limits) (now : Tarpit.Time.Timestamp) :
    ∃ m v', Store.openMemory limits (some directory) now v = .ok (m, v') ∧
      Logging m v' directory stored pending := by
  let fresh : MemoryStore :=
    { MemoryStore.empty limits now with snapshot? := some (directory ++ [snapshotName]) }
  obtain ⟨id, v', hopen, hready, htables, hfile⟩ : ∃ id v',
      v.openFile? (directory ++ [requestLogName]) = some (id, v') ∧ Ready v' directory ∧
        TablesAt v' directory stored ∧
        v'.FileAt (directory ++ [requestLogName]) id (.bytes (pending.flatMap Visit.line)) := by
    rcases h.log with ⟨hnone, rfl⟩ | ⟨id, hfile⟩
    · obtain ⟨v', hopen, hcreated⟩ :=
        h.ready.sound.openFile_new hnone (h.ready.rooted.hasParent requestLogName)
      exact ⟨_, v', hopen, h.ready.created hcreated (by decide),
        h.tables.of_sameAt (hcreated.same _ (append_name_ne (by decide))), hcreated.file⟩
    · exact ⟨id, v, hfile.openFile?, h.ready, h.tables, hfile⟩
  let logged : MemoryStore := { fresh with log? := some (.file id) }
  have hwith : fresh.withLog (directory ++ [requestLogName]) v = .ok (logged, v') := by
    unfold MemoryStore.withLog
    rw [hopen]
  have hlogging : ∀ m : MemoryStore, m.log? = logged.log? → m.snapshot? = logged.snapshot? →
      Logging m v' directory stored pending :=
    fun m hlog hsnapshot => ⟨hready, htables, hsnapshot, id, hlog, hfile⟩
  unfold Store.openMemory
  simp only
  rw [hwith]
  cases hload : logged.load v' with
  | error e => exact ⟨logged, v', by simp only [hload], hlogging logged rfl rfl⟩
  | ok loaded =>
      obtain ⟨found, m⟩ := loaded
      -- Loading takes statistics only.
      have hsame : m.log? = logged.log? ∧ m.snapshot? = logged.snapshot? := by
        rcases MemoryStore.load_eq_ok hload with rfl | ⟨data, p, -, rfl⟩
        · exact ⟨rfl, rfl⟩
        · exact ⟨rfl, rfl⟩
      exact ⟨m, v', by simp only [hload], hlogging m hsame.1 hsame.2⟩

end Tarpit.Traffic
