import Tarpit.Proofs.History.Steps

/-!
# What fails leaves everything as it was

A caller who has given up is told so and leaves no trace.  A snapshot file is
taken up as a whole or not at all, and one that cannot be replaced stays what it
is, with everything else but the draft beside it.
-/

namespace Tarpit.Traffic

open Tarpit.Time (Clock)

/-! ## What is said of a session -/

/-- The file at the path is as it was, and so is all else but the draft beside it. -/
structure Volume.Intact (v v' : Volume) (path : Path) : Prop where
  self : v.SameAt v' path
  others : ∀ other, other ≠ MemoryStore.draftOf path → v.SameAt v' other

/-- The store as if it had seen nothing since it was opened. -/
def MemoryStore.unvisited (m : MemoryStore) : MemoryStore :=
  { m with stats := .empty m.limits m.stats.startTime }

namespace Session

/-- The step is a call of someone who had given up before. -/
def Step.isGone : Step → Bool
  | .call patience _ => patience == .gone
  | _ => false

/-- Nothing comes of what fails, in the session and in its files. -/
structure Untouched (s : Session) : Prop where
  /-- Who has given up is told so, and nothing changes. -/
  gone : ∀ store asked, s.store? = some store →
    s.call .gone asked = (.error (.failed .cancelled), s)
  /-- All other replies, and the session in the end, are as if there had been no such calls. -/
  unnoticed : ∀ steps : List Step,
    s.follow (steps.filter fun next => !next.isGone) =
      ((s.follow steps).1.filter fun entry => !entry.1.isGone, (s.follow steps).2)
  load_failed : ∀ e, s.load.1 = .error e → s.load.2 = s
  /-- What the snapshot file holds takes the place of all that was counted, or cannot be read. -/
  load : ∀ m path id, s.store? = some (.memory m) → m.snapshot? = some path →
    s.volume.node? path = some (.file id) →
      s.load = ((s.volume.read? path).bind Snapshot.decode?).elim (.error (.failed .decoding), s)
        fun p => (.ok true, { s with store? := some (.memory (m.unvisited.restore p)) })
  /-- A store that cannot be saved has all that it had, and so have its files. -/
  save_failed : ∀ m path e, s.store? = some (.memory m) → m.snapshot? = some path →
    s.save.1 = .error e →
      ∃ volume, s.save.2 = { s with volume } ∧ s.volume.Intact volume path
  /-- So it is for any store, on whatever becomes of the volume, as when a flusher saves it. -/
  kept : ∀ vol, s.volume.Becomes vol → ∀ (m : MemoryStore) (path : Path) (e : Failure),
    m.snapshot? = some path → (m.save vol).1 = .error e → vol.Intact (m.save vol).2 path

end Session

/-! ## Calls of those who have given up -/

namespace Session

variable (s : Session)

/-- What is said to who has given up, if there is a store that could say it. -/
def farewell : Refusal :=
  s.store?.elim .notOpen fun _ => .failed .cancelled

theorem map_ask_of_cancelled {α : Type} {query : Store → Except Failure α}
    (h : ∀ store, query store = .error .cancelled) (answer : α → Answer) :
    (s.ask query).map answer = .error s.farewell := by
  unfold ask farewell
  cases s.store? with
  | none => rfl
  | some store =>
      simp only [h store]
      rfl

theorem record_gone (v : Visit) : s.record .gone v = (.error s.farewell, s) := by
  unfold record farewell
  cases s.store? with
  | none => rfl
  | some store =>
      simp only [store.record_gone s.volume v]
      rfl

theorem call_gone (asked : Call) : s.call .gone asked = (.error s.farewell, s) := by
  cases asked with
  | record v =>
      rw [call, s.record_gone v]
      rfl
  | request trusted headers peer path =>
      simp only [call, request, s.record_gone]
      rfl
  | summary => exact Prod.ext (s.map_ask_of_cancelled (fun _ => rfl) _) rfl
  | standing => exact Prod.ext (s.map_ask_of_cancelled (fun _ => rfl) _) rfl
  | recent n => exact Prod.ext (s.map_ask_of_cancelled (fun _ => rfl) _) rfl
  | topKeys n => exact Prod.ext (s.map_ask_of_cancelled (fun _ => rfl) _) rfl
  | topAgents n => exact Prod.ext (s.map_ask_of_cancelled (fun _ => rfl) _) rfl
  | chart n max => exact Prod.ext (s.map_ask_of_cancelled (fun _ => rfl) _) rfl

theorem step_of_isGone {next : Step} (h : next.isGone = true) :
    s.step next = (.error s.farewell, s) := by
  cases next with
  | call patience asked =>
      have hgone : patience = .gone := eq_of_beq h
      subst hgone
      exact s.call_gone asked
  | _ => cases h

theorem follow_filter (steps : List Step) :
    s.follow (steps.filter fun next => !next.isGone) =
      ((s.follow steps).1.filter fun entry => !entry.1.isGone, (s.follow steps).2) := by
  induction steps generalizing s with
  | nil => rfl
  | cons next rest ih =>
      cases hgone : next.isGone with
      | true =>
          have hstep := s.step_of_isGone hgone
          rw [List.filter_cons_of_neg (by simp [hgone]), ih, follow,
            List.filter_cons_of_neg (by simp [hgone]), hstep]
      | false =>
          rw [List.filter_cons_of_pos (by simp [hgone]), follow, ih, follow,
            List.filter_cons_of_pos (by simp [hgone])]

end Session

/-! ## Snapshot files -/

namespace MemoryStore

variable {m : MemoryStore} {vol : Volume} {path : Path}

/-- Whatever the file holds, all that was counted is replaced, or the file cannot be read. -/
theorem load_of_file (hpath : m.snapshot? = some path) {id : Nat}
    (hnode : vol.node? path = some (.file id)) :
    m.load vol = ((vol.read? path).bind Snapshot.decode?).elim (.error .decoding)
      fun p => .ok (true, m.unvisited.restore p) := by
  simp only [load, hpath, hnode]
  cases (vol.read? path).bind Snapshot.decode? with
  | none => rfl
  | some p => rfl

/-- A draft that could not take the place of the snapshot file is all that comes of a failure. -/
theorem intact_of_save_eq_error (hvol : vol.Apart) (hpath : m.snapshot? = some path) {e : Failure}
    (hsave : (m.save vol).1 = .error e) : vol.Intact (m.save vol).2 path := by
  have hothers : ∀ other, other ≠ draftOf path → vol.SameAt (m.save vol).2 other := by
    intro other hother
    cases hwrite : vol.write? (draftOf path) m.stats.toSnapshot.encode with
    | none =>
        simp only [save, hpath, hwrite]
        exact .refl vol other
    | some drafted =>
        cases hrename : drafted.rename? (draftOf path) path with
        | none =>
            simp only [save, hpath, hwrite, hrename]
            exact hvol.sameAt_write? hwrite hother
        | some replaced =>
            simp only [save, hpath, hwrite, hrename] at hsave
            cases hsave
  refine ⟨?_, hothers⟩
  by_cases hroot : path = []
  · -- The root is its own draft, and a directory is not written to.
    subst hroot
    have hvolume : (m.save vol).2 = vol := by
      unfold save
      rw [hpath]
      rfl
    rw [hvolume]
    exact .refl vol []
  · exact hothers path (Volume.draftOf_ne hroot).symm

end MemoryStore

namespace Session

variable {s : Session} {m : MemoryStore}

theorem memory?_of_store? (h : s.store? = some (.memory m)) : s.memory? = some m := by
  rw [memory?, h]

theorem load_of_store? (h : s.store? = some (.memory m)) {path : Path}
    (hpath : m.snapshot? = some path) {id : Nat} (hnode : s.volume.node? path = some (.file id)) :
    s.load = ((s.volume.read? path).bind Snapshot.decode?).elim (.error (.failed .decoding), s)
      fun p => (.ok true, { s with store? := some (.memory (m.unvisited.restore p)) }) := by
  simp only [load, memory?_of_store? h, MemoryStore.load_of_file hpath hnode]
  cases (s.volume.read? path).bind Snapshot.decode? with
  | none => rfl
  | some p => rfl

theorem load_eq_error {e : Refusal} (h : s.load.1 = .error e) : s.load.2 = s := by
  cases hmemory : s.memory? with
  | none => simp only [load, hmemory]
  | some m =>
      cases hload : m.load s.volume with
      | error cause => simp only [load, hmemory, hload]
      | ok loaded =>
          simp only [load, hmemory, hload] at h
          cases h

theorem save_of_store? (h : s.store? = some (.memory m)) :
    s.save = ((m.save s.volume).1.mapError .failed, { s with volume := (m.save s.volume).2 }) := by
  simp only [save, memory?_of_store? h, flush, h, Store.flush]
  cases m.save s.volume with
  | mk outcome volume =>
      cases outcome with
      | ok _ => rfl
      | error e => rfl

theorem intact_of_save_eq_error (hvol : s.volume.Apart) (h : s.store? = some (.memory m))
    {path : Path} (hpath : m.snapshot? = some path) {e : Refusal} (hsave : s.save.1 = .error e) :
    ∃ volume, s.save.2 = { s with volume } ∧ s.volume.Intact volume path := by
  rw [save_of_store? h] at hsave ⊢
  refine ⟨(m.save s.volume).2, rfl, ?_⟩
  cases houtcome : (m.save s.volume).1 with
  | ok _ =>
      rw [houtcome] at hsave
      cases hsave
  | error cause => exact MemoryStore.intact_of_save_eq_error hvol hpath houtcome

theorem untouched_of_apart (hvol : s.volume.Apart) : s.Untouched where
  gone store asked h := by
    rw [call_gone, farewell, h]
    rfl
  unnoticed := s.follow_filter
  load_failed _ := load_eq_error
  load _ _ _ hstore hpath hnode := load_of_store? hstore hpath hnode
  save_failed _ _ _ hstore hpath hsave := intact_of_save_eq_error hvol hstore hpath hsave
  kept _ hbecomes _ _ _ hpath hsave :=
    MemoryStore.intact_of_save_eq_error (hbecomes.apart hvol) hpath hsave

/--
In a session that has come as far as it may, nothing comes of a call by someone who had given up, of
a snapshot that cannot be read, or of one that cannot be written.
-/
theorem untouched_follow (now : Clock) (steps : List Step) :
    ((Session.start now).follow steps).2.Untouched :=
  untouched_of_apart (((Session.start now).becomes_follow steps).apart Volume.apart_empty)

/-- A directory in the place of the draft, and a snapshot file that holds no snapshot. -/
example : (((Session.start ⟨⟨0, 0⟩, rfl⟩).follow
    [.reopen ⟨1, 1, 1⟩ (.memory true []), .writeFile ["stats.json"] [], .load,
      .makeDirectory ["stats.json.tmp"], .save, .read ["stats.json"],
      .call .gone .summary]).1.map Prod.snd) =
    [.ok (.flag true), .ok .done, .error (.failed .decoding), .ok .done, .error (.failed .files),
      .ok (.bytes (some [])), .error (.failed .cancelled)] :=
  rfl

end Session

end Tarpit.Traffic
