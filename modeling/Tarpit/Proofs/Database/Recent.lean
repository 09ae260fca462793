import Tarpit.Proofs.Database.Dates
import Tarpit.Proofs.Ledger.Recent

/-!
# Latest visits that a database shows

What a durable store answers after any operations when it is asked for its latest
visits: a part of the one ranking by time of all that was recorded.
-/

namespace Tarpit.Traffic

open Tarpit.Time (Timestamp orders_before)

namespace Database

variable {db : Database} {d' : DurableStore} {ops : List Operation}

/--
Nothing was recorded before the operations: there is no file yet, or a store with empty tables is
open, which is on the file or is not closed by the operations.
-/
inductive StartsEmpty (ops : List Operation) (db : Database) : Prop where
  | fresh (hfresh : db.Fresh)
  | opened {d : DurableStore} {start : Timestamp} (hopen : db.store? = some d)
      (hempty : d.tables = .empty start)
      (hkept : d.OnFile db.volume db.path ∨ ∀ op ∈ ops, op.keepsOpen = true)

theorem holds_settledAll {visits : List Visit} {l : Ledger} (h : l.Holds visits)
    (trace : List (Operation × Reply)) :
    (trace.foldl settled l).Holds (visits ++ recordedIn trace) := by
  induction trace generalizing l visits with
  | nil => simpa [recordedIn] using h
  | cons entry rest ih =>
      rw [recordedIn_cons, ← List.append_assoc]
      exact ih (holds_settled h entry)

/-- A store that is open afterwards holds the visits that were recorded with success. -/
theorem StartsEmpty.holds (h : StartsEmpty ops db) (hopen' : (db.run ops).2.store? = some d') :
    d'.tables.Holds (recordedIn (db.run ops).1) := by
  cases h with
  | fresh hfresh =>
      have hrun := Holding.run (.inl ⟨hfresh, rfl⟩) ops
      rw [List.nil_append] at hrun
      rcases hrun with ⟨hunborn, -⟩ | ⟨tables, hstands⟩
      · rw [hunborn.closed] at hopen'
        cases hopen'
      · rw [hstands.same d' hopen']
        exact hstands.holds
  | opened hopen hempty hkept =>
      have hstart := hempty ▸ Ledger.holds_empty _
      rw [tables_run hopen hstart hkept hopen', ← List.nil_append (recordedIn _)]
      exact holds_settledAll hstart (db.run ops).1

/-- The first visits of a ranking, at most so many, as the columns hold them. -/
def shown (ranking : List (Visit × Nat)) (n : Nat) : List Visit :=
  (ranking.take n).map fun a => Ledger.clamped a.1

/--
However many visits an open database is asked for, it answers with the first of a ranking, and the
query on the texts in its tables finds the same.
-/
structure ShowsLatest (ranking : List (Visit × Nat)) (d : DurableStore) (db : Database) : Prop where
  answers : ∀ n, (db.perform (.recent .waiting n)).1 = .visits (.ok (shown ranking n))
  length_eq : ∀ n, (shown ranking n).length = min n ranking.length
  isPrefix : ∀ m n, m ≤ n → (shown ranking m).IsPrefix (shown ranking n)
  queried : ranking.length ≤ maxRows →
    ∀ n, queryRecent (logRows d.tables.log) n = some (shown ranking n)

theorem showsLatest_placed {d : DurableStore} {visits : List Visit} (hopen : db.store? = some d)
    (h : d.tables.Holds visits) (htimes : ∀ v ∈ visits, v.timestamp.Representable) :
    ShowsLatest (placed visits) d db := by
  refine ⟨fun n => ?_, fun n => ?_, fun m n hle => ?_, fun hlength n => ?_⟩
  · simp only [perform, hopen, ask, shown, ← h.recent_eq]
    rfl
  · rw [shown, List.length_map, List.length_take]
  · exact (List.take_prefix_take_left hle).map _
  · rw [shown, ← h.recent_eq]
    refine queryRecent_logRows ?_ ?_ n
    · intro v hv
      rw [h.log_eq] at hv
      obtain ⟨w, hw, rfl⟩ := List.mem_map.1 hv
      exact htimes w hw
    · rwa [h.log_eq, List.length_map, ← (latestFirst_written htimes).length_eq]

/--
After any operations on a store that began without visits, an open database shows the visits that
were recorded with success from the latest to the earliest, those of one time from the last
recorded to the first.  There is one such ranking.
-/
theorem showsLatest_run (hstarts : StartsEmpty ops db)
    (htimes : ∀ v ∈ recordedIn (db.run ops).1,
      v.timestamp.Representable ∧ v.timestamp.HasPlainYear)
    (hopen' : (db.run ops).2.store? = some d') :
    ∃ ranking, LatestFirst Timestamp.before (recordedIn (db.run ops).1) ranking ∧
      (∀ other, LatestFirst Timestamp.before (recordedIn (db.run ops).1) other →
        other = ranking) ∧
      ShowsLatest ranking d' (db.run ops).2 := by
  have hranking := latestFirst_of_plain htimes
  exact ⟨placed (recordedIn (db.run ops).1), hranking,
    fun _ hother => hother.unique orders_before hranking,
    showsLatest_placed hopen' (hstarts.holds hopen') fun v hv => (htimes v hv).1⟩

/-- Two visits in the leap second of 2016, one just before it, and one with a key that is cut. -/
def tiedRun : List Operation :=
  [.reopen ⟨1483228799, 0⟩,
    .record .waiting ⟨"10.0.0.1", "bot", "/a", ⟨1483228799, 1500000000⟩⟩,
    .record .waiting longKeyVisit,
    .record .waiting ⟨"10.0.0.2", "bot", "/b", ⟨1483228799, 1500000000⟩⟩, .close,
    .reopen ⟨1700000000, 0⟩,
    .record .waiting ⟨"10.0.0.1", "bot", "/c", ⟨1483228799, 20000000⟩⟩]

/-- The ranking of the run: the later of the two ties, the other one, and the earlier times. -/
def tiedRanking : List (Visit × Nat) :=
  [(⟨"10.0.0.2", "bot", "/b", ⟨1483228799, 1500000000⟩⟩, 2),
    (⟨"10.0.0.1", "bot", "/a", ⟨1483228799, 1500000000⟩⟩, 0),
    (⟨"10.0.0.1", "bot", "/c", ⟨1483228799, 20000000⟩⟩, 3), (longKeyVisit, 1)]

theorem showsLatest_tiedRun :
    LatestFirst Timestamp.before (recordedIn (inRoot.run tiedRun).1) tiedRanking ∧
    ∃ d', (inRoot.run tiedRun).2.store? = some d' ∧
      ShowsLatest tiedRanking d' (inRoot.run tiedRun).2 := by
  have hranking : LatestFirst Timestamp.before (recordedIn (inRoot.run tiedRun).1) tiedRanking :=
    ⟨by decide +kernel, by decide⟩
  obtain ⟨d', hopen'⟩ : ∃ d', (inRoot.run tiedRun).2.store? = some d' :=
    Option.isSome_iff_exists.1 (by decide +kernel)
  have htimes : ∀ v ∈ recordedIn (inRoot.run tiedRun).1,
      v.timestamp.Representable ∧ v.timestamp.HasPlainYear := by decide +kernel
  obtain ⟨ranking, -, hunique, hshows⟩ := showsLatest_run (.fresh fresh_inRoot) htimes hopen'
  rw [← hunique tiedRanking hranking] at hshows
  exact ⟨hranking, d', hopen', hshows⟩

end Database

end Tarpit.Traffic
