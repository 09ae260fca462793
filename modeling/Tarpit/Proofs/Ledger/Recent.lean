import Tarpit.Proofs.Ledger.Balance
import Tarpit.Proofs.Ledger.Dates
import Tarpit.Proofs.Lookup

/-!
# The latest visits

The log from the last visit to the first.  Visits are ranked by their times, and
those of one time by their places in the log, so there is just one ranking.  The
query for it compares and reads back texts; it answers with that ranking.
-/

namespace Tarpit.Traffic

open Tarpit.Time (Timestamp Orders)

/-! ## Rankings by time -/

/-- A visit with its place in the log: it is later than another, or of its time and logged later. -/
def IsAhead (before : Timestamp → Timestamp → Bool) (a b : Visit × Nat) : Prop :=
  before b.1.timestamp a.1.timestamp = true ∨ a.1.timestamp = b.1.timestamp ∧ b.2 < a.2

instance (before : Timestamp → Timestamp → Bool) (a b : Visit × Nat) :
    Decidable (IsAhead before a b) := by
  unfold IsAhead
  infer_instance

theorem IsAhead.asymm {before : Timestamp → Timestamp → Bool} (horder : Orders before)
    {a b : Visit × Nat} (hab : IsAhead before a b) (hba : IsAhead before b a) : False := by
  rcases hab with hab | ⟨heq, hab⟩
  · rcases hba with hba | ⟨heq, -⟩
    · have hself := horder.trans hab hba
      rw [horder.irrefl] at hself
      cases hself
    · rw [heq, horder.irrefl] at hab
      cases hab
  · rcases hba with hba | ⟨-, hba⟩
    · rw [heq, horder.irrefl] at hba
      cases hba
    · omega

/-- The visits with their places, from the latest to the earliest, of equals the last one first. -/
structure LatestFirst (before : Timestamp → Timestamp → Bool) (visits : List Visit)
    (ranking : List (Visit × Nat)) : Prop where
  perm : ranking.Perm visits.zipIdx
  ordered : ranking.Pairwise (IsAhead before)

namespace LatestFirst

variable {before : Timestamp → Timestamp → Bool} {visits : List Visit}
  {ranking ranking' : List (Visit × Nat)}

theorem unique (horder : Orders before) (h : LatestFirst before visits ranking)
    (h' : LatestFirst before visits ranking') : ranking = ranking' :=
  (h.perm.trans h'.perm.symm).eq_of_pairwise
    (fun _ _ _ _ hab hba => (hab.asymm horder hba).elim) h.ordered h'.ordered

theorem length_eq (h : LatestFirst before visits ranking) : ranking.length = visits.length := by
  rw [h.perm.length_eq, List.length_zipIdx]

theorem mem_visits (h : LatestFirst before visits ranking) {a : Visit × Nat} (ha : a ∈ ranking) :
    a.1 ∈ visits := by
  have hplace := List.mem_zipIdx_iff_getElem?.1 (h.perm.mem_iff.1 ha)
  exact List.mem_of_getElem? hplace

end LatestFirst

/-! ## The ranking of a log -/

/-- The ranking that is got by sorting the visits backwards by their stored times. -/
def placed (visits : List Visit) : List (Visit × Nat) :=
  visits.zipIdx.reverse.mergeSort fun a b => !storedBefore a.1.timestamp b.1.timestamp

theorem newestFirst_eq_mergeSort (log : List Visit) :
    newestFirst log =
      log.reverse.mergeSort fun v w => !storedBefore v.timestamp w.timestamp := by
  have hkeyed := List.map_mergeSort (r := fun v w => !storedBefore v.timestamp w.timestamp)
    (s := fun a b => !decide (a.1 < b.1)) (f := fun v : Visit => (v.timestamp.stored, v))
    (l := log.reverse) (fun _ _ _ _ => rfl)
  rw [newestFirst, ← hkeyed, List.map_map]
  exact List.map_id _

theorem map_fst_placed (visits : List Visit) :
    (placed visits).map Prod.fst = newestFirst visits := by
  have hplaced := List.map_mergeSort
    (r := fun a b : Visit × Nat => !storedBefore a.1.timestamp b.1.timestamp)
    (s := fun v w : Visit => !storedBefore v.timestamp w.timestamp) (f := Prod.fst)
    (l := visits.zipIdx.reverse) (fun _ _ _ _ => rfl)
  rw [placed, hplaced, List.map_reverse, List.zipIdx_map_fst, newestFirst_eq_mergeSort]

/-- What leaves the times of the visits alone leaves their ranking alone. -/
theorem newestFirst_map {f : Visit → Visit} (h : ∀ v, (f v).timestamp = v.timestamp)
    (visits : List Visit) : newestFirst (visits.map f) = (newestFirst visits).map f := by
  rw [newestFirst_eq_mergeSort, newestFirst_eq_mergeSort, ← List.map_reverse, List.map_mergeSort]
  intro v _ w _
  rw [h, h]

theorem not_storedBefore_trans (a b c : Visit × Nat)
    (hab : (!storedBefore a.1.timestamp b.1.timestamp) = true)
    (hbc : (!storedBefore b.1.timestamp c.1.timestamp) = true) :
    (!storedBefore a.1.timestamp c.1.timestamp) = true := by
  simp only [storedBefore, Bool.not_eq_true', decide_eq_false_iff_not, List.not_lt] at *
  exact List.le_trans hbc hab

theorem not_storedBefore_total (a b : Visit × Nat) :
    (!storedBefore a.1.timestamp b.1.timestamp || !storedBefore b.1.timestamp a.1.timestamp) =
      true := by
  simp only [storedBefore, Bool.or_eq_true, Bool.not_eq_true', decide_eq_false_iff_not,
    List.not_lt]
  exact List.le_total _ _

/-- The newest visit of a log goes before just those that are not stored as later. -/
theorem placed_concat (visits : List Visit) (v : Visit) :
    ∃ later others, placed (visits ++ [v]) = later ++ (v, visits.length) :: others ∧
      placed visits = later ++ others ∧
      (∀ a ∈ later, storedBefore v.timestamp a.1.timestamp = true) ∧
      ∀ a ∈ others, storedBefore v.timestamp a.1.timestamp = false := by
  have hsorted := List.pairwise_mergeSort not_storedBefore_trans not_storedBefore_total
    ((v, visits.length) :: visits.zipIdx.reverse)
  obtain ⟨later, others, hnew, hold, hlater⟩ := List.mergeSort_cons not_storedBefore_trans
    not_storedBefore_total (v, visits.length) visits.zipIdx.reverse
  rw [hnew] at hsorted
  refine ⟨later, others, ?_, hold, ?_, ?_⟩
  · rw [placed, List.zipIdx_append, List.reverse_append, Nat.zero_add]
    exact hnew
  · intro a ha
    simpa using hlater a ha
  · intro a ha
    have hbehind := (List.pairwise_cons.1 (List.pairwise_append.1 hsorted).2.1).1 a ha
    simpa using hbehind

/-- The sorted log is the ranking by the written times. -/
theorem latestFirst_written {visits : List Visit}
    (h : ∀ v ∈ visits, v.timestamp.Representable) :
    LatestFirst Timestamp.writtenBefore visits (placed visits) := by
  refine ⟨(List.mergeSort_perm _ _).trans (List.reverse_perm _), ?_⟩
  -- In the order of recording: the newest visit has the greatest place, so it wins every tie.
  induction visits using List.reverseRecOn with
  | nil =>
      rw [placed, List.zipIdx_nil, List.reverse_nil, List.mergeSort_nil]
      exact List.Pairwise.nil
  | append_singleton visits v ih =>
      have hvisits : ∀ w ∈ visits, w.timestamp.Representable :=
        fun w hw => h w (List.mem_append_left _ hw)
      have hv := h v (List.mem_append_right _ (List.mem_singleton_self v))
      obtain ⟨later, others, hnew, hold, hlater, hothers⟩ := placed_concat visits v
      have hplace : ∀ a ∈ later ++ others, a.1.timestamp.Representable ∧ a.2 < visits.length := by
        intro a ha
        rw [← hold] at ha
        have hmem := List.mem_reverse.1 ((List.mergeSort_perm _ _).mem_iff.1 ha)
        have hget := List.mem_zipIdx_iff_getElem?.1 hmem
        exact ⟨hvisits a.1 (List.mem_of_getElem? hget), (List.getElem?_eq_some_iff.1 hget).1⟩
      have hbefore : ∀ a ∈ later, IsAhead Timestamp.writtenBefore a (v, visits.length) := by
        intro a ha
        have hrepresentable := (hplace a (List.mem_append_left _ ha)).1
        exact .inl ((storedBefore_eq_writtenBefore hv hrepresentable).symm.trans (hlater a ha))
      have hafter : ∀ a ∈ others, IsAhead Timestamp.writtenBefore (v, visits.length) a := by
        intro a ha
        obtain ⟨hrepresentable, hlt⟩ := hplace a (List.mem_append_right _ ha)
        have hnot := (storedBefore_eq_writtenBefore hv hrepresentable).symm.trans (hothers a ha)
        rcases Timestamp.writtenBefore_trichotomy v.timestamp a.1.timestamp with h' | h' | h'
        · rw [hnot] at h'
          cases h'
        · exact .inr ⟨h', hlt⟩
        · exact .inl h'
      have hrest := ih hvisits
      rw [hold, List.pairwise_append] at hrest
      obtain ⟨hlaters, hotherss, hcross⟩ := hrest
      rw [hnew, List.pairwise_append, List.pairwise_cons]
      refine ⟨hlaters, ⟨hafter, hotherss⟩, fun a ha b hb => ?_⟩
      rcases List.mem_cons.1 hb with rfl | hb
      · exact hbefore a ha
      · exact hcross a ha b hb

/-- In years of four digits the ranking is that by time. -/
theorem latestFirst_of_plain {visits : List Visit}
    (h : ∀ v ∈ visits, v.timestamp.Representable ∧ v.timestamp.HasPlainYear) :
    LatestFirst Timestamp.before visits (placed visits) := by
  have hwritten := latestFirst_written fun v hv => (h v hv).1
  refine ⟨hwritten.perm, hwritten.ordered.imp_of_mem ?_⟩
  intro a b ha hb hahead
  have hsame := Timestamp.writtenBefore_eq_before (h _ (hwritten.mem_visits hb)).2
    (h _ (hwritten.mem_visits ha)).2
  exact hahead.imp_left fun hbefore => hsame.symm.trans hbefore

namespace Ledger

/-- The latest visits in the tables are the first ones of the ranking, in the texts that fit. -/
theorem Holds.recent_eq {l : Ledger} {visits : List Visit} (h : l.Holds visits) (n : Nat) :
    l.recent n = ((placed visits).take n).map fun a => clamped a.1 := by
  have hclamped := newestFirst_map (f := clamped) (fun _ => rfl) visits
  rw [recent, h.log_eq, hclamped, ← map_fst_placed, List.map_map, List.map_take]
  rfl

end Ledger

/-! ## The query on texts -/

/-- A row of the log in the file: its number, and texts. -/
structure LogRow where
  id : Nat
  clientKey : String
  userAgent : String
  path : String
  time : List Char

namespace LogRow

/-- The row of a visit by its place in the log.  The numbers of rows start at one. -/
def of (entry : Visit × Nat) : LogRow :=
  ⟨entry.2 + 1, entry.1.clientKey, entry.1.userAgent, entry.1.path, entry.1.timestamp.stored⟩

/-- The visit in a row, if its time is one. -/
def visit? (r : LogRow) : Option Visit :=
  (Timestamp.read? r.time).map fun t => ⟨r.clientKey, r.userAgent, r.path, t⟩

/-- Rows come by their times as texts, then by their numbers, both downwards. -/
def comesFirst (r q : LogRow) : Bool :=
  decide (q.time < r.time) || r.time == q.time && decide (q.id ≤ r.id)

end LogRow

/-- The rows of a log. -/
def logRows (log : List Visit) : List LogRow :=
  log.zipIdx.map LogRow.of

/-- The most rows that a query can ask for. -/
def maxRows : Nat := 2 ^ 63 - 1

/-- The visits in the first rows, at most so many; there is no answer if one cannot be read. -/
def queryRecent (rows : List LogRow) (n : Nat) : Option (List Visit) :=
  ((rows.mergeSort LogRow.comesFirst).take (min n maxRows)).mapM LogRow.visit?

namespace LogRow

theorem visit?_of {entry : Visit × Nat} (h : entry.1.timestamp.Representable) :
    (of entry).visit? = some entry.1 := by
  simp only [visit?, of, Tarpit.Time.read?_stored h, Option.map_some]

theorem comesFirst_trans (p q r : LogRow) (hpq : p.comesFirst q = true)
    (hqr : q.comesFirst r = true) : p.comesFirst r = true := by
  simp only [comesFirst, Bool.or_eq_true, decide_eq_true_eq, Bool.and_eq_true, beq_iff_eq] at *
  rcases hpq with hpq | ⟨hpq, hle⟩
  · rcases hqr with hqr | ⟨hqr, -⟩
    · exact .inl (List.lt_trans hqr hpq)
    · exact .inl (hqr ▸ hpq)
  · rcases hqr with hqr | ⟨hqr, hle'⟩
    · exact .inl (hpq ▸ hqr)
    · exact .inr ⟨hpq.trans hqr, Nat.le_trans hle' hle⟩

theorem comesFirst_total (p q : LogRow) : (p.comesFirst q || q.comesFirst p) = true := by
  simp only [comesFirst, Bool.or_eq_true, decide_eq_true_eq, Bool.and_eq_true, beq_iff_eq]
  rcases Std.lt_trichotomy p.time q.time with h | h | h
  · exact .inr (.inl h)
  · rcases Nat.le_total q.id p.id with hid | hid
    · exact .inl (.inr ⟨h, hid⟩)
    · exact .inr (.inr ⟨h.symm, hid⟩)
  · exact .inl (.inl h)

theorem id_eq_of_comesFirst {p q : LogRow} (hpq : p.comesFirst q = true)
    (hqp : q.comesFirst p = true) : p.id = q.id := by
  simp only [comesFirst, Bool.or_eq_true, decide_eq_true_eq, Bool.and_eq_true, beq_iff_eq] at *
  rcases hpq with hpq | ⟨hpq, hle⟩
  · rcases hqp with hqp | ⟨hqp, -⟩
    · exact absurd (List.lt_trans hpq hqp) (List.lt_irrefl _)
    · rw [hqp] at hpq
      exact absurd hpq (List.lt_irrefl _)
  · rcases hqp with hqp | ⟨-, hle'⟩
    · rw [hpq] at hqp
      exact absurd hqp (List.lt_irrefl _)
    · exact Nat.le_antisymm hle' hle

/-- Rows come in the order of the ranking of their visits. -/
theorem comesFirst_of_isAhead {a b : Visit × Nat}
    (h : IsAhead storedBefore a b) : (of a).comesFirst (of b) = true := by
  simp only [comesFirst, Bool.or_eq_true, decide_eq_true_eq, Bool.and_eq_true, beq_iff_eq]
  rcases h with h | ⟨heq, hlt⟩
  · exact .inl (of_decide_eq_true h)
  · exact .inr ⟨congrArg Timestamp.stored heq, Nat.succ_le_succ (Nat.le_of_lt hlt)⟩

end LogRow

/-- The rows have different numbers, so there is only one way to sort them. -/
theorem mergeSort_logRows {log : List Visit} (h : ∀ v ∈ log, v.timestamp.Representable) :
    (logRows log).mergeSort LogRow.comesFirst = (placed log).map LogRow.of := by
  have hranking := latestFirst_written h
  have hperm : ((logRows log).mergeSort LogRow.comesFirst).Perm ((placed log).map LogRow.of) :=
    (List.mergeSort_perm _ _).trans (hranking.perm.symm.map _)
  have hsorted : ((placed log).map LogRow.of).Pairwise fun r q => r.comesFirst q = true := by
    rw [List.pairwise_map]
    refine hranking.ordered.imp_of_mem fun ha hb hahead => LogRow.comesFirst_of_isAhead ?_
    have hsame := storedBefore_eq_writtenBefore (h _ (hranking.mem_visits hb))
      (h _ (hranking.mem_visits ha))
    exact hahead.imp_left fun hbefore => hsame.trans hbefore
  refine hperm.eq_of_pairwise ?_
    (List.pairwise_mergeSort LogRow.comesFirst_trans LogRow.comesFirst_total _) hsorted
  intro r q hr hq hrq hqr
  -- Rows that come first mutually have one number, which belongs to just one place of the log.
  obtain ⟨a, ha, rfl⟩ := List.mem_map.1 ((List.mergeSort_perm _ _).mem_iff.1 hr)
  obtain ⟨b, hb, rfl⟩ := List.mem_map.1 hq
  have hplace : a.2 = b.2 := Nat.succ.inj (LogRow.id_eq_of_comesFirst hrq hqr)
  have ha' := List.mem_zipIdx_iff_getElem?.1 ha
  have hb' := List.mem_zipIdx_iff_getElem?.1 (hranking.perm.mem_iff.1 hb)
  rw [hplace, hb', Option.some.injEq] at ha'
  rw [Prod.ext ha'.symm hplace]

theorem mapM_visit?_of {entries : List (Visit × Nat)}
    (h : ∀ a ∈ entries, a.1.timestamp.Representable) :
    (entries.map LogRow.of).mapM LogRow.visit? = some (entries.map Prod.fst) := by
  rw [mapM_eq_some_iff, List.map_map, List.map_map]
  exact List.map_congr_left fun a ha => LogRow.visit?_of (h a ha)

/-- The query reads from the texts what the tables have, whatever the number that is asked for. -/
theorem queryRecent_logRows {l : Ledger} (h : ∀ v ∈ l.log, v.timestamp.Representable)
    (hlength : l.log.length ≤ maxRows) (n : Nat) :
    queryRecent (logRows l.log) n = some (l.recent n) := by
  have hranking := latestFirst_written h
  have htake : (placed l.log).take (min n maxRows) = (placed l.log).take n := by
    rw [List.take_eq_take_iff, hranking.length_eq]
    omega
  rw [queryRecent, mergeSort_logRows h, ← List.map_take, htake, mapM_visit?_of, Ledger.recent,
    List.map_take, map_fst_placed]
  intro a ha
  exact h a.1 (hranking.mem_visits (List.mem_of_mem_take ha))

end Tarpit.Traffic
