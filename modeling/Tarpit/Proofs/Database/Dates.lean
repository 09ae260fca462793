import Tarpit.Proofs.Database.Balance
import Tarpit.Proofs.Ledger.Dates

/-!
# Times that a database tells

What a durable store answers about times after any operations: when a client key
was first and last seen, and the start time.  The tables compare texts, so "last"
is the order in which times are written.  It is that of time for years of four
digits, and wherever no year is written after that of the latest time.
-/

namespace Tarpit.Traffic

open Tarpit.Time (Timestamp IsLast Spans yearText)

/-- The times that an operation brings into the tables. -/
def Operation.times : Operation → List Timestamp
  | .record _ v => [v.timestamp]
  | .adoptStart time => [time]
  | _ => []

def Operation.keepsOpen : Operation → Bool
  | .close | .reopen _ => false
  | _ => true

namespace Database

/-! ## Tables after a run -/

variable {db : Database} {d d' : DurableStore} {ops : List Operation}

theorem dates_settled {start : Timestamp} {visits : List Visit} {offered : List Timestamp}
    {l : Ledger} (h : l.Dates storedBefore start visits offered) (entry : Operation × Reply) :
    (settled l entry).Dates storedBefore start (visits ++ (recordedBy? entry).toList)
      (offered ++ (offeredBy? entry).toList) := by
  rcases settled_cases l entry with
    ⟨v, hvisit, hoffer, hl⟩ | ⟨time, hvisit, hoffer, hl⟩ | ⟨hvisit, hoffer, hl⟩
  · rw [hvisit, hoffer, hl, Option.toList_none, List.append_nil]
    exact h.recorded v
  · rw [hvisit, hoffer, hl, Option.toList_none, List.append_nil]
    exact h.adoptStart time
  · rw [hvisit, hoffer, hl]
    simpa using h

theorem dates_settledAll {start : Timestamp} {visits : List Visit} {offered : List Timestamp}
    {l : Ledger} (h : l.Dates storedBefore start visits offered)
    (trace : List (Operation × Reply)) :
    (trace.foldl settled l).Dates storedBefore start (visits ++ recordedIn trace)
      (offered ++ offeredIn trace) := by
  induction trace generalizing l visits offered with
  | nil => simpa [recordedIn, offeredIn] using h
  | cons entry rest ih =>
      rw [recordedIn_cons, offeredIn_cons, ← List.append_assoc, ← List.append_assoc]
      exact ih (dates_settled h entry)

theorem tables_run_of_keepsOpen (hopen : db.store? = some d)
    (hops : ∀ op ∈ ops, op.keepsOpen = true) :
    ∃ d', (db.run ops).2.store? = some d' ∧ d'.tables = (db.run ops).1.foldl settled d.tables := by
  induction ops generalizing db d with
  | nil => exact ⟨d, hopen, rfl⟩
  | cons op rest ih =>
      rw [List.forall_mem_cons] at hops
      rw [run_cons, List.foldl_cons]
      rcases db.perform_cases op with rfl | ⟨now, rfl⟩ | ⟨hclosed, -⟩ | ⟨asked, hasked, hperform⟩
      · cases hops.1
      · cases hops.1
      · rw [hclosed] at hopen
        cases hopen
      · obtain rfl : asked = d := by simpa [hasked] using hopen
        obtain ⟨next, hnext, htables⟩ := store?_ask hasked op
        rw [← hperform] at hnext htables
        rw [← htables]
        exact ih hnext hops.2

/-- A store that is not closed, or is on the file of the database, never loses its tables. -/
theorem tables_run {visits : List Visit} (hopen : db.store? = some d)
    (holds : d.tables.Holds visits)
    (hkept : d.OnFile db.volume db.path ∨ ∀ op ∈ ops, op.keepsOpen = true)
    (hopen' : (db.run ops).2.store? = some d') :
    d'.tables = (db.run ops).1.foldl settled d.tables := by
  rcases hkept with hfile | hops
  · have hstands := stands_holding db (d, db.volume) hfile holds
    rw [holding_of_open hopen] at hstands
    exact (hstands.run ops).same d' hopen'
  · obtain ⟨left, hleft, htables⟩ := tables_run_of_keepsOpen hopen hops
    rw [hleft] at hopen'
    cases hopen'
    exact htables

/-! ## Times in a run -/

theorem map_fst_run (db : Database) (ops : List Operation) : (db.run ops).1.map Prod.fst = ops := by
  induction ops generalizing db with
  | nil => rfl
  | cons op rest ih => rw [run_cons, List.map_cons, ih]

theorem mem_times_of_recordedBy? {entry : Operation × Reply} {v : Visit}
    (h : recordedBy? entry = some v) : v.timestamp ∈ entry.1.times := by
  unfold recordedBy? at h
  split at h
  · cases h
    exact List.mem_singleton_self _
  · cases h

theorem mem_times_of_offeredBy? {entry : Operation × Reply} {time : Timestamp}
    (h : offeredBy? entry = some time) : time ∈ entry.1.times := by
  unfold offeredBy? at h
  split at h
  · cases h
    exact List.mem_singleton_self _
  · cases h

/-- What holds of all the times of the operations holds of those that came into the tables. -/
theorem forall_times_of_run {among : Timestamp → Prop}
    (h : ∀ op ∈ ops, ∀ t ∈ op.times, among t) (db : Database) :
    (∀ v ∈ recordedIn (db.run ops).1, among v.timestamp) ∧
      ∀ t ∈ offeredIn (db.run ops).1, among t := by
  have hentry : ∀ entry ∈ (db.run ops).1, ∀ t ∈ entry.1.times, among t :=
    fun entry hmem => h entry.1 (map_fst_run db ops ▸ List.mem_map_of_mem hmem)
  constructor
  · intro v hv
    obtain ⟨entry, hmem, hrecorded⟩ := List.mem_filterMap.1 hv
    exact hentry entry hmem _ (mem_times_of_recordedBy? hrecorded)
  · intro t ht
    obtain ⟨entry, hmem, hoffered⟩ := List.mem_filterMap.1 ht
    exact hentry entry hmem _ (mem_times_of_offeredBy? hoffered)

/-! ## Answers -/

/--
An open database tells of every key the time of its first record and the last of its times, shows
the first of all start times, and adopts just what is before that.
-/
structure TellsTimes (before : Timestamp → Timestamp → Bool) (among : Timestamp → Prop)
    (start : Timestamp) (visits : List Visit) (offered : List Timestamp) (db : Database) :
    Prop where
  seen : ∀ key, ∃ span?, (db.perform (.keySeen key)).1 = .seen span? ∧
    Spans before (timesOf key visits) span?
  startTime : ∃ summary, (db.perform (.summary .waiting)).1 = .totals (.ok summary) ∧
    IsLast (flip before) (start :: offered) summary.startTime ∧
    ∀ t, among t → (db.perform (.adoptStart t)).1 = .adopted (before t summary.startTime)

theorem tellsTimes {before : Timestamp → Timestamp → Bool} {among : Timestamp → Prop}
    {start : Timestamp} {visits : List Visit} {offered : List Timestamp}
    (hopen : db.store? = some d) (hdates : d.tables.Dates storedBefore start visits offered)
    (hsame : ∀ {t u}, among t → among u → storedBefore t u = before t u)
    (hvisits : ∀ v ∈ visits, among v.timestamp) (hstarts : ∀ t ∈ start :: offered, among t) :
    db.TellsTimes before among start visits offered := by
  have hdates' := hdates.congr hsame hvisits hstarts
  refine ⟨fun key => ⟨d.tables.keySeen? key, ?_, hdates'.seen key⟩,
    d.tables.summary, ?_, hdates'.startTime, fun t ht => ?_⟩
  · simp only [perform, hopen, ask]
  · simp only [perform, hopen, ask]
    rfl
  · have hfirst := hsame ht (hstarts _ hdates'.startTime.mem)
    simp only [perform, hopen, ask]
    rw [show d.tables.summary.startTime = d.tables.startTime from rfl, ← hfirst]
    rcases d.adoptStart_cases db.volume t with ⟨hlater, hadopt⟩ | ⟨hearlier, hadopt⟩
    · rw [hadopt, hlater]
    · rw [hadopt, hearlier]

/--
After any operations on a store whose tables were empty, an open database tells times as they are
written: by the text of the year, and inside a year by time.  It tells them by time if all years
have four digits, and the last time of a key is its latest one just if no year of the key is
written after the year of that.
-/
theorem tellsTimes_run {start : Timestamp} (hopen : db.store? = some d)
    (hempty : d.tables = .empty start)
    (hkept : d.OnFile db.volume db.path ∨ ∀ op ∈ ops, op.keepsOpen = true)
    (hstart : start.Representable) (hops : ∀ op ∈ ops, ∀ t ∈ op.times, t.Representable)
    (hopen' : (db.run ops).2.store? = some d') :
    (db.run ops).2.TellsTimes Timestamp.writtenBefore Timestamp.Representable start
      (recordedIn (db.run ops).1) (offeredIn (db.run ops).1) ∧
    ((start.HasPlainYear ∧ ∀ op ∈ ops, ∀ t ∈ op.times, t.HasPlainYear) →
      (db.run ops).2.TellsTimes Timestamp.before (fun t => t.Representable ∧ t.HasPlainYear) start
        (recordedIn (db.run ops).1) (offeredIn (db.run ops).1)) ∧
    ∀ key first last latest,
      ((db.run ops).2.perform (.keySeen key)).1 = .seen (some (first, last)) →
      IsLast Timestamp.before (timesOf key (recordedIn (db.run ops).1)) latest →
      (last = latest ↔ ∀ t ∈ timesOf key (recordedIn (db.run ops).1),
        ¬ yearText latest.year < yearText t.year) := by
  have holds : d.tables.Holds [] := hempty ▸ Ledger.holds_empty start
  have hdates := dates_settledAll (Ledger.dates_empty start) (db.run ops).1
  rw [← hempty, ← tables_run hopen holds hkept hopen', List.nil_append, List.nil_append] at hdates
  obtain ⟨hvisits, hoffered⟩ := forall_times_of_run hops db
  have hwritten := tellsTimes hopen' hdates storedBefore_eq_writtenBefore hvisits
    (List.forall_mem_cons.2 ⟨hstart, hoffered⟩)
  refine ⟨hwritten, ?_, ?_⟩
  · rintro ⟨hplainstart, hplain⟩
    have hall : ∀ op ∈ ops, ∀ t ∈ op.times, t.Representable ∧ t.HasPlainYear :=
      fun op hop t ht => ⟨hops op hop t ht, hplain op hop t ht⟩
    have hboth := forall_times_of_run hall db
    refine tellsTimes hopen' hdates ?_ hboth.1
      (List.forall_mem_cons.2 ⟨⟨hstart, hplainstart⟩, hboth.2⟩)
    intro t u ht hu
    rw [storedBefore_eq_writtenBefore ht.1 hu.1, Timestamp.writtenBefore_eq_before ht.2 hu.2]
  · intro key first last latest hreply hlatest
    obtain ⟨span?, hspan?, hspans⟩ := hwritten.seen key
    rw [hreply] at hspan?
    cases hspan?
    exact hspans.isLast.written_iff hlatest

/-- A client in the leap second of 2016, just before it, and a year earlier after a restart. -/
def leapRun : List Operation :=
  [.record .waiting ⟨"10.0.0.1", "bot", "/", ⟨1483228799, 1500000000⟩⟩,
    .record .waiting ⟨"10.0.0.1", "bot", "/", ⟨1483228799, 20000000⟩⟩,
    .adoptStart ⟨1483228798, 0⟩, .close, .reopen ⟨1700000000, 0⟩,
    .record .waiting ⟨"10.0.0.1", "bot", "/", ⟨1451606400, 0⟩⟩, .adoptStart ⟨1483228799, 0⟩]

/-- The database in the root after it was opened at the end of 2016. -/
def openedInRoot : Database :=
  (inRoot.perform (.reopen ⟨1483228799, 0⟩)).2

theorem tellsTimes_leapRun :
    (openedInRoot.run leapRun).2.TellsTimes Timestamp.before
      (fun t => t.Representable ∧ t.HasPlainYear) ⟨1483228799, 0⟩
      (recordedIn (openedInRoot.run leapRun).1) (offeredIn (openedInRoot.run leapRun).1) ∧
    ((openedInRoot.run leapRun).2.perform (.keySeen "10.0.0.1")).1 =
      .seen (some (⟨1483228799, 1500000000⟩, ⟨1483228799, 1500000000⟩)) := by
  have hopen : openedInRoot.store? = some ⟨.empty ⟨1483228799, 0⟩, some 0, .whole⟩ := rfl
  have hfile : DurableStore.OnFile ⟨.empty ⟨1483228799, 0⟩, some 0, .whole⟩ openedInRoot.volume
      openedInRoot.path := ⟨0, rfl, rfl, rfl⟩
  obtain ⟨d', hopen'⟩ : ∃ d', (openedInRoot.run leapRun).2.store? = some d' :=
    Option.isSome_iff_exists.1 (by decide +kernel)
  have htimes : ∀ op ∈ leapRun, ∀ t ∈ op.times, t.Representable := by decide
  obtain ⟨-, hplain, -⟩ := tellsTimes_run hopen rfl (.inl hfile) (by decide) htimes hopen'
  exact ⟨hplain (by decide), rfl⟩

/-- A client of 2023 that comes again in the year 10000. -/
def farRun : List Operation :=
  [.record .waiting ⟨"10.0.0.1", "bot", "/", ⟨1700000000, 0⟩⟩,
    .record .waiting ⟨"10.0.0.1", "bot", "/", ⟨253402300800, 0⟩⟩]

def inMemory : Database :=
  ⟨["visits.db"], .empty, some (.inMemory ⟨1700000000, 0⟩)⟩

/--
A year with a sign is written before one without, so the client is not seen last in the year 10000,
and that year is adopted for the earlier start.
-/
theorem not_tellsTimes_farRun :
    ((inMemory.run farRun).2.perform (.keySeen "10.0.0.1")).1 =
      .seen (some (⟨1700000000, 0⟩, ⟨1700000000, 0⟩)) ∧
    ((inMemory.run farRun).2.perform (.adoptStart ⟨253402300800, 0⟩)).1 = .adopted true ∧
    ¬ (inMemory.run farRun).2.TellsTimes Timestamp.before Timestamp.Representable ⟨1700000000, 0⟩
      (recordedIn (inMemory.run farRun).1) (offeredIn (inMemory.run farRun).1) := by
  refine ⟨rfl, rfl, fun htells => ?_⟩
  obtain ⟨span?, hreply, hspans⟩ := htells.seen "10.0.0.1"
  have hspan? : span? = some (⟨1700000000, 0⟩, ⟨1700000000, 0⟩) := by
    cases hreply
    rfl
  subst hspan?
  have hlast := hspans.isLast.last ⟨253402300800, 0⟩ (by decide +kernel)
  exact absurd hlast (by decide)

end Database

end Tarpit.Traffic
