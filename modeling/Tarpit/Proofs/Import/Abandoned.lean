import Tarpit.Proofs.Import.Snapshot
import Tarpit.Proofs.Import.Unreadable

/-!
# Taking over for a caller who is gone

The caller is looked for only where a visit is recorded.  A log without visits
is read to its end all the same, and the snapshot behind it is taken over; from
any other log nothing is taken.
-/

namespace Tarpit.Traffic

/-! ## Readings for a caller who is gone -/

namespace Importing

/-- The line is no text, or a visit stands on it, for which the caller is looked for. -/
def isWatched (bytes : Bytes) : Bool :=
  !isTextLine bytes || (visitOn? bytes).isSome

theorem stop?_gone (bytes : Bytes) :
    stop? .gone bytes =
      if isWatched bytes then some (if isTextLine bytes then .cancelled else .files) else none := by
  unfold stop? isWatched isTextLine
  cases Text.Utf8.decode bytes with
  | none => rfl
  | some chars =>
      cases visitOn? bytes with
      | none => rfl
      | some v => rfl

theorem ending?_gone (ls : List Bytes) :
    ending? .gone ls =
      (ls.find? isWatched).map fun bytes => if isTextLine bytes then .cancelled else .files := by
  induction ls with
  | nil => rfl
  | cons bytes rest ih =>
      rw [ending?, List.find?_cons, stop?_gone]
      cases isWatched bytes with
      | true => rfl
      | false => exact ih

theorem passed_gone (ls : List Bytes) :
    passed .gone ls = ls.takeWhile fun bytes => !isWatched bytes := by
  induction ls with
  | nil => rfl
  | cons bytes rest ih =>
      rw [passed, List.takeWhile_cons, stop?_gone]
      cases isWatched bytes with
      | true => rfl
      | false => exact congrArg (bytes :: ·) ih

theorem visitOn?_of_not_isWatched {bytes : Bytes} (h : isWatched bytes = false) :
    isTextLine bytes = true ∧ visitOn? bytes = none := by
  simpa [isWatched] using h

theorem state_passing {bytes : Bytes} (h : isWatched bytes = false) (i : Importing) :
    (i.passing bytes).state = i.state := by
  rw [passing_of_none (visitOn?_of_not_isWatched h).2]
  split
  · rfl
  · rfl

theorem state_foldl_passing {ls : List Bytes} (h : ∀ bytes ∈ ls, isWatched bytes = false)
    (i : Importing) : (ls.foldl passing i).state = i.state := by
  induction ls generalizing i with
  | nil => rfl
  | cons bytes rest ih =>
      rw [List.foldl_cons, ih (fun line hline => h line (List.mem_cons_of_mem _ hline)),
        state_passing (h bytes List.mem_cons_self)]

/-- Whoever reads a log of which no line is watched comes to its end. -/
theorem passed_of_unwatched {ls : List Bytes} (h : ∀ bytes ∈ ls, isWatched bytes = false)
    (patience : Patience) : passed patience ls = ls ∧ ending? patience ls = none := by
  induction ls generalizing patience with
  | nil => exact ⟨rfl, rfl⟩
  | cons bytes rest ih =>
      obtain ⟨hpassed, hending⟩ :=
        ih (fun line hline => h line (List.mem_cons_of_mem _ hline)) patience.next
      obtain ⟨htext, hnone⟩ := visitOn?_of_not_isWatched (h bytes List.mem_cons_self)
      have hstop : stop? patience bytes = none := by
        unfold stop?
        unfold isTextLine at htext
        rw [hnone, ← Option.not_isSome, htext]
        rfl
      rw [passed, ending?, hstop, hpassed, hending]
      exact ⟨rfl, rfl⟩

end Importing

/-! ## Runs for a caller who is gone -/

/-- The first line of the request log at which a run for a caller who is gone stops. -/
def Volume.watchedLine? (v : Volume) (directory : Path) : Option Bytes :=
  (v.logLines directory).find? Importing.isWatched

namespace Volume

theorem SameLog.watchedLine? {v v' : Volume} {directory : Path} (h : SameLog v v' directory) :
    v'.watchedLine? directory = v.watchedLine? directory := by
  rw [Volume.watchedLine?, Volume.watchedLine?, logLines, logLines, h.lines]

theorem SameLog.retired_eq_self {v v' : Volume} {directory : Path} (h : SameLog v v' directory)
    (hself : v.retired directory requestLogName = v) :
    v'.retired directory requestLogName = v' := by
  have hreleases := h.releases
  rw [releasesLog, releasesLog, retired_eq_self_iff.1 hself] at hreleases
  apply retired_of_none
  rw [← Option.not_isSome_iff_eq_none, hreleases]
  exact Bool.false_ne_true

theorem watchedLine?_retired_log {v : Volume} {directory : Path}
    (h : v.watchedLine? directory = none) :
    (v.retired directory requestLogName).watchedLine? directory = none := by
  cases hrename : v.rename? (directory ++ [requestLogName])
      (directory ++ [requestLogName ++ importedSuffix]) with
  | none =>
      rw [retired_of_none hrename]
      exact h
  | some v' =>
      rw [(retired_of_some hrename).1, watchedLine?, logLines, logLines?_renamed hrename]
      rfl

end Volume

namespace DurableStore

variable {d : DurableStore} {vol : Volume} {directory : Path}

theorem not_isWatched_of_watchedLine? {ls : List Bytes} (h : vol.watchedLine? directory = none)
    (hlog : vol.logLines? directory = some ls) :
    ∀ bytes ∈ ls, Importing.isWatched bytes = false := by
  rw [Volume.watchedLine?, Volume.logLines, hlog] at h
  simpa using h

/-- Where no line is watched, nobody is looked for. -/
theorem takeOver_patience (h : vol.watchedLine? directory = none) (p q : Patience) :
    d.takeOver vol directory p = d.takeOver vol directory q := by
  cases hlog : vol.logLines? directory with
  | none =>
      have hfile := Volume.logLines?_eq_none_iff.1 hlog
      unfold takeOver
      simp only [hfile, Bool.false_eq_true, if_false]
  | some ls =>
      have hfile := (Volume.logLines?_eq_some_iff.1 hlog).1
      have hlines := not_isWatched_of_watchedLine? h hlog
      have hread : ∀ patience, Importing.requestLog ⟨d, vol, .empty⟩ directory patience =
          (.ok (), (ls.foldl Importing.passing ⟨d, vol, .empty⟩).retire directory
            requestLogName) := by
        intro patience
        obtain ⟨hpassed, hending⟩ := Importing.passed_of_unwatched hlines patience
        rw [Importing.requestLog_eq _ directory patience hlog, hpassed, hending]
      unfold takeOver
      simp only [hfile, if_true, hread p, hread q]

/-- A run over a log of which no line is watched renames it and goes on to the snapshot. -/
theorem takeOver_of_unwatched (h : vol.watchedLine? directory = none) (patience : Patience) :
    (d.takeOver vol directory patience).2 =
      d.withSnapshot (vol.retired directory requestLogName) directory := by
  cases hlog : vol.logLines? directory with
  | none =>
      rw [takeOver_eq_of_no_log d vol directory patience hlog,
        Volume.retired_of_not_isFile (Volume.logLines?_eq_none_iff.1 hlog)]
      exact Importing.state_snapshot_of_isFile ⟨d, vol, .empty⟩ directory
  | some ls =>
      have hlines := not_isWatched_of_watchedLine? h hlog
      obtain ⟨hpassed, hending⟩ := Importing.passed_of_unwatched hlines patience
      rw [takeOver_eq d vol directory patience hlog rfl, hpassed, hending]
      let renamed := (ls.foldl Importing.passing ⟨d, vol, .empty⟩).retire directory requestLogName
      have hrenamed : renamed.state = (d, vol.retired directory requestLogName) := by
        obtain ⟨hstore, hvolume⟩ :=
          Prod.mk.inj (Importing.state_foldl_passing hlines ⟨d, vol, .empty⟩)
        rw [Importing.state_retire, hstore, hvolume]
      obtain ⟨hstore, hvolume⟩ := Prod.mk.inj hrenamed
      have hsnapshot := renamed.state_snapshot_of_isFile directory
      rw [hstore, hvolume, Volume.isFile_retired_log] at hsnapshot
      exact hsnapshot

theorem takeOver_of_watched {bytes : Bytes} (h : vol.watchedLine? directory = some bytes) :
    d.takeOver vol directory .gone =
      (.error (if Importing.isTextLine bytes then .cancelled else .files), d, vol) := by
  cases hlog : vol.logLines? directory with
  | none =>
      rw [Volume.watchedLine?, Volume.logLines, hlog] at h
      cases h
  | some ls =>
      rw [Volume.watchedLine?, Volume.logLines, hlog, Option.getD_some] at h
      have hfile := (Volume.logLines?_eq_some_iff.1 hlog).1
      have hread := Importing.requestLog_eq ⟨d, vol, .empty⟩ directory .gone hlog
      rw [Importing.ending?_gone, h, Importing.passed_gone] at hread
      have hstate : ((ls.takeWhile fun bytes => !Importing.isWatched bytes).foldl
          Importing.passing ⟨d, vol, .empty⟩).state = (d, vol) := by
        apply Importing.state_foldl_passing
        intro line hline
        simpa using List.mem_takeWhile_imp hline
      obtain ⟨hstore, hvolume⟩ := Prod.mk.inj hstate
      unfold takeOver
      simp only [hfile, if_true, hread, Option.map_some, hstore, hvolume]
      rfl

/-- A second run over a log of which no line is watched finds nothing more to change. -/
theorem takeOver_twice (h : vol.watchedLine? directory = none) (p q : Patience) :
    d.takeOvers vol directory [p, q] = d.takeOvers vol directory [p] := by
  let renamed := vol.retired directory requestLogName
  let after := d.withSnapshot renamed directory
  have hfirst := takeOver_of_unwatched (d := d) h p
  have hsame : renamed.SameLog after.2 directory := d.sameLog_withSnapshot renamed directory
  have hunwatched : after.2.watchedLine? directory = none :=
    hsame.watchedLine?.trans (Volume.watchedLine?_retired_log h)
  have hnames : after.2.retired directory requestLogName = after.2 :=
    hsame.retired_eq_self (vol.retired_retired directory requestLogName)
  have hsecond : (after.1.takeOver after.2 directory q).2 = after := by
    rw [takeOver_of_unwatched hunwatched, hnames]
    exact d.withSnapshot_withSnapshot renamed directory
  show (d.takeOver vol directory p).2.1.takeOvers (d.takeOver vol directory p).2.2 directory [q] =
    (d.takeOver vol directory p).2
  rw [hfirst]
  exact hsecond

/-- Such a run changes nothing just if the log keeps its name and the snapshot brings nothing. -/
theorem takeOver_eq_self_iff (h : vol.watchedLine? directory = none) (patience : Patience) :
    (d.takeOver vol directory patience).2 = (d, vol) ↔
      vol.retired directory requestLogName = vol ∧ d.withSnapshot vol directory = (d, vol) := by
  rw [takeOver_of_unwatched h]
  constructor
  · intro hself
    have hnames : vol.retired directory requestLogName = vol := by
      have hsame := d.sameLog_withSnapshot (vol.retired directory requestLogName) directory
      rw [hself] at hsame
      exact hsame.retired_eq_self (vol.retired_retired directory requestLogName)
    rw [hnames] at hself
    exact ⟨hnames, hself⟩
  · rintro ⟨hnames, hself⟩
    rw [hnames, hself]

/--
A run for a caller who is gone fails and changes nothing if a line of the log is watched; otherwise
it is the run for a caller who waits.  So it changes something just if no line is watched, and the
log or a snapshot that can be read gets its new name or the snapshot an earlier start time.  In
either case a run for a caller who waits comes to the same afterwards as it does alone.
-/
theorem takeOver_gone (d : DurableStore) (vol : Volume) (directory : Path) :
    (match vol.watchedLine? directory with
      | some bytes => d.takeOver vol directory .gone =
          (.error (if Importing.isTextLine bytes then .cancelled else .files), d, vol)
      | none => d.takeOver vol directory .gone = d.takeOver vol directory .waiting) ∧
    ((d.takeOver vol directory .gone).2 = (d, vol) ↔
      (vol.watchedLine? directory = none → vol.retired directory requestLogName = vol ∧
        ∀ p, vol.snapshot? directory = some p →
          storedBefore p.startTime d.tables.startTime = false ∧
            vol.retired directory snapshotName = vol)) ∧
    d.takeOvers vol directory [.gone, .waiting] = d.takeOvers vol directory [.waiting] := by
  cases hwatched : vol.watchedLine? directory with
  | some bytes =>
      have hrun := takeOver_of_watched (d := d) hwatched
      refine ⟨hrun, ?_, ?_⟩
      · simp [hrun]
      · simp only [takeOvers, hrun]
  | none =>
      have hrun := takeOver_patience (d := d) hwatched .gone .waiting
      refine ⟨hrun, ?_, ?_⟩
      · rw [takeOver_eq_self_iff hwatched, withSnapshot_eq_self_iff]
        exact ⟨fun h _ => h, fun h => h rfl⟩
      · rw [takeOver_twice hwatched .gone .waiting]
        simp only [takeOvers, hrun]

def earlySnapshot : List Char :=
  "\x7b\"startTime\":\"2020-09-13T11:26:40Z\"\x7d".toList

/-- A log of one blank line and a snapshot. -/
def unwatched : Volume :=
  { nodes := [([requestLogName], .file 0), ([snapshotName], .file 1)]
    contents := [(0, .bytes [0x20, 0x0A]), (1, .bytes (Text.Utf8.encode earlySnapshot))]
    nextId := 2 }

/-- For a caller who is gone the start time goes back and both files get their new names. -/
theorem takeOver_gone_unwatched :
    ((inMemory ⟨1700000000, 0⟩).takeOver unwatched [] .gone).1 =
        .ok ⟨0, 0, true, ["requests.ndjson.migrated", "stats.json.migrated"]⟩ ∧
      ((inMemory ⟨1700000000, 0⟩).takeOver unwatched [] .gone).2.1.tables.startTime =
        ⟨1600000000 - 3600, 0⟩ ∧
      ((inMemory ⟨1700000000, 0⟩).takeOver unwatched [] .gone).2.2.names [] =
        ["requests.ndjson.migrated", "stats.json.migrated"] := by
  decide +kernel

end DurableStore

end Tarpit.Traffic
