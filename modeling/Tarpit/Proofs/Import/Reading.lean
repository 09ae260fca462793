import Tarpit.Proofs.Database.OnFile
import Tarpit.Traffic.Import

/-!
# Reading a log

What one reading of a request log records: the lines that it passes before it
stops, and the visits on them that the tables take.
-/

namespace Tarpit.Traffic

namespace Ledger

def recordedAll (visits : List Visit) (l : Ledger) : Ledger :=
  visits.foldl (fun l v => recorded v l) l

theorem recordedAll_append (xs ys : List Visit) (l : Ledger) :
    recordedAll (xs ++ ys) l = recordedAll ys (recordedAll xs l) :=
  List.foldl_append

theorem log_recordedAll (visits : List Visit) (l : Ledger) :
    (recordedAll visits l).log = l.log ++ visits.map clamped := by
  induction visits generalizing l with
  | nil => exact (List.append_nil _).symm
  | cons v rest ih =>
      show (recordedAll rest (recorded v l)).log = _
      rw [ih, recorded, List.map_cons, List.append_assoc, List.singleton_append]

theorem total_recordedAll (visits : List Visit) (l : Ledger) :
    (recordedAll visits l).total = l.total + visits.length := by
  induction visits generalizing l with
  | nil => rfl
  | cons v rest ih =>
      show (recordedAll rest (recorded v l)).total = _
      rw [ih, List.length_cons]
      show l.total + 1 + rest.length = _
      omega

end Ledger

/-- The visit as if its request came now. -/
def Visit.again (v : Visit) : Visit :=
  .of v.clientKey (some v.userAgent) v.path v.timestamp

namespace Importing

/-! ## One line -/

/-- The line is a text of nothing but blanks. -/
def isBlank (bytes : Bytes) : Bool :=
  (Text.Utf8.decode bytes).any fun chars => (Text.trim chars).isEmpty

def visitOn? (bytes : Bytes) : Option Visit :=
  if isBlank bytes then none else (Visit.decode? bytes).map Visit.again

def isTextLine (bytes : Bytes) : Bool :=
  (Text.Utf8.decode bytes).isSome

/-- The visit that a line adds to the tables. -/
def recordable? (bytes : Bytes) : Option Visit :=
  (visitOn? bytes).filter Ledger.accepts

/-- Why a reading stops at a line, if it does: the line is no text, or the caller is gone. -/
def stop? (patience : Patience) (bytes : Bytes) : Option Failure :=
  if (Text.Utf8.decode bytes).isNone then some .files
  else (visitOn? bytes).bind fun v => (Ledger.refusal? patience v).filter (· == .cancelled)

def recorded (i : Importing) (v : Visit) : Importing :=
  let (store, volume) := i.store.commit i.volume (Ledger.recorded v i.store.tables)
  ⟨store, volume, { i.report with imported := i.report.imported + 1 }⟩

/-- The state after a line at which the reading does not stop. -/
def passing (i : Importing) (bytes : Bytes) : Importing :=
  match recordable? bytes with
  | some v => i.recorded v
  | none => if isBlank bytes then i else i.skip

theorem replay_eq (i : Importing) (patience : Patience) (v : Visit) :
    i.replay patience v =
      match Ledger.refusal? patience v.again with
      | none => .ok (i.recorded v.again)
      | some .cancelled => .error .cancelled
      | some _ => .ok i.skip := by
  unfold replay
  rw [show Visit.of v.clientKey (some v.userAgent) v.path v.timestamp = v.again from rfl,
    DurableStore.record_eq]
  cases Ledger.refusal? patience v.again with
  | none => rfl
  | some e =>
      cases e with
      | cancelled => rfl
      | database => rfl
      | files => rfl
      | decoding => rfl

theorem passing_of_visit {bytes : Bytes} {v : Visit} (h : visitOn? bytes = some v)
    (i : Importing) : i.passing bytes = if Ledger.accepts v then i.recorded v else i.skip := by
  have hblank : isBlank bytes = false := by
    unfold visitOn? at h
    split at h
    · cases h
    · next hblank => exact Bool.eq_false_iff.2 hblank
  unfold passing recordable?
  rw [h, hblank, Option.filter_some]
  cases Ledger.accepts v with
  | true => rfl
  | false => rfl

theorem passing_of_none {bytes : Bytes} (h : visitOn? bytes = none) (i : Importing) :
    i.passing bytes = if isBlank bytes then i else i.skip := by
  unfold passing recordable?
  rw [h]
  rfl

/-- A line either stops the reading and changes nothing, or does to the state what it says. -/
theorem line_eq (i : Importing) (patience : Patience) (bytes : Bytes) :
    i.line patience bytes =
      match stop? patience bytes with
      | some e => .error e
      | none => .ok (i.passing bytes) := by
  unfold line stop?
  cases hdecoded : Text.Utf8.decode bytes with
  | none => rfl
  | some chars =>
      have hblank : isBlank bytes = (Text.trim chars).isEmpty := by
        rw [isBlank, hdecoded]
        rfl
      simp only [← hblank, Option.isNone_some, Bool.false_eq_true, if_false]
      by_cases hempty : isBlank bytes = true
      · have hnone : visitOn? bytes = none := if_pos hempty
        rw [if_pos hempty, hnone, passing_of_none hnone, if_pos hempty]
        rfl
      · rw [if_neg hempty]
        cases hvisit : Visit.decode? bytes with
        | none =>
            have hnone : visitOn? bytes = none := by
              rw [visitOn?, if_neg hempty, hvisit]
              rfl
            rw [hnone, passing_of_none hnone, if_neg hempty]
            rfl
        | some v =>
            have hsome : visitOn? bytes = some v.again := by
              rw [visitOn?, if_neg hempty, hvisit]
              rfl
            simp only [hsome, passing_of_visit hsome, Option.bind_some, replay_eq]
            rcases Ledger.refusal?_cases patience v.again with
              hgone | ⟨haccepts, hnone⟩ | ⟨hrefuses, hdatabase⟩
            · rw [hgone]
              rfl
            · rw [hnone, haccepts]
              rfl
            · rw [hdatabase, hrefuses]
              rfl

/-! ## One reading -/

def passed (patience : Patience) : List Bytes → List Bytes
  | [] => []
  | bytes :: rest =>
      if (stop? patience bytes).isSome then [] else bytes :: passed patience.next rest

/-- Why a reading stops before the end of the log, if it does. -/
def ending? (patience : Patience) : List Bytes → Option Failure
  | [] => none
  | bytes :: rest =>
      match stop? patience bytes with
      | some e => some e
      | none => ending? patience.next rest

/-- The visits that a reading adds to the tables. -/
def entries (patience : Patience) (ls : List Bytes) : List Visit :=
  (passed patience ls).filterMap recordable?

theorem passed_prefix (patience : Patience) (ls : List Bytes) : passed patience ls <+: ls := by
  induction ls generalizing patience with
  | nil => exact List.prefix_rfl
  | cons bytes rest ih =>
      unfold passed
      split
      · exact List.nil_prefix
      · exact (List.cons_prefix_cons).2 ⟨rfl, ih patience.next⟩

theorem lines_eq (i : Importing) (patience : Patience) (ls : List Bytes) :
    i.lines patience ls =
      (match ending? patience ls with
        | some e => .error e
        | none => .ok (),
      (passed patience ls).foldl passing i) := by
  induction ls generalizing i patience with
  | nil => rfl
  | cons bytes rest ih =>
      simp only [lines, line_eq, ending?, passed]
      cases hstop : stop? patience bytes with
      | some e => rfl
      | none => exact ih (i.passing bytes) patience.next

theorem stop?_waiting (bytes : Bytes) :
    stop? .waiting bytes = if isTextLine bytes then none else some .files := by
  unfold stop? isTextLine
  cases Text.Utf8.decode bytes with
  | none => rfl
  | some chars =>
      rw [Option.isNone_some, Option.isSome_some, if_neg Bool.false_ne_true, if_pos rfl]
      cases visitOn? bytes with
      | none => rfl
      | some v =>
          rw [Option.bind_some, Ledger.refusal?_waiting]
          cases Ledger.accepts v with
          | true => rfl
          | false => rfl

theorem passed_waiting (ls : List Bytes) : passed .waiting ls = ls.takeWhile isTextLine := by
  induction ls with
  | nil => rfl
  | cons bytes rest ih =>
      rw [passed, List.takeWhile_cons, stop?_waiting, Patience.next_waiting, ih]
      cases isTextLine bytes with
      | true => rfl
      | false => rfl

theorem ending?_waiting (ls : List Bytes) :
    ending? .waiting ls = if ls.all isTextLine then none else some .files := by
  induction ls with
  | nil => rfl
  | cons bytes rest ih =>
      rw [ending?, List.all_cons, stop?_waiting, Patience.next_waiting, ih]
      cases isTextLine bytes with
      | true => rfl
      | false => rfl

/-- What every recorded visit and every line left out keeps, a reading keeps. -/
theorem foldl_passing_induct {Keeps : Importing → Prop}
    (hrecorded : ∀ i v, Keeps i → Keeps (i.recorded v))
    (hskip : ∀ i : Importing, Keeps i → Keeps i.skip) {i : Importing} (h : Keeps i)
    (ls : List Bytes) : Keeps (ls.foldl passing i) := by
  induction ls generalizing i with
  | nil => exact h
  | cons bytes rest ih =>
      apply ih
      unfold passing
      split
      · exact hrecorded i _ h
      · split
        · exact h
        · exact hskip i h

theorem tables_recorded (i : Importing) (v : Visit) :
    (i.recorded v).store.tables = Ledger.recorded v i.store.tables :=
  DurableStore.tables_commit _ _ _

theorem tables_passing (i : Importing) (bytes : Bytes) :
    (i.passing bytes).store.tables =
      Ledger.recordedAll (recordable? bytes).toList i.store.tables := by
  unfold passing
  split
  · next v hv => exact (tables_recorded i v).trans (by rw [hv]; rfl)
  · next hnone =>
      rw [hnone]
      split
      · rfl
      · rfl

theorem tables_foldl_passing (i : Importing) (ls : List Bytes) :
    (ls.foldl passing i).store.tables =
      Ledger.recordedAll (ls.filterMap recordable?) i.store.tables := by
  induction ls generalizing i with
  | nil => rfl
  | cons bytes rest ih =>
      have hsplit : (bytes :: rest).filterMap recordable? =
          (recordable? bytes).toList ++ rest.filterMap recordable? := by
        rw [List.filterMap_cons]
        cases recordable? bytes with
        | none => rfl
        | some v => rfl
      rw [List.foldl_cons, ih, tables_passing, hsplit, Ledger.recordedAll_append]

end Importing

end Tarpit.Traffic
