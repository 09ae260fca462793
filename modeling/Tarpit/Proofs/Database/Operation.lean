import Tarpit.Proofs.Database.OnFile
import Tarpit.Traffic.Store

/-!
# Operations on one database

A database file with at most one store open on it, and everything that can be
asked of it.  A run keeps each operation with its reply.
-/

namespace Tarpit.Traffic

open Tarpit.Time (Timestamp)

/-- A database file, and the store that is open on it. -/
structure Database where
  path : Path
  volume : Volume
  store? : Option DurableStore

inductive Operation where
  | record (patience : Patience) (v : Visit)
  | adoptStart (time : Timestamp)
  | summary (patience : Patience)
  | recent (patience : Patience) (n : Nat)
  | topKeys (patience : Patience) (n : Nat)
  | topAgents (patience : Patience) (n : Nat)
  | keySeen (key : String)
  | close
  | reopen (now : Timestamp)

inductive Reply where
  | notOpen
  | recorded (outcome : Except Failure Unit)
  | adopted (changed : Bool)
  | totals (answer : Except Failure Summary)
  | visits (answer : Except Failure (List Visit))
  | ranking (answer : Except Failure (List Ranked))
  | seen (span? : Option (Timestamp × Timestamp))
  | closed
  | opened (outcome : Except Failure Unit)

namespace Database

def shut (db : Database) : Database :=
  { db with
    volume := (db.store?.map fun d => d.close db.volume).getD db.volume
    store? := none }

def holding (db : Database) (opened : DurableStore × Volume) : Database :=
  { db with volume := opened.2, store? := some opened.1 }

def ask (db : Database) (d : DurableStore) : Operation → Reply × Database
  | .record patience v =>
      match d.record db.volume patience v with
      | .ok recorded => (.recorded (.ok ()), db.holding recorded)
      | .error e => (.recorded (.error e), db)
  | .adoptStart time =>
      (.adopted (d.adoptStart db.volume time).1, db.holding (d.adoptStart db.volume time).2)
  | .summary patience => (.totals ((Store.durable d).summary patience), db)
  | .recent patience n => (.visits ((Store.durable d).recent patience n), db)
  | .topKeys patience n => (.ranking ((Store.durable d).topKeys patience n), db)
  | .topAgents patience n => (.ranking ((Store.durable d).topAgents patience n), db)
  | .keySeen key => (.seen (d.tables.keySeen? key), db)
  | .close | .reopen _ => (.notOpen, db)

def perform (db : Database) (op : Operation) : Reply × Database :=
  match op, db.store? with
  | .close, _ => (.closed, db.shut)
  | .reopen now, _ =>
      match DurableStore.openFile db.shut.volume db.path now with
      | .ok opened => (.opened (.ok ()), db.holding opened)
      | .error e => (.opened (.error e), db.shut)
  | op, some d => db.ask d op
  | _, none => (.notOpen, db)

/-- Several operations, each with its reply, and the database after them. -/
def run (db : Database) : List Operation → List (Operation × Reply) × Database
  | [] => ([], db)
  | op :: rest =>
      let (reply, db) := db.perform op
      let (trace, db) := db.run rest
      ((op, reply) :: trace, db)

def recordedBy? : Operation × Reply → Option Visit
  | (.record _ v, .recorded (.ok ())) => some v
  | _ => none

/-- The visits whose recording was answered with success, in order. -/
def recordedIn (trace : List (Operation × Reply)) : List Visit :=
  trace.filterMap recordedBy?

def offeredBy? : Operation × Reply → Option Timestamp
  | (.adoptStart time, .adopted _) => some time
  | _ => none

/-- The start times that were offered to an open store, in order. -/
def offeredIn (trace : List (Operation × Reply)) : List Timestamp :=
  trace.filterMap offeredBy?

/-- What an operation made of the tables, by its reply. -/
def settled (l : Ledger) : Operation × Reply → Ledger
  | (.record _ v, .recorded (.ok ())) => Ledger.recorded v l
  | (.adoptStart time, .adopted _) => (l.adoptStart time).2
  | _ => l

def tables? (db : Database) : Option Ledger :=
  match db.volume.content? db.path with
  | some (.ledger tables) => some tables
  | _ => none

/-- Nothing is open, and nothing stands at the path yet, though something may. -/
structure Fresh (db : Database) : Prop where
  closed : db.store? = none
  sound : db.volume.Sound
  absent : db.volume.node? db.path = none
  parent : db.volume.hasParent db.path = true

theorem ask_record_of_refusal {patience : Patience} {v : Visit} {e : Failure}
    (h : Ledger.refusal? patience v = some e) (db : Database) (d : DurableStore) :
    db.ask d (.record patience v) = (.recorded (.error e), db) := by
  simp only [ask, DurableStore.record_eq, h]

theorem ask_record_of_none {patience : Patience} {v : Visit}
    (h : Ledger.refusal? patience v = none) (db : Database) (d : DurableStore) :
    db.ask d (.record patience v) =
      (.recorded (.ok ()), db.holding (d.commit db.volume (Ledger.recorded v d.tables))) := by
  simp only [ask, DurableStore.record_eq, h]

theorem run_cons (db : Database) (op : Operation) (rest : List Operation) :
    db.run (op :: rest) =
      ((op, (db.perform op).1) :: ((db.perform op).2.run rest).1, ((db.perform op).2.run rest).2) :=
  rfl

/-! ## Replies -/

theorem recordedIn_cons (entry : Operation × Reply) (trace : List (Operation × Reply)) :
    recordedIn (entry :: trace) = (recordedBy? entry).toList ++ recordedIn trace := by
  rw [recordedIn, List.filterMap_cons]
  cases recordedBy? entry with
  | none => rfl
  | some v => rfl

theorem offeredIn_cons (entry : Operation × Reply) (trace : List (Operation × Reply)) :
    offeredIn (entry :: trace) = (offeredBy? entry).toList ++ offeredIn trace := by
  rw [offeredIn, List.filterMap_cons]
  cases offeredBy? entry with
  | none => rfl
  | some t => rfl

/-- By its reply an operation recorded a visit, offered a start time, or left the tables alone. -/
theorem settled_cases (l : Ledger) (entry : Operation × Reply) :
    (∃ v, recordedBy? entry = some v ∧ offeredBy? entry = none ∧
      settled l entry = Ledger.recorded v l) ∨
    (∃ time, recordedBy? entry = none ∧ offeredBy? entry = some time ∧
      settled l entry = (l.adoptStart time).2) ∨
    (recordedBy? entry = none ∧ offeredBy? entry = none ∧ settled l entry = l) := by
  unfold settled
  split
  · exact .inl ⟨_, rfl, rfl, rfl⟩
  · exact .inr (.inl ⟨_, rfl, rfl, rfl⟩)
  · next hrecord hadopt =>
      refine .inr (.inr ⟨?_, ?_, rfl⟩)
      · unfold recordedBy?
        split
        · exact absurd rfl (hrecord _ _)
        · rfl
      · unfold offeredBy?
        split
        · exact absurd rfl (hadopt _ _)
        · rfl

@[simp] theorem recordedBy?_notOpen (op : Operation) : recordedBy? (op, .notOpen) = none := by
  cases op <;> rfl

@[simp] theorem settled_notOpen (l : Ledger) (op : Operation) : settled l (op, .notOpen) = l := by
  cases op <;> rfl

/-! ## What an operation does -/

/-- An operation closes the store, opens the file, finds nothing open, or is asked of the store. -/
theorem perform_cases (db : Database) (op : Operation) :
    op = .close ∨ (∃ now, op = .reopen now) ∨
      (db.store? = none ∧ db.perform op = (.notOpen, db)) ∨
      ∃ d, db.store? = some d ∧ db.perform op = db.ask d op := by
  cases op with
  | close => exact .inl rfl
  | reopen now => exact .inr (.inl ⟨now, rfl⟩)
  | _ =>
      cases hstore : db.store? with
      | none =>
          refine .inr (.inr (.inl ⟨rfl, ?_⟩))
          simp only [perform, hstore]
      | some d =>
          refine .inr (.inr (.inr ⟨d, rfl, ?_⟩))
          simp only [perform, hstore]

theorem holding_of_open {db : Database} {d : DurableStore} (h : db.store? = some d) :
    db.holding (d, db.volume) = db := by
  rw [holding, ← h]

/-- A store that is asked leaves all as it is, or commits the tables that its reply tells of. -/
theorem ask_cases {db : Database} {d : DurableStore} (h : db.store? = some d) (op : Operation) :
    ((db.ask d op).2 = db ∧ settled d.tables (op, (db.ask d op).1) = d.tables) ∨
      (db.ask d op).2 =
        db.holding (d.commit db.volume (settled d.tables (op, (db.ask d op).1))) := by
  cases op with
  | record patience v =>
      cases hrefusal : Ledger.refusal? patience v with
      | some e =>
          rw [ask_record_of_refusal hrefusal]
          exact .inl ⟨rfl, rfl⟩
      | none =>
          rw [ask_record_of_none hrefusal]
          exact .inr rfl
  | adoptStart time =>
      rcases d.adoptStart_cases db.volume time with ⟨hlater, hadopt⟩ | ⟨-, hadopt⟩
      · refine .inl ⟨?_, ?_⟩
        · rw [ask, hadopt]
          exact holding_of_open h
        · show (d.tables.adoptStart time).2 = d.tables
          rw [Ledger.adoptStart, hlater]
          rfl
      · rw [ask, hadopt]
        exact .inr rfl
  | _ => exact .inl ⟨rfl, rfl⟩

/-- A store that is asked stays open. -/
theorem store?_ask {db : Database} {d : DurableStore} (h : db.store? = some d) (op : Operation) :
    ∃ d', (db.ask d op).2.store? = some d' ∧
      d'.tables = settled d.tables (op, (db.ask d op).1) := by
  rcases ask_cases h op with ⟨hdb, hsettled⟩ | hdb
  · rw [hdb, hsettled]
    exact ⟨d, h, rfl⟩
  · rw [hdb]
    exact ⟨_, rfl, DurableStore.tables_commit d db.volume _⟩

end Database

end Tarpit.Traffic
