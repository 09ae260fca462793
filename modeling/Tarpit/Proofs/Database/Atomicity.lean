import Tarpit.Proofs.Database.Balance
import Tarpit.Proofs.Ledger.Transaction

/-!
# Records in one piece

A record on an open database is in all of its tables or in none of them, wherever
its transaction stops, and nothing that is asked later tells a refused record from
one that was never tried.
-/

namespace Tarpit.Traffic

namespace Ledger

theorem stop?_waiting_eq_none_iff (v : Visit) (l : Ledger) :
    (transact .waiting v l).stop? = none ↔
      0 < storedLength (clamp maxKeyLength v.clientKey) ∧
        0 < storedLength (clamp maxAgentLength v.userAgent) := by
  have hkey := labelFits_clamp maxKeyLength v.clientKey
  have hagent := labelFits_clamp maxAgentLength v.userAgent
  rw [transact_waiting]
  simp only [clamped, hkey, hagent]
  by_cases hkeypos : 0 < storedLength (clamp maxKeyLength v.clientKey)
  · by_cases hagentpos : 0 < storedLength (clamp maxAgentLength v.userAgent)
    · simp [hkeypos, hagentpos]
    · simp [hkeypos, hagentpos]
  · simp [hkeypos]

/-- A user agent that is refused after its key was not leaves a row and a count in the copy. -/
theorem transact_of_refused_agent {v : Visit}
    (hkey : 0 < storedLength (clamp maxKeyLength v.clientKey))
    (hagent : ¬ 0 < storedLength (clamp maxAgentLength v.userAgent)) (l : Ledger) :
    transact .waiting v l =
      ⟨[.insertLog, .countKey],
        { l with
          log := l.log ++ [clamped v]
          keys := countLabel l.keys (clamped v).clientKey v.timestamp }, some .database⟩ := by
  have hkeyfits := labelFits_clamp maxKeyLength v.clientKey
  have hagentfits := labelFits_clamp maxAgentLength v.userAgent
  rw [transact_waiting]
  simp [clamped, hkeyfits, hagentfits, hkey, hagent]

/-- A transaction that does not stop has executed every statement. -/
theorem transact_of_stop?_eq_none {patience : Patience} {v : Visit} {l : Ledger}
    (h : (transact patience v l).stop? = none) : (transact patience v l).copy = recorded v l := by
  have hrecord : record patience v l = .ok (transact patience v l).copy := by
    rw [record_eq_commit, Transaction.commit, h]
  exact (record_eq_ok_iff.1 hrecord).2

end Ledger

namespace Database

variable {db : Database} {d : DurableStore} {patience : Patience} {v : Visit}

theorem perform_record_of_stop (hopen : db.store? = some d) {e : Failure}
    (h : (Ledger.transact patience v d.tables).stop? = some e) :
    db.perform (.record patience v) = (.recorded (.error e), db) := by
  have hrecord : Ledger.record patience v d.tables = .error e := by
    rw [Ledger.record_eq_commit, Ledger.Transaction.commit, h]
  simp only [perform, hopen, ask, DurableStore.record, hrecord, error_bind]

theorem perform_record_of_end (hopen : db.store? = some d)
    (h : (Ledger.transact patience v d.tables).stop? = none) :
    db.perform (.record patience v) =
      (.recorded (.ok ()),
        db.holding (d.commit db.volume (Ledger.transact patience v d.tables).copy)) := by
  have hrecord : Ledger.record patience v d.tables =
      .ok (Ledger.transact patience v d.tables).copy := by
    rw [Ledger.record_eq_commit, Ledger.Transaction.commit, h]
  simp only [perform, hopen, ask, DurableStore.record, hrecord, ok_bind]

/-- What came of a record on the store that was open, by the transaction behind it. -/
structure WholeOrNothing (db : Database) (d : DurableStore) (patience : Patience) (v : Visit)
    (t : Ledger.Transaction) : Prop where
  /-- The transaction executed its first statements, and all that they did is in its copy. -/
  executed : t.executed <+: Ledger.statements
  copy : t.executed.foldlM (fun l s => s.run (Ledger.clamped v) l) d.tables = .ok t.copy
  /-- At the end of the transaction the tables are its copy, with the visit in each of them. -/
  whole : t.stop? = none → (db.perform (.record patience v)).1 = .recorded (.ok ()) ∧
    (db.perform (.record patience v)).2.store?.map DurableStore.tables = some t.copy ∧
    t.copy = Ledger.recorded v d.tables
  /-- Where it stopped before, the database is the one from before, and so is every later run. -/
  nothing : ∀ e, t.stop? = some e → (db.perform (.record patience v)).1 = .recorded (.error e) ∧
    (db.perform (.record patience v)).2 = db ∧
    ∀ ops, (db.perform (.record patience v)).2.run ops = db.run ops

theorem wholeOrNothing (hopen : db.store? = some d) (patience : Patience) (v : Visit) :
    WholeOrNothing db d patience v (Ledger.transact patience v d.tables) := by
  obtain ⟨hexecuted, hcopy⟩ := Ledger.transact_spec patience v d.tables
  refine ⟨hexecuted, hcopy, ?_, ?_⟩
  · intro hend
    rw [perform_record_of_end hopen hend]
    refine ⟨rfl, ?_, Ledger.transact_of_stop?_eq_none hend⟩
    exact congrArg some (DurableStore.tables_commit d db.volume _)
  · intro e hstop
    rw [perform_record_of_stop hopen hstop]
    exact ⟨rfl, rfl, fun ops => rfl⟩

/--
On every open database a visit is recorded for a caller who waits just if its key and its user
agent, cut to their columns, do not begin with NUL and are not empty.  A record is in the tables as
a whole or not at all, at whichever statement or look for the caller it was given up.
-/
theorem record_whole_or_nothing (hopen : db.store? = some d) (v : Visit) :
    ((db.perform (.record .waiting v)).1 = .recorded (.ok ()) ↔
      0 < storedLength (clamp maxKeyLength v.clientKey) ∧
        0 < storedLength (clamp maxAgentLength v.userAgent)) ∧
    (db.perform (.record .gone v)).1 = .recorded (.error .cancelled) ∧
    (0 < storedLength (clamp maxKeyLength v.clientKey) →
      ¬ 0 < storedLength (clamp maxAgentLength v.userAgent) →
      (Ledger.transact .waiting v d.tables).executed = [.insertLog, .countKey]) ∧
    ∀ patience, WholeOrNothing db d patience v (Ledger.transact patience v d.tables) := by
  have hended := wholeOrNothing hopen
  refine ⟨?_, ?_, ?_, fun patience => hended patience v⟩
  · rw [← Ledger.stop?_waiting_eq_none_iff v d.tables]
    constructor
    · intro hok
      cases hstop : (Ledger.transact .waiting v d.tables).stop? with
      | none => rfl
      | some e =>
          rw [((hended .waiting v).nothing e hstop).1] at hok
          cases hok
    · exact fun hend => ((hended .waiting v).whole hend).1
  · exact ((hended .gone v).nothing .cancelled rfl).1
  · intro hkey hagent
    rw [Ledger.transact_of_refused_agent hkey hagent]

/-- A visit whose user agent begins with NUL, and one with a NUL further on in a key that is cut. -/
def nulAgentVisit : Visit :=
  ⟨"10.0.0.2", "\x00bot", "/", ⟨4, 0⟩⟩

def nulInKeyVisit : Visit :=
  ⟨String.ofList (List.replicate 50 'k' ++ ['\x00']), "agent", "/\x00", ⟨-5, 2000000000⟩⟩

/-- A database that was closed and opened again takes the one and forgets the other. -/
theorem record_nul_whole_or_nothing :
    ∃ d, (inRoot.run mixedRun).2.store? = some d ∧
      ((inRoot.run mixedRun).2.perform (.record .waiting nulInKeyVisit)).1 = .recorded (.ok ()) ∧
      (Ledger.transact .waiting nulAgentVisit d.tables).executed = [.insertLog, .countKey] ∧
      ((inRoot.run mixedRun).2.perform (.record .waiting nulAgentVisit)).2 =
        (inRoot.run mixedRun).2 := by
  obtain ⟨d, hopen⟩ : ∃ d, (inRoot.run mixedRun).2.store? = some d :=
    Option.isSome_iff_exists.1 (by decide +kernel)
  have hkey : 0 < storedLength (clamp maxKeyLength nulAgentVisit.clientKey) := by decide
  have hagent : ¬ 0 < storedLength (clamp maxAgentLength nulAgentVisit.userAgent) := by decide
  obtain ⟨haccepted, -, -, -⟩ := record_whole_or_nothing hopen nulInKeyVisit
  obtain ⟨-, -, hexecuted, hended⟩ := record_whole_or_nothing hopen nulAgentVisit
  have hstop := congrArg Ledger.Transaction.stop?
    (Ledger.transact_of_refused_agent hkey hagent d.tables)
  exact ⟨d, hopen, haccepted.2 (by decide), hexecuted hkey hagent,
    ((hended .waiting).nothing .database hstop).2.1⟩

end Database

end Tarpit.Traffic
