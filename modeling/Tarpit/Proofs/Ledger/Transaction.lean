import Tarpit.Proofs.Ledger.Record

/-!
# Transactions

The statements of a record, one by one on a copy of the tables that replaces them
only when all went through: how far a transaction comes, and what it has changed
in the copy where it stops.
-/

namespace Tarpit.Traffic

namespace Ledger

inductive Statement where
  | insertLog
  | countKey
  | countAgent
  | countRequest
  deriving DecidableEq, Repr

def Statement.run (row : Visit) : Statement → Ledger → Except Failure Ledger
  | .insertLog => Ledger.insertLog row
  | .countKey => Ledger.countKey row
  | .countAgent => Ledger.countAgent row
  | .countRequest => Ledger.countRequest

/-- The statements of a record in their order. -/
def statements : List Statement :=
  [.insertLog, .countKey, .countAgent, .countRequest]

/-- A transaction at its end: what it executed, the copy after that, and why it stopped if it did. -/
structure Transaction where
  executed : List Statement
  copy : Ledger
  stop? : Option Failure
  deriving DecidableEq, Repr

/-- Executes statements after others, with a look for the caller behind each of them. -/
def execute (patience : Patience) (row : Visit) (executed : List Statement) (copy : Ledger) :
    List Statement → Transaction
  | [] => ⟨executed, copy, none⟩
  | s :: rest =>
      match s.run row copy with
      | .error e => ⟨executed, copy, some e⟩
      | .ok copy =>
          match patience.check (executed.length + 2) with
          | .error e => ⟨executed ++ [s], copy, some e⟩
          | .ok () => execute patience row (executed ++ [s]) copy rest

/-- The transaction of a visit, before which the caller is looked for twice. -/
def transact (patience : Patience) (v : Visit) (l : Ledger) : Transaction :=
  match patience.check 0, patience.check 1 with
  | .ok (), .ok () => execute patience (clamped v) [] l statements
  | .error e, _ | _, .error e => ⟨[], l, some e⟩

/-- The tables that a transaction puts in place of those from before, unless it stopped. -/
def Transaction.commit (t : Transaction) : Except Failure Ledger :=
  match t.stop? with
  | none => .ok t.copy
  | some e => .error e

/-! ## Records as transactions -/

theorem commit_execute_cons (patience : Patience) (row : Visit) (executed : List Statement)
    (copy : Ledger) (s : Statement) (rest : List Statement) :
    (execute patience row executed copy (s :: rest)).commit = (do
      let copy ← s.run row copy
      patience.check (executed.length + 2)
      (execute patience row (executed ++ [s]) copy rest).commit) := by
  rw [execute]
  cases s.run row copy with
  | error e => rfl
  | ok next =>
      simp only [ok_bind]
      cases patience.check (executed.length + 2) with
      | error e => rfl
      | ok u => rfl

theorem record_eq_commit (patience : Patience) (v : Visit) (l : Ledger) :
    record patience v l = (transact patience v l).commit := by
  unfold record transact
  cases patience.check 0 with
  | error e => rfl
  | ok u =>
      cases patience.check 1 with
      | error e => rfl
      | ok u =>
          simp only [ok_bind, statements, commit_execute_cons]
          rfl

/-- What the executed statements did is in the copy, and they are the first ones of the record. -/
theorem execute_spec (patience : Patience) (row : Visit) (executed : List Statement)
    (copy : Ledger) (ss : List Statement) :
    ∃ more, (execute patience row executed copy ss).executed = executed ++ more ∧ more <+: ss ∧
      more.foldlM (fun l s => s.run row l) copy =
        .ok (execute patience row executed copy ss).copy := by
  induction ss generalizing executed copy with
  | nil => exact ⟨[], (List.append_nil _).symm, List.prefix_rfl, rfl⟩
  | cons s rest ih =>
      rw [execute]
      cases hrun : s.run row copy with
      | error e => exact ⟨[], (List.append_nil _).symm, List.nil_prefix, rfl⟩
      | ok next =>
          simp only
          cases patience.check (executed.length + 2) with
          | error e =>
              refine ⟨[s], rfl, List.cons_prefix_cons.2 ⟨rfl, List.nil_prefix⟩, ?_⟩
              rw [List.foldlM_cons, hrun, ok_bind]
              rfl
          | ok u =>
              obtain ⟨more, hexecuted, hbegins, hcopy⟩ := ih (executed ++ [s]) next
              refine ⟨s :: more, ?_, List.cons_prefix_cons.2 ⟨rfl, hbegins⟩, ?_⟩
              · rw [hexecuted, List.append_assoc, List.singleton_append]
              · rw [List.foldlM_cons, hrun, ok_bind, hcopy]

theorem transact_spec (patience : Patience) (v : Visit) (l : Ledger) :
    (transact patience v l).executed <+: statements ∧
      (transact patience v l).executed.foldlM (fun l s => s.run (clamped v) l) l =
        .ok (transact patience v l).copy := by
  unfold transact
  split
  · obtain ⟨more, hexecuted, hbegins, hcopy⟩ :=
      execute_spec patience (clamped v) [] l statements
    rw [List.nil_append] at hexecuted
    rw [hexecuted]
    exact ⟨hbegins, hcopy⟩
  · exact ⟨List.nil_prefix, rfl⟩
  · exact ⟨List.nil_prefix, rfl⟩

/--
Where a transaction of a caller who waits ends: before the first statement, before the third one
with the log and the key counted already, or behind the last one.
-/
theorem transact_waiting (v : Visit) (l : Ledger) :
    transact .waiting v l =
      if !labelFits maxKeyLength (clamped v).clientKey then ⟨[], l, some .database⟩
      else if !labelFits maxAgentLength (clamped v).userAgent then
        ⟨[.insertLog, .countKey],
          { l with
            log := l.log ++ [clamped v]
            keys := countLabel l.keys (clamped v).clientKey v.timestamp }, some .database⟩
      else ⟨statements, recorded v l, none⟩ := by
  unfold transact
  simp only [Patience.check_waiting, statements, execute, Statement.run, insertLog_clamped]
  by_cases hkey : labelFits maxKeyLength (clamped v).clientKey = true
  · simp only [hkey, if_true, countKey_of_fits, countAgent, Bool.not_true, Bool.false_eq_true,
      if_false]
    by_cases hagent : labelFits maxAgentLength (clamped v).userAgent = true
    · simp only [hagent, if_true, countRequest, Bool.not_true, Bool.false_eq_true, if_false]
      rfl
    · simp only [hagent, Bool.not_false, if_true, Bool.false_eq_true, if_false]
      rfl
  · simp only [hkey, Bool.not_false, if_true, Bool.false_eq_true, if_false]

end Ledger

end Tarpit.Traffic
