import Tarpit.Proofs.Ledger.CountTable

/-!
# One transaction

What recording a visit does as a whole: which visits the tables take, what they
hold afterwards, and when the caller is found gone.
-/

namespace Tarpit.Traffic

@[simp] theorem ok_bind {α β : Type} (a : α) (next : α → Except Failure β) :
    (Except.ok a >>= next) = next a := rfl

@[simp] theorem error_bind {α β : Type} (e : Failure) (next : α → Except Failure β) :
    (Except.error e >>= next) = .error e := rfl

namespace Patience

/-- The caller is still there at each of the first looks. -/
def lasts (p : Patience) (looks : Nat) : Bool :=
  match p with
  | .leaving 0 last => decide (looks ≤ last)
  | _ => true

theorem lasts_of_le {p : Patience} {m n : Nat} (h : p.lasts n = true) (hle : m ≤ n) :
    p.lasts m = true := by
  cases p with
  | waiting => rfl
  | leaving step last =>
      cases step with
      | zero =>
          simp only [lasts, decide_eq_true_eq] at *
          omega
      | succ step => rfl

theorem check_eq (p : Patience) (look : Nat) :
    p.check look = if p.lasts (look + 1) then .ok () else .error .cancelled := by
  cases p with
  | waiting => rfl
  | leaving step last =>
      cases step with
      | zero => simp only [check, lasts, decide_eq_true_eq, Nat.lt_iff_add_one_le]
      | succ step => rfl

theorem check_bind {α : Type} (p : Patience) (look : Nat) (work : Except Failure α) :
    (p.check look >>= fun _ => work) =
      if p.lasts (look + 1) then work else .error .cancelled := by
  rw [check_eq]
  split
  · rfl
  · rfl

/-- Of two looks with nothing between them the second decides. -/
theorem check_check_bind {α : Type} (p : Patience) (look : Nat) (work : Except Failure α) :
    (p.check look >>= fun _ => p.check (look + 1) >>= fun _ => work) =
      if p.lasts (look + 2) then work else .error .cancelled := by
  rw [check_bind, check_bind]
  by_cases h : p.lasts (look + 2) = true
  · rw [if_pos h, if_pos (lasts_of_le h (by omega))]
  · rw [if_neg h]
    split
    · rfl
    · rfl

end Patience

namespace Ledger

/-- The number of looks for the caller in one transaction. -/
def looksPerRecord : Nat := 6

/-- The tables take the visit: its key and its user agent have a length for their columns. -/
def accepts (v : Visit) : Bool :=
  labelFits maxKeyLength (clamped v).clientKey && labelFits maxAgentLength (clamped v).userAgent

/-- The tables with the visit in them. -/
def recorded (v : Visit) (l : Ledger) : Ledger :=
  { l with
    total := l.total + 1
    log := l.log ++ [clamped v]
    keys := countLabel l.keys (clamped v).clientKey v.timestamp
    agents := countLabel l.agents (clamped v).userAgent v.timestamp }

/-- Why a visit is not recorded, if it is not: the first thing that goes wrong on the way. -/
def refusal? (patience : Patience) (v : Visit) : Option Failure :=
  if !patience.lasts 2 then some .cancelled
  else if !labelFits maxKeyLength (clamped v).clientKey then some .database
  else if !patience.lasts 4 then some .cancelled
  else if !labelFits maxAgentLength (clamped v).userAgent then some .database
  else if !patience.lasts looksPerRecord then some .cancelled
  else none

theorem labelFits_clamp (width : Nat) (s : String) :
    labelFits width (clamp width s) = decide (0 < storedLength (clamp width s)) := by
  simp [labelFits, storedLength_clamp_le]

theorem insertLog_clamped (v : Visit) (l : Ledger) :
    insertLog (clamped v) l =
      if labelFits maxKeyLength (clamped v).clientKey then
        .ok { l with log := l.log ++ [clamped v] }
      else .error .database := by
  have hagent : storedLength (clamped v).userAgent ≤ maxAgentLength := storedLength_clamp_le _ _
  have hpath : storedLength (clamped v).path ≤ maxPathLength := storedLength_clamp_le _ _
  simp [insertLog, hagent, hpath]

theorem countKey_of_fits {v : Visit} (h : labelFits maxKeyLength v.clientKey = true) (l : Ledger) :
    countKey v l = .ok { l with keys := countLabel l.keys v.clientKey v.timestamp } :=
  if_pos h

/-- Recording either names the refusal and changes nothing, or adds the visit to every table. -/
theorem record_eq (patience : Patience) (v : Visit) (l : Ledger) :
    record patience v l =
      match refusal? patience v with
      | some e => .error e
      | none => .ok (recorded v l) := by
  unfold record refusal?
  simp only [Patience.check_check_bind, insertLog_clamped]
  by_cases hstart : patience.lasts 2 = true
  · by_cases hkey : labelFits maxKeyLength (clamped v).clientKey = true
    · -- The key was checked already, so the next statement only counts it.
      simp only [hstart, hkey, if_true, ok_bind, countKey_of_fits, Patience.check_check_bind]
      by_cases hmiddle : patience.lasts 4 = true
      · by_cases hagent : labelFits maxAgentLength (clamped v).userAgent = true
        · simp only [hmiddle, hagent, if_true, countAgent, ok_bind, countRequest,
            Patience.check_check_bind]
          by_cases hend : patience.lasts 6 = true
          · simp [hend, looksPerRecord, recorded, clamped]
          · simp [hend, looksPerRecord]
        · simp [hmiddle, hagent, countAgent]
      · simp [hmiddle]
    · simp [hstart, hkey]
  · simp [hstart]

theorem refusal?_eq_none_iff {patience : Patience} {v : Visit} :
    refusal? patience v = none ↔
      patience.lasts looksPerRecord = true ∧ accepts v = true := by
  unfold refusal? accepts
  constructor
  · intro h
    repeat' split at h
    all_goals simp_all
  · rintro ⟨hlasts, haccepts⟩
    have h2 := Patience.lasts_of_le hlasts (show 2 ≤ looksPerRecord by decide)
    have h4 := Patience.lasts_of_le hlasts (show 4 ≤ looksPerRecord by decide)
    simp only [Bool.and_eq_true] at haccepts
    simp [hlasts, h2, h4, haccepts.1, haccepts.2]

/-- A visit that the tables take is refused only where the caller is found gone. -/
theorem refusal?_cases (patience : Patience) (v : Visit) :
    refusal? patience v = some .cancelled ∨
    (accepts v = true ∧ refusal? patience v = none) ∨
    (accepts v = false ∧ refusal? patience v = some .database) := by
  unfold refusal? accepts
  repeat' split
  all_goals simp_all

/-- A caller who waits is never found gone. -/
theorem refusal?_waiting (v : Visit) :
    refusal? .waiting v = if accepts v then none else some .database := by
  have hlasts : ∀ n, Patience.waiting.lasts n = true := fun _ => rfl
  unfold refusal? accepts
  simp only [hlasts, Bool.not_true, Bool.false_eq_true, if_false]
  cases labelFits maxKeyLength (clamped v).clientKey with
  | false => rfl
  | true =>
      cases labelFits maxAgentLength (clamped v).userAgent with
      | false => rfl
      | true => rfl

theorem record_eq_ok_iff {patience : Patience} {v : Visit} {l l' : Ledger} :
    record patience v l = .ok l' ↔
      (patience.lasts looksPerRecord = true ∧ accepts v = true) ∧ l' = recorded v l := by
  rw [record_eq, ← refusal?_eq_none_iff]
  cases refusal? patience v with
  | none => simp [eq_comm]
  | some e => simp

end Ledger

end Tarpit.Traffic
