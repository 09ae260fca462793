/-!
# Failures of a store

Why an operation on the statistics did not happen.
-/

namespace Tarpit.Traffic

/-- The causes. -/
inductive Failure where
  /-- The caller had given up before the operation began. -/
  | cancelled
  /-- The tables refused it. -/
  | database
  /-- A file could not be read or written. -/
  | files
  /-- A text could not be read. -/
  | decoding
  deriving DecidableEq, Repr

/--
Whether the caller still wants the answer.  One who gives up does so at a moment of the work, in
which the caller is looked for again and again: in which step, and how many looks of that step
still find the caller waiting.
-/
inductive Patience where
  | waiting
  | leaving (step look : Nat)
  deriving DecidableEq, Repr

namespace Patience

/-- The caller had given up before the work began. -/
abbrev gone : Patience :=
  .leaving 0 0

/-- One look for the caller in the present step; the looks of a step count from 0. -/
def check (p : Patience) (look : Nat) : Except Failure Unit :=
  match p with
  | .leaving 0 last => if look < last then .ok () else .error .cancelled
  | _ => .ok ()

/-- What is left of the patience in the next step. -/
def next : Patience → Patience
  | .waiting => .waiting
  | .leaving 0 _ => .gone
  | .leaving (step + 1) look => .leaving step look

/-- What is left of the patience after some steps. -/
def after (p : Patience) : Nat → Patience
  | 0 => p
  | steps + 1 => p.next.after steps

@[simp] theorem check_waiting (look : Nat) : waiting.check look = .ok () := rfl

@[simp] theorem next_waiting : waiting.next = waiting := rfl

end Patience

def Failure.cancelledMessage : String := "operation cancelled"

end Tarpit.Traffic
