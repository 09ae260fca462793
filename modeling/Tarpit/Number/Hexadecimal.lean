/-!
# Hexadecimal numbers

Writing a number in lower case without leading zeros, and reading the digits of
either case back.
-/

namespace Tarpit.Number

def hexDigit? (c : Char) : Option Nat :=
  if '0' ≤ c ∧ c ≤ '9' then some (c.toNat - 0x30)
  else if 'a' ≤ c ∧ c ≤ 'f' then some (c.toNat - 0x61 + 10)
  else if 'A' ≤ c ∧ c ≤ 'F' then some (c.toNat - 0x41 + 10)
  else none

/-- The hexadecimal digits of a number, without leading zeros. -/
def hexDigits (n : Nat) : List Char :=
  Nat.toDigits 16 n

/-- The number that more digits spell behind the number read so far. -/
def hexFrom? (n : Nat) : List Char → Option Nat
  | [] => some n
  | c :: rest =>
      match hexDigit? c with
      | some d => hexFrom? (16 * n + d) rest
      | none => none

/-- The number that a text of hexadecimal digits and nothing else spells. -/
def hexadecimal? (s : List Char) : Option Nat :=
  if s.isEmpty then none else hexFrom? 0 s

theorem hexDigit?_lt {c : Char} {d : Nat} (h : hexDigit? c = some d) : d < 16 := by
  unfold hexDigit? at h
  have bound : ∀ a b : Char, a ≤ b → a.toNat ≤ b.toNat := fun _ _ hab => hab
  split at h
  · next hc =>
      have := bound _ _ hc.1
      have := bound _ _ hc.2
      simp only [Option.some.injEq] at h
      have : ('9' : Char).toNat = 57 := rfl
      omega
  · split at h
    · next hc =>
        have := bound _ _ hc.1
        have := bound _ _ hc.2
        simp only [Option.some.injEq] at h
        have : ('f' : Char).toNat = 102 := rfl
        omega
    · split at h
      · next hc =>
          have := bound _ _ hc.1
          have := bound _ _ hc.2
          simp only [Option.some.injEq] at h
          have : ('F' : Char).toNat = 70 := rfl
          omega
      · simp at h

theorem hexFrom?_append (n : Nat) (s t : List Char) :
    hexFrom? n (s ++ t) = (hexFrom? n s).bind fun m => hexFrom? m t := by
  induction s generalizing n with
  | nil => rfl
  | cons c rest ih =>
      simp only [List.cons_append, hexFrom?]
      cases hexDigit? c with
      | none => rfl
      | some d => exact ih (16 * n + d)

end Tarpit.Number
