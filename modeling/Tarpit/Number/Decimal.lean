/-!
# Decimal numbers

The decimal digits of a natural number, their reading, and the two readings with
a bound that configuration values, ports and counts use; and what a counter of
one word shows of a number.
-/

namespace Tarpit.Number

def isDigit (c : Char) : Bool :=
  '0' ≤ c && c ≤ '9'

/-- The decimal digits of a number, without leading zeros. -/
def digits (n : Nat) : List Char :=
  Nat.toDigits 10 n

def value (ds : List Char) : Nat :=
  Nat.ofDigitChars 10 ds 0

@[simp] theorem value_digits (n : Nat) : value (digits n) = n :=
  Nat.ofDigitChars_toDigits (by omega) (by omega)

theorem digits_ne_nil (n : Nat) : digits n ≠ [] :=
  List.ne_nil_of_length_pos Nat.length_toDigits_pos

/-- The digits of a number filled up with zeros from the left to a width. -/
def padded (width n : Nat) : List Char :=
  let ds := digits n
  List.replicate (width - ds.length) '0' ++ ds

/-- The number that a text of digits and nothing else spells. -/
def natural? (s : List Char) : Option Nat :=
  if s.isEmpty then none
  else if s.all isDigit then some (value s)
  else none

/-- The number that digits spell if it stays below a bound. -/
def naturalBelow? (bound : Nat) (s : List Char) : Option Nat :=
  (natural? s).filter (· < bound)

/-- A number below a bound, written with digits behind an optional plus sign. -/
def count? (bound : Nat) (s : List Char) : Option Nat :=
  match s with
  | '+' :: rest => naturalBelow? bound rest
  | _ => naturalBelow? bound s

theorem natural?_eq_some_iff {s : List Char} {n : Nat} :
    natural? s = some n ↔ s ≠ [] ∧ (∀ c ∈ s, isDigit c = true) ∧ n = value s := by
  unfold natural?
  cases s with
  | nil => simp
  | cons c rest =>
      by_cases h : (c :: rest).all isDigit = true
      · simp only [List.isEmpty_cons, Bool.false_eq_true, if_false, h, if_true,
          Option.some.injEq]
        have hall := List.all_eq_true.1 h
        constructor
        · intro hn
          exact ⟨by simp, hall, hn.symm⟩
        · intro hn
          exact hn.2.2.symm
      · simp only [List.isEmpty_cons, Bool.false_eq_true, if_false, h]
        constructor
        · intro hn
          exact absurd hn (by simp)
        · intro hn
          exact absurd (List.all_eq_true.2 hn.2.1) h

/-- The first number past the words of 64 bits. -/
def wordBound : Nat := 1 <<< 64

/-- What a counter of one word shows of a number: past the last word it goes on from zero. -/
def wrapped (n : Nat) : Nat :=
  n % wordBound

theorem wrapped_lt (n : Nat) : wrapped n < wordBound :=
  Nat.mod_lt n (by decide)

theorem wrapped_of_lt {n : Nat} (h : n < wordBound) : wrapped n = n :=
  Nat.mod_eq_of_lt h

/-- A counter that is moved on shows the whole number, however often it went on from zero. -/
@[simp] theorem wrapped_wrapped_add (m n : Nat) : wrapped (wrapped m + n) = wrapped (m + n) :=
  Nat.mod_add_mod m wordBound n

end Tarpit.Number
