import Tarpit.Text.Utf8

/-!
# URL-safe text for bytes

Six bits a character, in the alphabet that needs no escape in an address, and
nothing to fill up the end.
-/

namespace Tarpit.Admin.Base64Url

/-- The characters for the numbers from 0 to 63. -/
def alphabet : List Char :=
  "ABCDEFGHIJKLMNOPQRSTUVWXYZabcdefghijklmnopqrstuvwxyz0123456789-_".toList

def sextet (n : Nat) : Char :=
  (alphabet[n % 64]?).getD 'A'

def encode : Bytes → List Char
  | [] => []
  | [a] => [sextet (a.toNat / 4), sextet (a.toNat * 16)]
  | [a, b] =>
      let n := a.toNat * 256 + b.toNat
      [sextet (n / 1024), sextet (n / 16), sextet (n * 4)]
  | a :: b :: c :: rest =>
      let n := a.toNat * 65536 + b.toNat * 256 + c.toNat
      sextet (n / 262144) :: sextet (n / 4096) :: sextet (n / 64) :: sextet n :: encode rest

theorem encode_ne_nil {data : Bytes} (h : data ≠ []) : encode data ≠ [] := by
  unfold encode
  split
  · exact absurd rfl h
  · exact List.cons_ne_nil _ _
  · exact List.cons_ne_nil _ _
  · exact List.cons_ne_nil _ _

def isUrlSafe (c : Char) : Bool :=
  c.isAlphanum || c == '-' || c == '_'

theorem isUrlSafe_of_mem_alphabet : ∀ c ∈ alphabet, isUrlSafe c = true := by
  have hall : alphabet.all isUrlSafe = true := by decide +kernel
  exact List.all_eq_true.1 hall

theorem isUrlSafe_sextet (n : Nat) : isUrlSafe (sextet n) = true := by
  unfold sextet
  cases h : alphabet[n % 64]? with
  | none => rfl
  | some c => exact isUrlSafe_of_mem_alphabet c (List.mem_of_getElem? h)

theorem isUrlSafe_of_mem_encode {data : Bytes} {c : Char} (h : c ∈ encode data) :
    isUrlSafe c = true := by
  fun_induction encode data with
  | case1 => simp at h
  | case2 a =>
      simp only [List.mem_cons, List.not_mem_nil, or_false] at h
      rcases h with h | h <;> subst h <;> exact isUrlSafe_sextet _
  | case3 a b n =>
      simp only [List.mem_cons, List.not_mem_nil, or_false] at h
      rcases h with h | h | h <;> subst h <;> exact isUrlSafe_sextet _
  | case4 a b c' rest n ih =>
      simp only [List.mem_cons] at h
      rcases h with h | h | h | h | h
      · subst h; exact isUrlSafe_sextet _
      · subst h; exact isUrlSafe_sextet _
      · subst h; exact isUrlSafe_sextet _
      · subst h; exact isUrlSafe_sextet _
      · exact ih h

end Tarpit.Admin.Base64Url
