import Mathlib.Algebra.GroupWithZero.Nat
import Tarpit.Proofs.Number.Padded

/-!
# The order of digits

Texts that begin with digits stand in the order of the numbers that the digits
spell: of whole numbers where the width is fixed, of fractions behind a point.
-/

namespace Tarpit.Number

theorem value_cons (c : Char) (cs : List Char) :
    value (c :: cs) = 10 ^ cs.length * (c.toNat - 48) + value cs := by
  unfold value
  rw [Nat.ofDigitChars_cons, Nat.ofDigitChars_eq_ofDigitChars_zero, Nat.mul_zero, Nat.zero_add]
  rfl

theorem value_lt {cs : List Char} (h : ∀ c ∈ cs, isDigit c = true) : value cs < 10 ^ cs.length := by
  induction cs with
  | nil => exact Nat.one_pos
  | cons c rest ih =>
      have hdigit := toNat_of_isDigit (h c List.mem_cons_self)
      have hrest := ih fun d hd => h d (List.mem_cons_of_mem c hd)
      have hhead : 10 ^ rest.length * (c.toNat - 48) ≤ 10 ^ rest.length * 9 :=
        Nat.mul_le_mul_left _ (by omega)
      rw [value_cons, List.length_cons, Nat.pow_succ]
      omega

/-- The number of digits that were filled up with zeros from the right to some places. -/
def scaled (places : Nat) (ds : List Char) : Nat :=
  value ds * 10 ^ (places - ds.length)

theorem scaled_cons {places : Nat} {ds : List Char} (h : ds.length ≤ places) (d : Char) :
    scaled (places + 1) (d :: ds) = 10 ^ places * (d.toNat - 48) + scaled places ds := by
  have hpow : 10 ^ ds.length * 10 ^ (places - ds.length) = 10 ^ places := by
    rw [← Nat.pow_add, Nat.add_sub_cancel' h]
  unfold scaled
  rw [value_cons, List.length_cons, Nat.add_sub_add_right, Nat.add_mul, Nat.mul_right_comm, hpow]

theorem scaled_lt {places : Nat} {ds : List Char} (hds : ∀ c ∈ ds, isDigit c = true)
    (h : ds.length ≤ places) : scaled places ds < 10 ^ places := by
  have hpow : 10 ^ ds.length * 10 ^ (places - ds.length) = 10 ^ places := by
    rw [← Nat.pow_add, Nat.add_sub_cancel' h]
  rw [scaled, ← hpow]
  exact Nat.mul_lt_mul_of_pos_right (value_lt hds) (Nat.pow_pos (by decide))

/--
Digits of the smaller number come first.  Where they are fewer than those of the larger one, what
follows them has to come before every digit.
-/
theorem append_lt_append_of_scaled_lt (places : Nat) {xs ys r s : List Char}
    (hxs : ∀ c ∈ xs, isDigit c = true) (hys : ∀ c ∈ ys, isDigit c = true)
    (hxlength : xs.length ≤ places) (hylength : ys.length ≤ places)
    (hend : xs.length < ys.length → ∃ c rest, r = c :: rest ∧ c.toNat < 48)
    (hlt : scaled places xs < scaled places ys) : xs ++ r < ys ++ s := by
  induction xs generalizing ys places with
  | nil =>
      cases ys with
      | nil => exact absurd hlt (Nat.lt_irrefl _)
      | cons y ys =>
          obtain ⟨c, rest, rfl, hc⟩ := hend (Nat.succ_pos _)
          have hy := toNat_of_isDigit (hys y List.mem_cons_self)
          exact List.cons_lt_cons_iff.2 (.inl (Nat.lt_of_lt_of_le hc hy.1))
  | cons x xs ih =>
      cases ys with
      | nil =>
          have hzero : scaled places [] = 0 := Nat.zero_mul _
          rw [hzero] at hlt
          exact absurd hlt (Nat.not_lt_zero _)
      | cons y ys =>
          obtain ⟨places, rfl⟩ := Nat.exists_eq_succ_of_ne_zero
            (Nat.ne_of_gt (Nat.lt_of_lt_of_le (Nat.succ_pos _) hxlength))
          have hy := toNat_of_isDigit (hys y List.mem_cons_self)
          have hxs' : ∀ c ∈ xs, isDigit c = true := fun c hc => hxs c (List.mem_cons_of_mem x hc)
          have hys' : ∀ c ∈ ys, isDigit c = true := fun c hc => hys c (List.mem_cons_of_mem y hc)
          have hxlength' := Nat.le_of_succ_le_succ hxlength
          have hylength' := Nat.le_of_succ_le_succ hylength
          have hbound := scaled_lt hys' hylength'
          rw [Nat.succ_eq_add_one, scaled_cons hxlength', scaled_cons hylength'] at hlt
          rw [List.cons_append, List.cons_append, List.cons_lt_cons_iff]
          -- The first digits decide; where they are the same, the rest does with one place less.
          rcases Nat.lt_trichotomy x.toNat y.toNat with hless | hequal | hmore
          · exact .inl hless
          · rw [hequal] at hlt
            exact .inr ⟨Char.toNat_inj.1 hequal, ih places hxs' hys' hxlength' hylength'
              (fun h => hend (Nat.succ_lt_succ h)) (Nat.lt_of_add_lt_add_left hlt)⟩
          · -- A larger first digit weighs more than all the digits behind the smaller one.
            have hstep : 10 ^ places * (y.toNat - 48 + 1) ≤ 10 ^ places * (x.toNat - 48) :=
              Nat.mul_le_mul_left _ (by omega)
            rw [Nat.mul_add] at hstep
            omega

theorem scaled_padded {places width n : Nat} (hwidth : 0 < width) (h : n < Nat.pow 10 width) :
    scaled places (padded width n) = n * 10 ^ (places - width) := by
  rw [scaled, value_padded, length_padded hwidth h]

/-- Texts of fields compare by the first field, and where it is the same by what follows. -/
theorem padded_append_lt {width m n : Nat} {r s : List Char} (hwidth : 0 < width)
    (hm : m < Nat.pow 10 width) (hn : n < Nat.pow 10 width) (h : m < n ∨ m = n ∧ r < s) :
    padded width m ++ r < padded width n ++ s := by
  rcases h with hlt | ⟨rfl, hrest⟩
  · have hmlength := length_padded hwidth hm
    have hnlength := length_padded hwidth hn
    apply append_lt_append_of_scaled_lt width (fun _ => isDigit_of_mem_padded)
      (fun _ => isDigit_of_mem_padded) (Nat.le_of_eq hmlength) (Nat.le_of_eq hnlength)
    · intro hshort
      omega
    · rw [scaled_padded hwidth hm, scaled_padded hwidth hn, Nat.sub_self]
      omega
  · exact List.append_left_lt hrest

end Tarpit.Number
