import Mathlib.Data.List.Basic
import Mathlib.Data.List.Induction
import Tarpit.Number.Hexadecimal
import Tarpit.Proofs.Number.Padded

/-!
# Spellings of numbers

Which texts are read as a number: in decimal its digits, or with zeros in front
where they are allowed; in hexadecimal its digits in either case behind any
number of zeros.
-/

namespace Tarpit.Number

/-! ## Decimal -/

/-- The digits of a number other than zero do not begin with a zero. -/
theorem digits_eq_cons {n : Nat} (h : 0 < n) :
    ∃ k rest, 0 < k ∧ k < 10 ∧ digits n = Nat.digitChar k :: rest := by
  induction n using Nat.strongRecOn with
  | ind n ih =>
      by_cases hsmall : n < 10
      · exact ⟨n, [], h, hsmall, Nat.toDigits_of_lt_base hsmall⟩
      · obtain ⟨k, rest, hpos, hk, hdigits⟩ := ih (n / 10) (by omega) (by omega)
        refine ⟨k, rest ++ [Nat.digitChar (n % 10)], hpos, hk, ?_⟩
        unfold digits at *
        rw [Nat.toDigits_of_base_le (by decide) (by omega), hdigits, List.cons_append]

theorem naturalBelow?_eq_some_iff {bound n : Nat} {s : List Char} :
    naturalBelow? bound s = some n ↔ natural? s = some n ∧ n < bound := by
  rw [naturalBelow?, Option.filter_eq_some_iff, decide_eq_true_eq]

theorem naturalBelow?_digits {bound n : Nat} (h : n < bound) :
    naturalBelow? bound (digits n) = some n := by
  have hnatural : natural? (digits n) = some n :=
    natural?_eq_some_iff.2
      ⟨digits_ne_nil n, fun c hc => isDigit_of_mem_digits hc, (value_digits n).symm⟩
  simp [naturalBelow?, hnatural, h]

/-- The text is the number in digits behind an optional plus sign. -/
def SpellsCount (s : List Char) (n : Nat) : Prop :=
  ∃ sign ds, (sign = [] ∨ sign = ['+']) ∧ ds ≠ [] ∧ (∀ c ∈ ds, isDigit c = true) ∧
    s = sign ++ ds ∧ n = value ds

theorem spellsCount_plus_iff {rest : List Char} {n : Nat} :
    SpellsCount ('+' :: rest) n ↔ natural? rest = some n := by
  rw [natural?_eq_some_iff]
  constructor
  · rintro ⟨sign, ds, rfl | rfl, hne, hdigits, hs, rfl⟩
    · obtain rfl : '+' :: rest = ds := hs
      exact absurd (hdigits '+' List.mem_cons_self) (by decide)
    · obtain rfl := (List.cons.inj hs).2
      exact ⟨hne, hdigits, rfl⟩
  · rintro ⟨hne, hdigits, hn⟩
    exact ⟨['+'], rest, .inr rfl, hne, hdigits, rfl, hn⟩

theorem spellsCount_iff_of_ne {s : List Char} {n : Nat} (h : ∀ rest, s ≠ '+' :: rest) :
    SpellsCount s n ↔ natural? s = some n := by
  rw [natural?_eq_some_iff]
  constructor
  · rintro ⟨sign, ds, rfl | rfl, hne, hdigits, rfl, rfl⟩
    · exact ⟨hne, hdigits, rfl⟩
    · exact absurd rfl (h ds)
  · rintro ⟨hne, hdigits, hn⟩
    exact ⟨[], s, .inl rfl, hne, hdigits, rfl, hn⟩

theorem count?_eq_some_iff {bound n : Nat} {s : List Char} :
    count? bound s = some n ↔ SpellsCount s n ∧ n < bound := by
  unfold count?
  split
  · rw [naturalBelow?_eq_some_iff, spellsCount_plus_iff]
  · next hplus => rw [naturalBelow?_eq_some_iff, spellsCount_iff_of_ne hplus]

theorem value_append_singleton (ds : List Char) (c : Char) :
    value (ds ++ [c]) = 10 * value ds + (c.toNat - 48) := by
  unfold value
  rw [Nat.ofDigitChars_append]
  rfl

theorem digits_of_isDigit {c : Char} (h : isDigit c = true) : digits (c.toNat - 48) = [c] := by
  obtain ⟨hlow, hhigh⟩ := toNat_of_isDigit h
  rw [digits, Nat.toDigits_of_lt_base (by omega)]
  congr 1
  apply Char.toNat_inj.1
  rw [Nat.toNat_digitChar_of_lt_ten (by omega)]
  omega

/-- Digits are those of their number, unless they begin with a zero and go on. -/
theorem digits_value {s : List Char} (hne : s ≠ []) (hdigits : ∀ c ∈ s, isDigit c = true)
    (hlead : s.length = 1 ∨ s.head? ≠ some '0') : digits (value s) = s := by
  induction s using List.reverseRecOn with
  | nil => exact absurd rfl hne
  | append_singleton t c ih =>
      have hc := hdigits c (by simp)
      have hlow := toNat_of_isDigit hc
      by_cases ht : t = []
      · subst ht
        have hvalue : value ([] ++ [c]) = c.toNat - 48 := by
          rw [value_append_singleton]
          exact Nat.zero_add _
        rw [hvalue]
        exact digits_of_isDigit hc
      · have hhead : t.head? ≠ some '0' := by
          rcases hlead with hone | hhead
          · rw [List.length_append, List.length_singleton] at hone
            exact absurd (List.length_eq_zero_iff.1 (by omega)) ht
          · rwa [List.head?_append_of_ne_nil _ ht] at hhead
        have hrest := ih ht (fun d hd => hdigits d (List.mem_append_left _ hd)) (.inr hhead)
        have hpos : 0 < value t := by
          rcases Nat.eq_zero_or_pos (value t) with hzero | hpos
          · rw [hzero] at hrest
            exact absurd (congrArg List.head? hrest).symm hhead
          · exact hpos
        have hlast : digits (c.toNat - 48) = [c] := digits_of_isDigit hc
        rw [value_append_singleton, digits, ← Nat.toDigits_append_toDigits (by omega) hpos (by omega)]
        exact congrArg₂ List.append hrest hlast

/-! ## Hexadecimal -/

theorem hexDigit?_digitChar : ∀ d < 16, hexDigit? (Nat.digitChar d) = some d := by
  decide

theorem hexDigit?_toLower (c : Char) : hexDigit? c.toLower = hexDigit? c := by
  by_cases hupper : c.val ≥ 'A'.val ∧ c.val ≤ 'Z'.val
  · have hall : ∀ n < 91, 65 ≤ n →
        hexDigit? (Char.ofNat n).toLower = hexDigit? (Char.ofNat n) := by decide
    have hlow : 65 ≤ c.toNat := hupper.1
    have hhigh : c.toNat ≤ 90 := hupper.2
    have hletter := hall c.toNat (by omega) hlow
    rwa [Char.ofNat_toNat] at hletter
  · have hsame : c.toLower = c := dif_neg hupper
    rw [hsame]

theorem toNat_of_hexDigit? {c : Char} {d : Nat} (h : hexDigit? c = some d) :
    48 ≤ c.toNat ∧ c.toNat < 103 := by
  have bound : ∀ a b : Char, a ≤ b → a.toNat ≤ b.toNat := fun _ _ hab => hab
  unfold hexDigit? at h
  split at h
  · next hc => exact ⟨bound _ _ hc.1, Nat.lt_of_le_of_lt (bound _ _ hc.2) (by decide)⟩
  · split at h
    · next hc =>
        exact ⟨Nat.le_trans (by decide) (bound _ _ hc.1), Nat.lt_succ_of_le (bound _ _ hc.2)⟩
    · split at h
      · next hc =>
          exact ⟨Nat.le_trans (by decide) (bound _ _ hc.1),
            Nat.lt_of_le_of_lt (bound _ _ hc.2) (by decide)⟩
      · cases h

theorem toLower_of_hexDigit? {c : Char} {d : Nat} (h : hexDigit? c = some d) :
    c.toLower = Nat.digitChar d := by
  have hall : ∀ n < 103, ∀ d ∈ hexDigit? (Char.ofNat n),
      (Char.ofNat n).toLower = Nat.digitChar d := by decide
  have hdigit := hall c.toNat (toNat_of_hexDigit? h).2
  rw [Char.ofNat_toNat] at hdigit
  exact hdigit d h

theorem hexFrom?_toLower (n : Nat) (s : List Char) :
    hexFrom? n (s.map Char.toLower) = hexFrom? n s := by
  induction s generalizing n with
  | nil => rfl
  | cons c rest ih =>
      rw [List.map_cons, hexFrom?, hexFrom?, hexDigit?_toLower]
      cases hexDigit? c with
      | none => rfl
      | some d => exact ih (16 * n + d)

theorem hexFrom?_replicate_zero (k : Nat) : hexFrom? 0 (List.replicate k '0') = some 0 := by
  induction k with
  | zero => rfl
  | succ k ih => exact ih

theorem hexFrom?_hexDigits (n : Nat) : hexFrom? 0 (hexDigits n) = some n := by
  induction n using Nat.strongRecOn with
  | ind n ih =>
      unfold hexDigits
      by_cases hlt : n < 16
      · rw [Nat.toDigits_of_lt_base hlt, hexFrom?, hexDigit?_digitChar n hlt]
        exact congrArg some (Nat.zero_add n)
      · have hfront := ih (n / 16) (Nat.div_lt_self (by omega) (by omega))
        unfold hexDigits at hfront
        rw [Nat.toDigits_of_base_le (by omega) (by omega), hexFrom?_append, hfront,
          Option.bind_some, hexFrom?, hexDigit?_digitChar _ (Nat.mod_lt _ (by omega))]
        exact congrArg some (Nat.div_add_mod n 16)

/-- The text is the number in digits of either case, behind any number of zeros. -/
def SpellsHex (s : List Char) (n : Nat) : Prop :=
  ∃ zeros, s.map Char.toLower = List.replicate zeros '0' ++ hexDigits n

theorem SpellsHex.ne_nil {s : List Char} {n : Nat} (h : SpellsHex s n) : s ≠ [] := by
  obtain ⟨zeros, hs⟩ := h
  rintro rfl
  have hlength := congrArg List.length hs
  have hpos : 0 < (hexDigits n).length := Nat.length_toDigits_pos
  rw [List.map_nil, List.length_append, List.length_nil] at hlength
  omega

theorem spellsHex_of_hexFrom? {s : List Char} {n : Nat} (hne : s ≠ [])
    (h : hexFrom? 0 s = some n) : SpellsHex s n := by
  induction s using List.reverseRecOn generalizing n with
  | nil => exact absurd rfl hne
  | append_singleton t c ih =>
      rw [hexFrom?_append, Option.bind_eq_some_iff] at h
      obtain ⟨m, hm, hlast⟩ := h
      obtain ⟨d, hd, rfl⟩ : ∃ d, hexDigit? c = some d ∧ 16 * m + d = n := by
        rw [hexFrom?] at hlast
        split at hlast
        · next d hd => exact ⟨d, hd, Option.some.inj hlast⟩
        · cases hlast
      have hlt := hexDigit?_lt hd
      have hdigit : hexDigits d = [Nat.digitChar d] := Nat.toDigits_of_lt_base hlt
      have hlower : (t ++ [c]).map Char.toLower = t.map Char.toLower ++ hexDigits d := by
        rw [List.map_append, List.map_singleton, toLower_of_hexDigit? hd, hdigit]
      unfold SpellsHex
      rw [hlower]
      by_cases ht : t = []
      · subst ht
        obtain rfl : 0 = m := Option.some.inj hm
        exact ⟨0, by rw [Nat.mul_zero, Nat.zero_add]; rfl⟩
      · obtain ⟨zeros, hfront⟩ := ih ht hm
        rcases Nat.eq_zero_or_pos m with rfl | hpos
        · -- The zeros so far all stand in front of the digit.
          refine ⟨zeros + 1, ?_⟩
          rw [hfront, Nat.mul_zero, Nat.zero_add, List.replicate_succ']
          rfl
        · refine ⟨zeros, ?_⟩
          rw [hfront, List.append_assoc, hexDigits, hexDigits,
            Nat.toDigits_append_toDigits (by omega) hpos hlt]
          rfl

theorem hexadecimal?_eq_some_iff {s : List Char} {n : Nat} :
    hexadecimal? s = some n ↔ SpellsHex s n := by
  constructor
  · intro h
    have hne : s ≠ [] := by
      rintro rfl
      cases h
    have hempty : s.isEmpty = false := by simpa using hne
    rw [hexadecimal?, hempty] at h
    exact spellsHex_of_hexFrom? hne h
  · intro h
    have hempty : s.isEmpty = false := by simpa using h.ne_nil
    obtain ⟨zeros, hs⟩ := h
    rw [hexadecimal?, hempty, if_neg Bool.false_ne_true, ← hexFrom?_toLower, hs, hexFrom?_append,
      hexFrom?_replicate_zero, Option.bind_some, hexFrom?_hexDigits]

theorem digitChar_of_mem_hexDigits {n : Nat} {c : Char} (h : c ∈ hexDigits n) :
    ∃ d < 16, c = Nat.digitChar d := by
  induction n using Nat.strongRecOn with
  | ind n ih =>
      unfold hexDigits at h ih
      by_cases hlt : n < 16
      · rw [Nat.toDigits_of_lt_base hlt, List.mem_singleton] at h
        exact ⟨n, hlt, h⟩
      · rw [Nat.toDigits_of_base_le (by omega) (by omega), List.mem_append,
          List.mem_singleton] at h
        rcases h with h | h
        · exact ih (n / 16) (Nat.div_lt_self (by omega) (by omega)) h
        · exact ⟨n % 16, Nat.mod_lt _ (by omega), h⟩

theorem hexDigit?_of_mem_hexDigits {n : Nat} {c : Char} (h : c ∈ hexDigits n) :
    (hexDigit? c).isSome = true := by
  obtain ⟨d, hd, rfl⟩ := digitChar_of_mem_hexDigits h
  rw [hexDigit?_digitChar d hd]
  rfl

/-- A text of hexadecimal digits has nothing else in it. -/
theorem SpellsHex.hexDigit? {s : List Char} {n : Nat} (h : SpellsHex s n) {c : Char}
    (hc : c ∈ s) : (hexDigit? c).isSome = true := by
  obtain ⟨zeros, hs⟩ := h
  have hlower : c.toLower ∈ s.map Char.toLower := List.mem_map_of_mem hc
  rw [hs, List.mem_append] at hlower
  rw [← hexDigit?_toLower]
  rcases hlower with hzero | hdigit
  · rw [List.eq_of_mem_replicate hzero]
    rfl
  · exact hexDigit?_of_mem_hexDigits hdigit

theorem toLower_digitChar : ∀ d < 16, (Nat.digitChar d).toLower = Nat.digitChar d := by
  decide

theorem spellsHex_hexDigits (n : Nat) : SpellsHex (hexDigits n) n := by
  have hlower : ∀ c ∈ hexDigits n, c.toLower = c := by
    intro c hc
    obtain ⟨d, hd, rfl⟩ := digitChar_of_mem_hexDigits hc
    exact toLower_digitChar d hd
  refine ⟨0, ?_⟩
  rw [List.replicate_zero, List.nil_append]
  exact (List.map_congr_left hlower).trans (List.map_id _)

end Tarpit.Number
