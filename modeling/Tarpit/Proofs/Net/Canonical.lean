import Tarpit.Proofs.Net.Spelling

/-!
# Canonical spellings

The text that is written for an address is one of its spellings, so it is read
back as the address, and different addresses have different texts.
-/

namespace Tarpit.Net

open Tarpit.Number (digits hexDigit? hexDigits)

/-! ## Written groups -/

theorem spellsGroups_joined {dotted : Bool} {gs : List UInt16} (hne : gs ≠ []) :
    SpellsGroups dotted (joined gs) gs := by
  unfold joined
  induction gs with
  | nil => exact absurd rfl hne
  | cons g rest ih =>
      cases rest with
      | nil =>
          rw [List.map_singleton, List.intercalate_singleton]
          exact .group (spellsGroup_hexDigits g)
      | cons next rest =>
          have hrest := ih (List.cons_ne_nil _ _)
          rw [List.map_cons, List.map_cons, List.intercalate_cons_cons, List.append_assoc]
          exact .cons (spellsGroup_hexDigits g) hrest

theorem spellsSide_joined (dotted : Bool) (gs : List UInt16) :
    SpellsSide dotted (joined gs) gs := by
  by_cases hne : gs = []
  · subst hne
    exact .empty
  · exact .groups (spellsGroups_joined hne)

/-- The longest run of zeros is one. -/
theorem append_longestZeros (gs : List UInt16) :
    gs = gs.take (longestZeros gs).1 ++ List.replicate (longestZeros gs).2 0 ++
      gs.drop ((longestZeros gs).1 + (longestZeros gs).2) := by
  induction gs with
  | nil => rfl
  | cons g rest ih =>
      unfold longestZeros
      simp only
      split
      · have hzeros : (g :: rest).takeWhile (· == 0) =
            List.replicate ((g :: rest).takeWhile (· == 0)).length 0 := by
          rw [List.eq_replicate_iff]
          refine ⟨rfl, fun z hz => ?_⟩
          have hzero := List.all_eq_true.1 List.all_takeWhile z hz
          simpa using hzero
        rw [List.take_zero, List.nil_append, ← hzeros, Nat.zero_add]
        exact (List.prefix_iff_eq_append.1 (List.takeWhile_prefix _)).symm
      · rw [Nat.succ_add, List.take_succ_cons, List.drop_succ_cons, List.cons_append,
          List.cons_append, ← ih]

theorem Quad.groups_ofGroups (high low : UInt16) : (Quad.ofGroups high low).groups = [high, low] := by
  have hhigh : high.toNat < 65536 := high.toNat_lt
  have hlow : low.toNat < 65536 := low.toNat_lt
  have hdiv : ∀ n : Nat, n < 65536 → n / 256 < 256 := fun n hn => by omega
  have hmod : ∀ n : Nat, n % 256 < 256 := fun n => Nat.mod_lt _ (by decide)
  simp only [Quad.groups, Quad.ofGroups, Text.Utf8.toNat_toUInt8 (hdiv _ hhigh),
    Text.Utf8.toNat_toUInt8 (hmod _), Text.Utf8.toNat_toUInt8 (hdiv _ hlow), Nat.div_add_mod',
    List.cons.injEq, and_true]
  exact ⟨UInt16.ofNat_toNat, UInt16.ofNat_toNat⟩

theorem spellsEight_chars (g : Groups) : SpellsEight g.chars g := by
  have hlength := g.length_toList
  unfold Groups.chars
  split
  · next high low hmapped =>
      -- The groups before the bytes are five zeros and one of ones.
      have hright : SpellsGroups true ("ffff:".toList ++ (Quad.ofGroups high low).chars)
          (0xFFFF :: (Quad.ofGroups high low).groups) :=
        .cons (s := "ffff".toList) (spellsGroup_hexDigits 0xFFFF) (.quad rfl _)
      refine .gap .empty (.groups hright) (show 0 + 3 < 8 by decide) ?_
      rw [Quad.groups_ofGroups]
      exact hmapped
  · simp only
    split
    · next hrun =>
        have hle := longestZeros_le g.toList
        have hsplit := append_longestZeros g.toList
        refine .gap (spellsSide_joined _ _) (spellsSide_joined _ _) ?_ ?_
        · rw [List.length_take, List.length_drop]
          omega
        · have hzeros : 8 - (g.toList.take (longestZeros g.toList).1).length -
              (g.toList.drop ((longestZeros g.toList).1 + (longestZeros g.toList).2)).length =
              (longestZeros g.toList).2 := by
            rw [List.length_take, List.length_drop]
            omega
          rw [hzeros]
          exact hsplit
    · refine .full (spellsGroups_joined ?_)
      intro hnil
      rw [hnil] at hlength
      cases hlength

theorem spells_chars (a : Address) : Spells a.chars a := by
  cases a with
  | v4 q => exact .v4 q
  | v6 g => exact .v6 (spellsEight_chars g)

theorem Address.text_injective {a b : Address} (h : a.text = b.text) : a = b := by
  have hchars : a.chars = b.chars := String.ofList_injective h
  have ha := Address.of?_eq_some_iff.2 (spells_chars a)
  rw [hchars, Address.of?_eq_some_iff.2 (spells_chars b)] at ha
  exact (Option.some.inj ha).symm

/-! ## Characters of spellings -/

/-- A character that may stand in an address: from the full stop to the letter f. -/
def IsSpelling (c : Char) : Prop :=
  46 ≤ c.toNat ∧ c.toNat < 103

theorem isSpelling_of_hexDigit? {c : Char} (h : (hexDigit? c).isSome = true) : IsSpelling c := by
  obtain ⟨d, hd⟩ := Option.isSome_iff_exists.1 h
  have hrange := Number.toNat_of_hexDigit? hd
  unfold IsSpelling
  omega

theorem SpellsGroup.isSpelling {s : List Char} {g : UInt16} (h : SpellsGroup s g) :
    ∀ c ∈ s, IsSpelling c :=
  fun _ hc => isSpelling_of_hexDigit? (h.2.hexDigit? hc)

theorem Quad.isSpelling_chars (q : Quad) : ∀ c ∈ q.chars, IsSpelling c := by
  have hdigits : ∀ n, ∀ c ∈ digits n, IsSpelling c := by
    intro n c hc
    have hrange := Number.toNat_of_isDigit (Number.isDigit_of_mem_digits hc)
    unfold IsSpelling
    omega
  have hdot : IsSpelling '.' := ⟨by decide, by decide⟩
  intro c hc
  simp only [Quad.chars, List.mem_append, List.mem_cons] at hc
  rcases hc with ((hc | rfl | hc) | rfl | hc) | rfl | hc
  all_goals first
    | exact hdot
    | exact hdigits _ c hc

theorem isSpelling_append {s t : List Char} (hs : ∀ c ∈ s, IsSpelling c)
    (ht : ∀ c ∈ t, IsSpelling c) : ∀ c ∈ s ++ ':' :: t, IsSpelling c := by
  intro c hc
  rw [List.mem_append, List.mem_cons] at hc
  rcases hc with hc | rfl | hc
  · exact hs c hc
  · exact ⟨by decide, by decide⟩
  · exact ht c hc

theorem SpellsGroups.isSpelling {dotted : Bool} {s : List Char} {gs : List UInt16}
    (h : SpellsGroups dotted s gs) : ∀ c ∈ s, IsSpelling c := by
  induction h with
  | group h => exact h.isSpelling
  | quad _ q => exact q.isSpelling_chars
  | cons h _ ih => exact isSpelling_append h.isSpelling ih

theorem SpellsSide.isSpelling {dotted : Bool} {s : List Char} {gs : List UInt16}
    (h : SpellsSide dotted s gs) : ∀ c ∈ s, IsSpelling c := by
  cases h with
  | empty => exact fun c hc => absurd hc List.not_mem_nil
  | groups h => exact h.isSpelling

theorem Spells.isSpelling {s : List Char} {a : Address} (h : Spells s a) :
    ∀ c ∈ s, IsSpelling c := by
  cases h with
  | v4 q => exact q.isSpelling_chars
  | v6 h =>
      cases h with
      | full h => exact h.isSpelling
      | gap hleft hright =>
          exact isSpelling_append hleft.isSpelling
            (isSpelling_append (s := []) (fun c hc => absurd hc List.not_mem_nil) hright.isSpelling)

theorem Spells.two_le_length {s : List Char} {a : Address} (h : Spells s a) : 2 ≤ s.length := by
  cases h with
  | v4 q =>
      simp only [Quad.chars, List.length_append, List.length_cons]
      omega
  | @v6 _ g h =>
      cases h with
      | gap =>
          simp only [List.length_append, List.length_cons]
          omega
      | full h =>
          have hlength := g.length_toList
          generalize g.toList = gs at h hlength
          cases h with
          | group => simp at hlength
          | quad => simp [Quad.groups] at hlength
          | cons h _ =>
              have hfirst := List.length_pos_of_ne_nil h.2.ne_nil
              simp only [List.length_append, List.length_cons]
              omega

end Tarpit.Net
