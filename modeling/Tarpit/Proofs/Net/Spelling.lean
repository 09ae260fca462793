import Tarpit.Proofs.Net.ClientKey
import Tarpit.Proofs.Number.Spelling
import Tarpit.Proofs.Text.Utf8

/-!
# Spellings of addresses

The texts that an address is read from.  An address of version 4 has just one
spelling.  One of version 6 is spelt by eight groups in either case, with zeros
in front of them or not, where a double colon may stand for zero groups and the
last two groups may stand as an address of version 4.
-/

namespace Tarpit.Net

open Tarpit.Number (digits natural? naturalBelow? hexDigit? hexDigits hexadecimal? SpellsHex)

/-! ## Version 4 -/

theorem octet?_eq_some_iff {s : List Char} {b : UInt8} :
    octet? s = some b ↔ s = digits b.toNat := by
  constructor
  · intro h
    unfold octet? at h
    split at h
    · next hform =>
        obtain ⟨n, hn, rfl⟩ := Option.map_eq_some_iff.1 h
        obtain ⟨hnatural, hlt⟩ := Number.naturalBelow?_eq_some_iff.1 hn
        obtain ⟨hne, hdigits, rfl⟩ := Number.natural?_eq_some_iff.1 hnatural
        rw [Text.Utf8.toNat_toUInt8 hlt, Number.digits_value hne hdigits hform.2]
    · cases h
  · rintro rfl
    have hbyte : b.toNat < 256 := b.toNat_lt
    have hlength := length_digits_byte_le b
    have hlead : (digits b.toNat).length = 1 ∨ (digits b.toNat).head? ≠ some '0' := by
      rcases Nat.eq_zero_or_pos b.toNat with hzero | hpos
      · rw [hzero]
        exact .inl rfl
      · obtain ⟨k, rest, hk, -, hdigits⟩ := Number.digits_eq_cons hpos
        have hzero : Nat.digitChar k ≠ '0' := fun h => Nat.ne_of_gt hk (Nat.digitChar_eq_zero.1 h)
        exact .inr (by rw [hdigits]; simpa using hzero)
    rw [octet?, if_pos ⟨hlength, hlead⟩, Number.naturalBelow?_digits hbyte, Option.map_some]
    exact congrArg some UInt8.ofNat_toNat

theorem Quad.chars_eq (q : Quad) :
    q.chars = ['.'].intercalate [digits q.first.toNat, digits q.second.toNat,
      digits q.third.toNat, digits q.fourth.toNat] := by
  simp [Quad.chars, List.intercalate_cons_cons]

theorem not_mem_digits {c : Char} (hc : Number.isDigit c = false) (n : Nat) : c ∉ digits n := by
  intro h
  rw [Number.isDigit_of_mem_digits h] at hc
  cases hc

theorem Quad.of?_eq_some_iff {s : List Char} {q : Quad} : Quad.of? s = some q ↔ s = q.chars := by
  constructor
  · intro h
    unfold Quad.of? at h
    split at h
    · next a b c d hpieces =>
        cases h
        simp only [List.map_eq_cons_iff, List.map_eq_nil_iff, octet?_eq_some_iff] at hpieces
        obtain ⟨_, _, hsplit, rfl, _, _, rfl, rfl, _, _, rfl, rfl, _, _, rfl, rfl, rfl⟩ := hpieces
        rw [Quad.chars_eq, ← hsplit, List.intercalate_splitOn]
    · cases h
  · rintro rfl
    have hdot : ∀ n, '.' ∉ digits n := not_mem_digits (by decide)
    have hpieces : q.chars.splitOn '.' = [digits q.first.toNat, digits q.second.toNat,
        digits q.third.toNat, digits q.fourth.toNat] := by
      rw [Quad.chars_eq]
      exact List.splitOn_intercalate '.' (by simp [hdot]) (by simp)
    rw [Quad.of?, hpieces]
    simp [octet?_eq_some_iff.2 rfl]

/-! ## Groups -/

/-- One to four hexadecimal digits that spell the group. -/
def SpellsGroup (s : List Char) (g : UInt16) : Prop :=
  s.length ≤ 4 ∧ SpellsHex s g.toNat

theorem toNat_toUInt16 {n : Nat} (h : n < 65536) : n.toUInt16.toNat = n :=
  UInt16.toNat_ofNat_of_lt' h

theorem SpellsHex.lt_of_length {s : List Char} {n : Nat} (h : SpellsHex s n)
    (hlength : s.length ≤ 4) : n < 65536 := by
  obtain ⟨zeros, hs⟩ := h
  have hlower := congrArg List.length hs
  rw [List.length_map, List.length_append] at hlower
  exact (Nat.length_toDigits_le_iff (by decide) (by decide)).1
    (show (hexDigits n).length ≤ 4 by omega)

theorem group?_eq_some_iff {s : List Char} {g : UInt16} : group? s = some g ↔ SpellsGroup s g := by
  unfold group? SpellsGroup
  constructor
  · intro h
    split at h
    · next hlength =>
        obtain ⟨n, hn, rfl⟩ := Option.map_eq_some_iff.1 h
        have hspells := Number.hexadecimal?_eq_some_iff.1 hn
        rw [toNat_toUInt16 (SpellsHex.lt_of_length hspells hlength)]
        exact ⟨hlength, hspells⟩
    · cases h
  · rintro ⟨hlength, hspells⟩
    rw [if_pos hlength, Number.hexadecimal?_eq_some_iff.2 hspells, Option.map_some]
    exact congrArg some UInt16.ofNat_toNat

theorem SpellsGroup.not_mem {s : List Char} {g : UInt16} (h : SpellsGroup s g) {c : Char}
    (hc : hexDigit? c = none) : c ∉ s := by
  intro hmem
  have hdigit := h.2.hexDigit? hmem
  rw [hc] at hdigit
  cases hdigit

theorem spellsGroup_hexDigits (g : UInt16) : SpellsGroup (hexDigits g.toNat) g :=
  ⟨length_hexDigits_group_le g, Number.spellsHex_hexDigits _⟩

/-- Groups with colons between them.  Where `dotted` holds, the last two may be four bytes. -/
inductive SpellsGroups (dotted : Bool) : List Char → List UInt16 → Prop where
  | group {s : List Char} {g : UInt16} (h : SpellsGroup s g) : SpellsGroups dotted s [g]
  | quad (h : dotted = true) (q : Quad) : SpellsGroups dotted q.chars q.groups
  | cons {s rest : List Char} {g : UInt16} {gs : List UInt16} (h : SpellsGroup s g)
      (hrest : SpellsGroups dotted rest gs) : SpellsGroups dotted (s ++ ':' :: rest) (g :: gs)

/-- One side of a double colon, which may have no groups. -/
inductive SpellsSide (dotted : Bool) : List Char → List UInt16 → Prop where
  | empty : SpellsSide dotted [] []
  | groups {s : List Char} {gs : List UInt16} (h : SpellsGroups dotted s gs) :
      SpellsSide dotted s gs

/-- The spellings of an address of version 6. -/
inductive SpellsEight : List Char → Groups → Prop where
  | full {s : List Char} {g : Groups} (h : SpellsGroups true s g.toList) : SpellsEight s g
  | gap {l r : List Char} {ls rs : List UInt16} {g : Groups} (hleft : SpellsSide false l ls)
      (hright : SpellsSide true r rs) (hroom : ls.length + rs.length < 8)
      (hgroups : g.toList = ls ++ List.replicate (8 - ls.length - rs.length) 0 ++ rs) :
      SpellsEight (l ++ ':' :: ':' :: r) g

/-- The spellings of an address. -/
inductive Spells : List Char → Address → Prop where
  | v4 (q : Quad) : Spells q.chars (.v4 q)
  | v6 {s : List Char} {g : Groups} (h : SpellsEight s g) : Spells s (.v6 g)

theorem Quad.not_mem_chars {c : Char} (hdigit : Number.isDigit c = false) (hdot : c ≠ '.')
    (q : Quad) : c ∉ q.chars := by
  simp [Quad.chars, not_mem_digits hdigit, hdot]

theorem Quad.group?_chars (q : Quad) : group? q.chars = none := by
  rw [Option.eq_none_iff_forall_ne_some]
  intro g hg
  have hdot : '.' ∉ q.chars := (group?_eq_some_iff.1 hg).not_mem (by decide)
  exact hdot (by simp [Quad.chars])

/-! ## Reading groups -/

variable {dotted : Bool} {s : List Char} {gs : List UInt16}

theorem groupsOf?_cons {piece : List Char} {rest : List (List Char)} (hrest : rest ≠ []) :
    groupsOf? dotted (piece :: rest) =
      (group? piece).bind fun g => (groupsOf? dotted rest).map (g :: ·) := by
  rw [groupsOf?]
  · cases group? piece with
    | none => rfl
    | some g => rfl
  · exact hrest

theorem spellsGroups_of_groupsOf? {pieces : List (List Char)} (hne : pieces ≠ [])
    (h : groupsOf? dotted pieces = some gs) :
    SpellsGroups dotted ([':'].intercalate pieces) gs := by
  induction pieces generalizing gs with
  | nil => exact absurd rfl hne
  | cons piece rest ih =>
      by_cases hrest : rest = []
      · subst hrest
        rw [List.intercalate_singleton]
        unfold groupsOf? at h
        split at h
        · next g hg =>
            cases h
            exact .group (group?_eq_some_iff.1 hg)
        · split at h
          · next hdotted =>
              obtain ⟨q, hq, rfl⟩ := Option.map_eq_some_iff.1 h
              rw [Quad.of?_eq_some_iff.1 hq]
              exact .quad hdotted q
          · cases h
      · rw [groupsOf?_cons hrest, Option.bind_eq_some_iff] at h
        obtain ⟨g, hg, hmap⟩ := h
        obtain ⟨later, hlater, rfl⟩ := Option.map_eq_some_iff.1 hmap
        have hspells := ih hrest hlater
        obtain ⟨next, more, rfl⟩ := List.exists_cons_of_ne_nil hrest
        rw [List.intercalate_cons_cons, List.append_assoc]
        exact .cons (group?_eq_some_iff.1 hg) hspells

theorem SpellsGroups.groupsOf? (h : SpellsGroups dotted s gs) :
    groupsOf? dotted (s.splitOn ':') = some gs := by
  induction h with
  | group h =>
      rw [List.splitOn_eq_singleton (h.not_mem (by decide)), Net.groupsOf?,
        group?_eq_some_iff.2 h]
  | quad h q =>
      rw [List.splitOn_eq_singleton (q.not_mem_chars (by decide) (by decide)), Net.groupsOf?,
        q.group?_chars, h]
      simp [Quad.of?_eq_some_iff.2 rfl]
  | cons h _ ih =>
      rw [List.splitOn_append_cons_self_of_not_mem (h.not_mem (by decide)),
        groupsOf?_cons (List.splitOn_ne_nil _ _), group?_eq_some_iff.2 h, ih]
      rfl

theorem SpellsGroups.ne_nil (h : SpellsGroups dotted s gs) : s ≠ [] := by
  cases h with
  | group h => exact h.2.ne_nil
  | quad _ q => simp [Quad.chars]
  | cons h _ => simp

theorem groups?_eq_some_iff : groups? dotted s = some gs ↔ SpellsSide dotted s gs := by
  unfold groups?
  constructor
  · intro h
    split at h
    · next hempty =>
        cases h
        rw [List.isEmpty_iff.1 hempty]
        exact .empty
    · have hspells := spellsGroups_of_groupsOf? (List.splitOn_ne_nil _ _) h
      rw [List.intercalate_splitOn] at hspells
      exact .groups hspells
  · intro h
    cases h with
    | empty => rfl
    | groups h =>
        have hempty : s.isEmpty = false := by simpa using h.ne_nil
        rw [hempty, if_neg Bool.false_ne_true, h.groupsOf?]

/-! ## The double colon -/

theorem splitGapFrom_cons {c : Char} {rest : List Char} (h : c = ':' → rest.head? ≠ some ':')
    (seen : List Char) : splitGapFrom seen (c :: rest) = splitGapFrom (c :: seen) rest := by
  rw [splitGapFrom]
  rintro more rfl rfl
  exact h rfl rfl

theorem splitGapFrom_append {s : List Char} (hs : ':' ∉ s) (seen rest : List Char) :
    splitGapFrom seen (s ++ rest) = splitGapFrom (s.reverse ++ seen) rest := by
  induction s generalizing seen with
  | nil => rfl
  | cons c s ih =>
      rw [List.mem_cons, not_or] at hs
      rw [List.cons_append, splitGapFrom_cons fun hc => absurd hc.symm hs.1, ih hs.2,
        List.reverse_cons, List.append_assoc]
      rfl

theorem splitGapFrom_eq_some {seen s l r : List Char} (h : splitGapFrom seen s = some (l, r)) :
    seen.reverse ++ s = l ++ ':' :: ':' :: r := by
  induction s generalizing seen with
  | nil => cases h
  | cons c rest ih =>
      by_cases hgap : c = ':' ∧ rest.head? = some ':'
      · obtain ⟨rfl, hhead⟩ := hgap
        obtain ⟨more, rfl⟩ := List.head?_eq_some_iff.1 hhead
        rw [splitGapFrom] at h
        cases h
        rfl
      · rw [splitGapFrom_cons fun hc hhead => hgap ⟨hc, hhead⟩] at h
        have hrest := ih h
        rwa [List.reverse_cons, List.append_assoc] at hrest

theorem SpellsGroups.head?_ne (h : SpellsGroups dotted s gs) : s.head? ≠ some ':' := by
  have hplain : ∀ {s : List Char}, ':' ∉ s → s.head? ≠ some ':' :=
    fun hs hhead => hs (List.mem_of_mem_head? hhead)
  cases h with
  | group h => exact hplain (h.not_mem (by decide))
  | quad _ q => exact hplain (q.not_mem_chars (by decide) (by decide))
  | cons h _ =>
      rw [List.head?_append_of_ne_nil _ h.2.ne_nil]
      exact hplain (h.not_mem (by decide))

/-- No double colon begins inside of groups. -/
theorem SpellsGroups.splitGapFrom (h : SpellsGroups dotted s gs) (seen tail : List Char) :
    splitGapFrom seen (s ++ tail) = splitGapFrom (s.reverse ++ seen) tail := by
  induction h generalizing seen with
  | group h => exact splitGapFrom_append (h.not_mem (by decide)) seen tail
  | quad _ q => exact splitGapFrom_append (q.not_mem_chars (by decide) (by decide)) seen tail
  | @cons s rest g gs h hrest ih =>
      -- The colon is passed, for what stands behind it does not begin with another one.
      have hhead : (rest ++ tail).head? ≠ some ':' := by
        rw [List.head?_append_of_ne_nil _ hrest.ne_nil]
        exact hrest.head?_ne
      rw [List.append_assoc, List.cons_append, splitGapFrom_append (h.not_mem (by decide)),
        splitGapFrom_cons fun _ => hhead, ih, List.reverse_append, List.reverse_cons,
        List.append_assoc, List.append_assoc]
      rfl

theorem SpellsSide.splitGap? (h : SpellsSide dotted s gs) (r : List Char) :
    splitGap? (s ++ ':' :: ':' :: r) = some (s, r) := by
  have hfound : ∀ seen, splitGapFrom seen (':' :: ':' :: r) = some (seen.reverse, r) :=
    fun _ => by rw [splitGapFrom]
  cases h with
  | empty => exact hfound []
  | groups h =>
      rw [Net.splitGap?, h.splitGapFrom, hfound, List.append_nil, List.reverse_reverse]

theorem SpellsGroups.splitGap? (h : SpellsGroups dotted s gs) : splitGap? s = none := by
  have hall := h.splitGapFrom [] []
  rw [List.append_nil] at hall
  rw [Net.splitGap?, hall]
  rfl

/-! ## Reading addresses -/

theorem ofList?_eq_some_iff {g : Groups} : Groups.ofList? gs = some g ↔ gs = g.toList := by
  unfold Groups.ofList?
  constructor
  · intro h
    split at h
    · cases h
      rfl
    · cases h
  · rintro rfl
    rw [dif_pos g.length_toList]

theorem Groups.of?_eq_some_iff {g : Groups} : Groups.of? s = some g ↔ SpellsEight s g := by
  constructor
  · intro h
    unfold Groups.of? at h
    split at h
    · next hgap =>
        obtain ⟨gs, hgs, hlist⟩ := Option.bind_eq_some_iff.1 h
        obtain rfl := ofList?_eq_some_iff.1 hlist
        have hside := groups?_eq_some_iff.1 hgs
        generalize hgroups : g.toList = gs at hside
        cases hside with
        | empty =>
            have hlength := g.length_toList
            rw [hgroups] at hlength
            cases hlength
        | groups h => exact .full (hgroups ▸ h)
    · next l r hgap =>
        split at h
        · next ls rs hleft hright =>
            split at h
            · next hroom =>
                have hs : s = l ++ ':' :: ':' :: r := splitGapFrom_eq_some hgap
                rw [hs]
                exact .gap (groups?_eq_some_iff.1 hleft) (groups?_eq_some_iff.1 hright) hroom
                  (ofList?_eq_some_iff.1 h).symm
            · cases h
        · cases h
  · intro h
    cases h with
    | full h =>
        rw [Groups.of?, h.splitGap?]
        simp only [groups?_eq_some_iff.2 (.groups h), Option.bind_some]
        exact ofList?_eq_some_iff.2 rfl
    | gap hleft hright hroom hgroups =>
        rw [Groups.of?, hleft.splitGap?]
        simp only [groups?_eq_some_iff.2 hleft, groups?_eq_some_iff.2 hright, if_pos hroom]
        exact ofList?_eq_some_iff.2 hgroups.symm

theorem SpellsEight.colon_mem {g : Groups} (h : SpellsEight s g) : ':' ∈ s := by
  cases h with
  | gap => simp
  | full h =>
      have hlength := g.length_toList
      generalize g.toList = gs at h hlength
      cases h with
      | group => simp at hlength
      | quad => simp [Quad.groups] at hlength
      | cons => simp

theorem Address.of?_eq_some_iff {a : Address} : Address.of? s = some a ↔ Spells s a := by
  constructor
  · intro h
    unfold Address.of? at h
    split at h
    · next q hq =>
        cases h
        rw [Quad.of?_eq_some_iff.1 hq]
        exact .v4 q
    · obtain ⟨g, hg, rfl⟩ := Option.map_eq_some_iff.1 h
      exact .v6 (Groups.of?_eq_some_iff.1 hg)
  · intro h
    cases h with
    | v4 q => rw [Address.of?, Quad.of?_eq_some_iff.2 rfl]
    | @v6 _ g h =>
        have hnone : Quad.of? s = none := by
          rw [Option.eq_none_iff_forall_ne_some]
          intro q hq
          have hcolon := h.colon_mem
          rw [Quad.of?_eq_some_iff.1 hq] at hcolon
          exact q.not_mem_chars (by decide) (by decide) hcolon
        rw [Address.of?, hnone]
        simp only [Groups.of?_eq_some_iff.2 h, Option.map_some]

end Tarpit.Net
