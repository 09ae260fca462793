import Tarpit.Proofs.Text.Utf8

/-!
# Reading nothing else

Bytes that are read as a text are the bytes of that text: of each character only
one form is read, the one that is written.
-/

namespace Tarpit.Text.Utf8

theorem scalar?_eq_some {least n : Nat} {c : Char} (h : scalar? least n = some c) :
    least ≤ n ∧ c.toNat = n := by
  unfold scalar? at h
  by_cases hn : least ≤ n ∧ n.isValidChar
  · rw [dif_pos hn] at h
    obtain rfl := Option.some.inj h
    exact ⟨hn.1, rfl⟩
  · rw [dif_neg hn] at h
    cases h

theorem continuation?_eq_some {b : UInt8} {n : Nat} (h : continuation? b = some n) :
    n < 64 ∧ b = (0x80 + n).toUInt8 := by
  unfold continuation? at h
  split at h
  · next hb =>
    obtain rfl := Option.some.inj h
    have hlow : 128 ≤ b.toNat := UInt8.le_iff_toNat_le.1 hb.1
    have hhigh : b.toNat < 192 := UInt8.lt_iff_toNat_lt.1 hb.2
    refine ⟨by omega, UInt8.toNat_inj.1 ?_⟩
    rw [toNat_toUInt8 (by omega)]
    omega
  · cases h

theorem eq_toUInt8 {b : UInt8} {n : Nat} (h : b.toNat = n) : b = n.toUInt8 := by
  rw [← h]
  exact UInt8.ofNat_toNat.symm

/-! ## One character by the number of its bytes -/

theorem encodeChar_two {c : Char} {x y : Nat} (hx : x < 32) (hy : y < 64) (hleast : 0x80 ≤ c.toNat)
    (hc : c.toNat = x * 64 + y) : encodeChar c = [(0xC0 + x).toUInt8, (0x80 + y).toUInt8] := by
  have hdiv : c.toNat / 64 = x := by omega
  have hmod : c.toNat % 64 = y := by omega
  simp only [encodeChar, if_neg (Nat.not_lt.2 hleast), if_pos (show c.toNat < 0x800 by omega),
    hdiv, hmod]

theorem encodeChar_three {c : Char} {x y z : Nat} (hx : x < 16) (hy : y < 64) (hz : z < 64)
    (hleast : 0x800 ≤ c.toNat) (hc : c.toNat = (x * 64 + y) * 64 + z) :
    encodeChar c = [(0xE0 + x).toUInt8, (0x80 + y).toUInt8, (0x80 + z).toUInt8] := by
  have hfirst : c.toNat / 4096 = x := by omega
  have hsecond : c.toNat / 64 % 64 = y := by omega
  have hthird : c.toNat % 64 = z := by omega
  simp only [encodeChar, if_neg (show ¬ c.toNat < 0x80 by omega), if_neg (Nat.not_lt.2 hleast),
    if_pos (show c.toNat < 0x10000 by omega), hfirst, hsecond, hthird]

theorem encodeChar_four {c : Char} {w x y z : Nat} (hx : x < 64) (hy : y < 64) (hz : z < 64)
    (hleast : 0x10000 ≤ c.toNat) (hc : c.toNat = ((w * 64 + x) * 64 + y) * 64 + z) :
    encodeChar c =
      [(0xF0 + w).toUInt8, (0x80 + x).toUInt8, (0x80 + y).toUInt8, (0x80 + z).toUInt8] := by
  have hfirst : c.toNat / 262144 = w := by omega
  have hsecond : c.toNat / 4096 % 64 = x := by omega
  have hthird : c.toNat / 64 % 64 = y := by omega
  have hfourth : c.toNat % 64 = z := by omega
  simp only [encodeChar, if_neg (show ¬ c.toNat < 0x80 by omega),
    if_neg (show ¬ c.toNat < 0x800 by omega), if_neg (Nat.not_lt.2 hleast), hfirst, hsecond,
    hthird, hfourth]

/-- The bytes begin with those of a character, and the reading goes on behind them. -/
def BeginsRead (done : List Char) (s : Bytes) (cs : List Char) : Prop :=
  ∃ c later, s = encodeChar c ++ later ∧ decodeFrom (c :: done) later = some cs

variable {done cs : List Char} {a : UInt8} {rest : Bytes}

theorem beginsRead_one (hascii : a < 0x80) (h : decodeFrom done (a :: rest) = some cs) :
    BeginsRead done (a :: rest) cs := by
  rw [decodeFrom.eq_def] at h
  simp only [if_pos hascii] at h
  split at h
  · next c hc =>
    obtain ⟨-, hnat⟩ := scalar?_eq_some hc
    have hlow : c.toNat < 0x80 := by
      rw [hnat]
      exact UInt8.lt_iff_toNat_lt.1 hascii
    refine ⟨c, rest, ?_, h⟩
    rw [encodeChar_of_ascii hlow, ← eq_toUInt8 hnat.symm]
    rfl
  · cases h

theorem beginsRead_two (hlow : ¬ a < 0xC0) (hhigh : a < 0xE0)
    (h : decodeFrom done (a :: rest) = some cs) : BeginsRead done (a :: rest) cs := by
  have hleast : 192 ≤ a.toNat := UInt8.le_iff_toNat_le.1 (UInt8.not_lt.1 hlow)
  have hmost : a.toNat < 224 := UInt8.lt_iff_toNat_lt.1 hhigh
  have hnot : ¬ a < 0x80 := fun hlt => hlow (UInt8.lt_trans hlt (by decide))
  have ha : a = (0xC0 + (a.toNat - 0xC0)).toUInt8 := eq_toUInt8 (by omega)
  rw [decodeFrom.eq_def] at h
  simp only [if_neg hnot, if_neg hlow, if_pos hhigh] at h
  split at h
  · next b later =>
    split at h
    · next y hb =>
      obtain ⟨hy, rfl⟩ := continuation?_eq_some hb
      split at h
      · next c hc =>
        obtain ⟨hmin, hnat⟩ := scalar?_eq_some hc
        refine ⟨c, later, ?_, h⟩
        rw [encodeChar_two (by omega) hy (by omega) hnat, ← ha]
        rfl
      · cases h
    · cases h
  · cases h

theorem beginsRead_three (hlow : ¬ a < 0xE0) (hhigh : a < 0xF0)
    (h : decodeFrom done (a :: rest) = some cs) : BeginsRead done (a :: rest) cs := by
  have hleast : 224 ≤ a.toNat := UInt8.le_iff_toNat_le.1 (UInt8.not_lt.1 hlow)
  have hmost : a.toNat < 240 := UInt8.lt_iff_toNat_lt.1 hhigh
  have hnot1 : ¬ a < 0x80 := fun hlt => hlow (UInt8.lt_trans hlt (by decide))
  have hnot2 : ¬ a < 0xC0 := fun hlt => hlow (UInt8.lt_trans hlt (by decide))
  have ha : a = (0xE0 + (a.toNat - 0xE0)).toUInt8 := eq_toUInt8 (by omega)
  rw [decodeFrom.eq_def] at h
  simp only [if_neg hnot1, if_neg hnot2, if_neg hlow, if_pos hhigh] at h
  split at h
  · next b d later =>
    split at h
    · next y z hb hd =>
      obtain ⟨hy, rfl⟩ := continuation?_eq_some hb
      obtain ⟨hz, rfl⟩ := continuation?_eq_some hd
      split at h
      · next c hc =>
        obtain ⟨hmin, hnat⟩ := scalar?_eq_some hc
        refine ⟨c, later, ?_, h⟩
        rw [encodeChar_three (by omega) hy hz (by omega) hnat, ← ha]
        rfl
      · cases h
    · cases h
  · cases h

theorem beginsRead_four (hlow : ¬ a < 0xF0) (h : decodeFrom done (a :: rest) = some cs) :
    BeginsRead done (a :: rest) cs := by
  have hleast : 240 ≤ a.toNat := UInt8.le_iff_toNat_le.1 (UInt8.not_lt.1 hlow)
  have hnot1 : ¬ a < 0x80 := fun hlt => hlow (UInt8.lt_trans hlt (by decide))
  have hnot2 : ¬ a < 0xC0 := fun hlt => hlow (UInt8.lt_trans hlt (by decide))
  have hnot3 : ¬ a < 0xE0 := fun hlt => hlow (UInt8.lt_trans hlt (by decide))
  have ha : a = (0xF0 + (a.toNat - 0xF0)).toUInt8 := eq_toUInt8 (by omega)
  rw [decodeFrom.eq_def] at h
  simp only [if_neg hnot1, if_neg hnot2, if_neg hnot3, if_neg hlow] at h
  split at h
  · next b d e later =>
    split at h
    · next x y z hb hd he =>
      obtain ⟨hx, rfl⟩ := continuation?_eq_some hb
      obtain ⟨hy, rfl⟩ := continuation?_eq_some hd
      obtain ⟨hz, rfl⟩ := continuation?_eq_some he
      split at h
      · next c hc =>
        obtain ⟨hmin, hnat⟩ := scalar?_eq_some hc
        refine ⟨c, later, ?_, h⟩
        rw [encodeChar_four hx hy hz (by omega) hnat, ← ha]
        rfl
      · cases h
    · cases h
  · cases h

theorem decodeFrom_continuation (hlow : ¬ a < 0x80) (hhigh : a < 0xC0) :
    decodeFrom done (a :: rest) = none := by
  rw [decodeFrom.eq_def]
  simp only [if_neg hlow, if_pos hhigh]

theorem beginsRead (h : decodeFrom done (a :: rest) = some cs) : BeginsRead done (a :: rest) cs := by
  by_cases h1 : a < 0x80
  · exact beginsRead_one h1 h
  by_cases h2 : a < 0xC0
  · rw [decodeFrom_continuation h1 h2] at h
    cases h
  by_cases h3 : a < 0xE0
  · exact beginsRead_two h2 h3 h
  by_cases h4 : a < 0xF0
  · exact beginsRead_three h3 h4 h
  · exact beginsRead_four h4 h

/-! ## Texts -/

theorem encode_of_decodeFrom {done cs : List Char} {s : Bytes}
    (h : decodeFrom done s = some cs) : ∃ later, cs = done.reverse ++ later ∧ encode later = s := by
  -- A character takes one to four bytes, so the induction is on the number of bytes left.
  induction hlength : s.length using Nat.strongRecOn generalizing done s with
  | ind n ih =>
      cases s with
      | nil => exact ⟨[], by simpa [decodeFrom] using h.symm, rfl⟩
      | cons a rest =>
          obtain ⟨c, later, hbytes, hlater⟩ := beginsRead h
          have hshorter : later.length < n := by
            have hpos := List.length_pos_iff.2 (encodeChar_ne_nil c)
            rw [← hlength, hbytes, List.length_append]
            omega
          obtain ⟨more, rfl, rfl⟩ := ih later.length hshorter hlater rfl
          refine ⟨c :: more, ?_, ?_⟩
          · rw [List.reverse_cons, List.append_assoc, List.singleton_append]
          · rw [encode_cons, hbytes]

/-- Bytes are read as a text just when they are the bytes of that text. -/
theorem decode_eq_some_iff {s : Bytes} {cs : List Char} : decode s = some cs ↔ encode cs = s := by
  constructor
  · intro h
    obtain ⟨later, rfl, hs⟩ := encode_of_decodeFrom h
    exact hs
  · rintro rfl
    exact decode_encode cs

end Tarpit.Text.Utf8
