import Tarpit.Text.Utf8

/-!
# Reading what was written

The bytes of a text are read back as that text.
-/

namespace Tarpit.Text.Utf8

theorem toNat_toUInt8 {n : Nat} (h : n < 256) : n.toUInt8.toNat = n := by
  simp only [Nat.toUInt8, UInt8.toNat_ofNat', Nat.reducePow]
  omega

theorem scalar?_toNat {least : Nat} {c : Char} (h : least ≤ c.toNat) :
    scalar? least c.toNat = some c := by
  unfold scalar?
  rw [dif_pos ⟨h, c.valid⟩]
  rfl

/-- A continuation byte is none of those that start a character, and carries six bits. -/
theorem continuation?_of_lt {n : Nat} (h : n < 64) :
    continuation? (0x80 + n).toUInt8 = some n := by
  have hbyte : (0x80 + n).toUInt8.toNat = 0x80 + n := toNat_toUInt8 (by omega)
  have hlow : (0x80 : UInt8) ≤ (0x80 + n).toUInt8 := by
    rw [UInt8.le_iff_toNat_le, hbyte]
    show 128 ≤ 128 + n
    omega
  have hhigh : (0x80 + n).toUInt8 < 0xC0 := by
    rw [UInt8.lt_iff_toNat_lt, hbyte]
    show 128 + n < 192
    omega
  rw [continuation?, if_pos ⟨hlow, hhigh⟩, hbyte]
  simp

theorem ofByte_lt_iff {n : Nat} (hn : n < 256) (b : UInt8) : n.toUInt8 < b ↔ n < b.toNat := by
  rw [UInt8.lt_iff_toNat_lt, toNat_toUInt8 hn]

/-! ## One character by the number of its bytes -/

theorem decodeFrom_one (done : List Char) {c : Char} (h : c.toNat < 0x80) (rest : Bytes) :
    decodeFrom done (c.toNat.toUInt8 :: rest) = decodeFrom (c :: done) rest := by
  have hfirst : c.toNat.toUInt8 < 0x80 := (ofByte_lt_iff (by omega) _).2 h
  rw [decodeFrom.eq_def]
  simp only [if_pos hfirst, toNat_toUInt8 (show c.toNat < 256 by omega),
    scalar?_toNat (Nat.zero_le c.toNat)]

theorem decodeFrom_two (done : List Char) {c : Char} {x y : Nat} (hx : x < 32) (hy : y < 64)
    (hleast : 0x80 ≤ c.toNat) (hc : c.toNat = x * 64 + y) (rest : Bytes) :
    decodeFrom done ((0xC0 + x).toUInt8 :: (0x80 + y).toUInt8 :: rest) =
      decodeFrom (c :: done) rest := by
  have hbyte : 0xC0 + x < 256 := by omega
  have h1 : ¬ (0xC0 + x).toUInt8 < 0x80 := by
    rw [ofByte_lt_iff hbyte]
    show ¬ 192 + x < 128
    omega
  have h2 : ¬ (0xC0 + x).toUInt8 < 0xC0 := by
    rw [ofByte_lt_iff hbyte]
    show ¬ 192 + x < 192
    omega
  have h3 : (0xC0 + x).toUInt8 < 0xE0 := by
    rw [ofByte_lt_iff hbyte]
    show 192 + x < 224
    omega
  rw [decodeFrom.eq_def]
  simp only [if_neg h1, if_neg h2, if_pos h3, continuation?_of_lt hy, toNat_toUInt8 hbyte,
    Nat.add_sub_cancel_left, ← hc, scalar?_toNat hleast]

theorem decodeFrom_three (done : List Char) {c : Char} {x y z : Nat} (hx : x < 16) (hy : y < 64)
    (hz : z < 64) (hleast : 0x800 ≤ c.toNat) (hc : c.toNat = (x * 64 + y) * 64 + z)
    (rest : Bytes) :
    decodeFrom done ((0xE0 + x).toUInt8 :: (0x80 + y).toUInt8 :: (0x80 + z).toUInt8 :: rest) =
      decodeFrom (c :: done) rest := by
  have hbyte : 0xE0 + x < 256 := by omega
  have h1 : ¬ (0xE0 + x).toUInt8 < 0x80 := by
    rw [ofByte_lt_iff hbyte]
    show ¬ 224 + x < 128
    omega
  have h2 : ¬ (0xE0 + x).toUInt8 < 0xC0 := by
    rw [ofByte_lt_iff hbyte]
    show ¬ 224 + x < 192
    omega
  have h3 : ¬ (0xE0 + x).toUInt8 < 0xE0 := by
    rw [ofByte_lt_iff hbyte]
    show ¬ 224 + x < 224
    omega
  have h4 : (0xE0 + x).toUInt8 < 0xF0 := by
    rw [ofByte_lt_iff hbyte]
    show 224 + x < 240
    omega
  rw [decodeFrom.eq_def]
  simp only [if_neg h1, if_neg h2, if_neg h3, if_pos h4, continuation?_of_lt hy,
    continuation?_of_lt hz, toNat_toUInt8 hbyte, Nat.add_sub_cancel_left, ← hc,
    scalar?_toNat hleast]

theorem decodeFrom_four (done : List Char) {c : Char} {w x y z : Nat} (hw : w < 16) (hx : x < 64)
    (hy : y < 64) (hz : z < 64) (hleast : 0x10000 ≤ c.toNat)
    (hc : c.toNat = ((w * 64 + x) * 64 + y) * 64 + z) (rest : Bytes) :
    decodeFrom done ((0xF0 + w).toUInt8 :: (0x80 + x).toUInt8 :: (0x80 + y).toUInt8 ::
      (0x80 + z).toUInt8 :: rest) = decodeFrom (c :: done) rest := by
  have hbyte : 0xF0 + w < 256 := by omega
  have h1 : ¬ (0xF0 + w).toUInt8 < 0x80 := by
    rw [ofByte_lt_iff hbyte]
    show ¬ 240 + w < 128
    omega
  have h2 : ¬ (0xF0 + w).toUInt8 < 0xC0 := by
    rw [ofByte_lt_iff hbyte]
    show ¬ 240 + w < 192
    omega
  have h3 : ¬ (0xF0 + w).toUInt8 < 0xE0 := by
    rw [ofByte_lt_iff hbyte]
    show ¬ 240 + w < 224
    omega
  have h4 : ¬ (0xF0 + w).toUInt8 < 0xF0 := by
    rw [ofByte_lt_iff hbyte]
    show ¬ 240 + w < 240
    omega
  rw [decodeFrom.eq_def]
  simp only [if_neg h1, if_neg h2, if_neg h3, if_neg h4, continuation?_of_lt hx,
    continuation?_of_lt hy, continuation?_of_lt hz, toNat_toUInt8 hbyte, Nat.add_sub_cancel_left,
    ← hc, scalar?_toNat hleast]

theorem toNat_lt (c : Char) : c.toNat < 0x110000 := by
  rcases c.valid with h | h
  · exact Nat.lt_trans h (by decide)
  · exact h.2

/-! ## Texts -/

theorem decodeFrom_encodeChar (done : List Char) (c : Char) (rest : Bytes) :
    decodeFrom done (encodeChar c ++ rest) = decodeFrom (c :: done) rest := by
  have hmax := toNat_lt c
  unfold encodeChar
  simp only
  by_cases h1 : c.toNat < 0x80
  · rw [if_pos h1]
    exact decodeFrom_one done h1 rest
  · rw [if_neg h1]
    by_cases h2 : c.toNat < 0x800
    · rw [if_pos h2]
      exact decodeFrom_two done (by omega) (by omega) (by omega) (by omega) rest
    · rw [if_neg h2]
      by_cases h3 : c.toNat < 0x10000
      · rw [if_pos h3]
        exact decodeFrom_three done (by omega) (by omega) (by omega) (by omega) (by omega) rest
      · rw [if_neg h3]
        exact decodeFrom_four done (by omega) (by omega) (by omega) (by omega) (by omega)
          (by omega) rest

theorem decodeFrom_encode (done s : List Char) :
    decodeFrom done (encode s) = some (done.reverse ++ s) := by
  induction s generalizing done with
  | nil => simp [decodeFrom]
  | cons c rest ih => rw [encode_cons, decodeFrom_encodeChar, ih, List.reverse_cons,
      List.append_assoc, List.singleton_append]

@[simp] theorem decode_encode (s : List Char) : decode (encode s) = some s :=
  decodeFrom_encode [] s

@[simp] theorem text?_bytes (s : String) : text? (bytes s) = some s := by
  simp [text?, bytes]

/-! ## ASCII -/

theorem encodeChar_of_ascii {c : Char} (h : c.toNat < 0x80) : encodeChar c = [c.toNat.toUInt8] :=
  if_pos h

theorem encodeChar_ne_nil (c : Char) : encodeChar c ≠ [] := by
  unfold encodeChar
  simp only
  split
  · exact List.cons_ne_nil _ _
  split
  · exact List.cons_ne_nil _ _
  split
  · exact List.cons_ne_nil _ _
  · exact List.cons_ne_nil _ _

/-- Past ASCII a character has no byte of ASCII. -/
theorem ascii_le_of_mem_encodeChar {c : Char} (h : 0x80 ≤ c.toNat) {b : UInt8}
    (hb : b ∈ encodeChar c) : 0x80 ≤ b := by
  have hmax := toNat_lt c
  have hbyte : ∀ n : Nat, 0x80 ≤ n → n < 256 → 0x80 ≤ n.toUInt8 := by
    intro n hlow hhigh
    rw [UInt8.le_iff_toNat_le, toNat_toUInt8 hhigh]
    exact hlow
  unfold encodeChar at hb
  simp only [if_neg (Nat.not_lt.2 h)] at hb
  by_cases h2 : c.toNat < 0x800
  · simp only [if_pos h2, List.mem_cons, List.not_mem_nil, or_false] at hb
    rcases hb with rfl | rfl
    · exact hbyte _ (by omega) (by omega)
    · exact hbyte _ (by omega) (by omega)
  · by_cases h3 : c.toNat < 0x10000
    · simp only [if_neg h2, if_pos h3, List.mem_cons, List.not_mem_nil, or_false] at hb
      rcases hb with rfl | rfl | rfl
      · exact hbyte _ (by omega) (by omega)
      · exact hbyte _ (by omega) (by omega)
      · exact hbyte _ (by omega) (by omega)
    · simp only [if_neg h2, if_neg h3, List.mem_cons, List.not_mem_nil, or_false] at hb
      rcases hb with rfl | rfl | rfl | rfl
      · exact hbyte _ (by omega) (by omega)
      · exact hbyte _ (by omega) (by omega)
      · exact hbyte _ (by omega) (by omega)
      · exact hbyte _ (by omega) (by omega)

theorem asciiChars_encode {s : List Char} (h : ∀ c ∈ s, c.toNat < 0x80) :
    asciiChars (encode s) = s := by
  induction s with
  | nil => rfl
  | cons c rest ih =>
      have hc := h c List.mem_cons_self
      have hbyte : c.toNat.toUInt8.toNat = c.toNat := toNat_toUInt8 (by omega)
      have hrest := ih fun d hd => h d (List.mem_cons_of_mem c hd)
      unfold asciiChars at hrest ⊢
      rw [encode_cons, encodeChar_of_ascii hc, List.singleton_append, List.map_cons, hbyte, hrest,
        Char.ofNat_toNat]

/-- The bytes spell a text. -/
def IsText (s : Bytes) : Prop :=
  ∃ cs, encode cs = s

theorem IsText.append {s t : Bytes} (hs : IsText s) (ht : IsText t) : IsText (s ++ t) := by
  obtain ⟨cs, rfl⟩ := hs
  obtain ⟨ds, rfl⟩ := ht
  exact ⟨cs ++ ds, encode_append cs ds⟩

theorem isText_encodeChar (c : Char) : IsText (encodeChar c) :=
  ⟨[c], by rw [encode_cons, encode_nil, List.append_nil]⟩

theorem isText_of_ascii {s : Bytes} (h : ∀ b ∈ s, b < 0x80) : IsText s := by
  induction s with
  | nil => exact ⟨[], rfl⟩
  | cons b rest ih =>
      have hb : b.toNat < 0x80 := UInt8.lt_iff_toNat_lt.1 (h b List.mem_cons_self)
      have hvalid : b.toNat.isValidChar := .inl (Nat.lt_trans hb (by decide))
      have hchar : encodeChar (Char.ofNatAux b.toNat hvalid) = [b] := by
        rw [encodeChar_of_ascii (show (Char.ofNatAux b.toNat hvalid).toNat < 0x80 from hb)]
        exact congrArg (fun byte => [byte]) UInt8.ofNat_toNat
      have hfirst : IsText [b] := hchar ▸ isText_encodeChar _
      exact hfirst.append (ih fun d hd => h d (List.mem_cons_of_mem b hd))

end Tarpit.Text.Utf8
