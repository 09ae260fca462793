import Tarpit.Json.Printer
import Tarpit.Json.Token

/-!
# Scanning written values

The tokens of a value, and the reader over the written form of a value: it ends
with the tokens of the value behind those that it had.
-/

namespace Tarpit.Json

/-! ## Strings -/

/-- A piece that the reader makes: a `\u` escape in ASCII is the byte itself. -/
def Piece.IsRead : Piece → Prop
  | .byte _ => True
  | .unit n => 0x80 ≤ n ∧ n < 0x10000

theorem hexValue?_hexByte {n : Nat} (h : n < 16) : hexValue? (hexByte n) = some n := by
  have hall : ∀ n < 16, hexValue? (hexByte n) = some n := by decide
  exact hall n h

theorem run_hexDigit (content : List Piece) (tokens : List Token) (missing value : Nat) {b : UInt8}
    {n : Nat} (h : hexValue? b = some n) (rest : Bytes) :
    Reader.run ⟨.hex content (missing + 2) value, tokens⟩ (b :: rest) =
      Reader.run ⟨.hex content (missing + 1) (value * 16 + n), tokens⟩ rest := by
  have hmore : ¬ missing + 2 ≤ 1 := by omega
  simp only [Reader.run, Reader.step, h, if_neg hmore]
  rfl

theorem run_last_hexDigit (content : List Piece) (tokens : List Token) (value : Nat) {b : UInt8}
    {n : Nat} (h : hexValue? b = some n) (rest : Bytes) :
    Reader.run ⟨.hex content 1 value, tokens⟩ (b :: rest) =
      Reader.run ⟨.string (escapePiece (value * 16 + n) :: content), tokens⟩ rest := by
  simp only [Reader.run, Reader.step, h, Nat.le_refl, if_true]

/-- Four digits are read as the number of which they are the digits. -/
theorem run_hexDigits (content : List Piece) (tokens : List Token) {a b c d : UInt8}
    {w x y z : Nat} (hw : hexValue? a = some w) (hx : hexValue? b = some x)
    (hy : hexValue? c = some y) (hz : hexValue? d = some z) (rest : Bytes) :
    Reader.run ⟨.string content, tokens⟩ (0x5C :: 0x75 :: a :: b :: c :: d :: rest) =
      Reader.run ⟨.string (escapePiece (((w * 16 + x) * 16 + y) * 16 + z) :: content), tokens⟩
        rest := by
  have hopen : Reader.run ⟨.string content, tokens⟩ (0x5C :: 0x75 :: a :: b :: c :: d :: rest) =
      Reader.run ⟨.hex content 4 0, tokens⟩ (a :: b :: c :: d :: rest) := rfl
  rw [hopen, run_hexDigit content tokens 2 0 hw, run_hexDigit content tokens 1 _ hx,
    run_hexDigit content tokens 0 _ hy, run_last_hexDigit content tokens _ hz, Nat.zero_mul,
    Nat.zero_add]

theorem run_shortEscape (content : List Piece) (tokens : List Token) {b d : UInt8}
    (h : escapedByte? b = some d) (hb : b ≠ 0x75) (rest : Bytes) :
    Reader.run ⟨.string content, tokens⟩ (0x5C :: b :: rest) =
      Reader.run ⟨.string (.byte d :: content), tokens⟩ rest := by
  have hescape : Reader.step ⟨.escape content, tokens⟩ b =
      some ⟨.string (.byte d :: content), tokens⟩ := by
    simp only [Reader.step, if_neg hb, h, Option.map_some]
  have hopen : Reader.step ⟨.string content, tokens⟩ 0x5C = some ⟨.escape content, tokens⟩ := rfl
  simp only [Reader.run, hopen, hescape]

theorem run_plainByte (content : List Piece) (tokens : List Token) {b : UInt8} (hquote : b ≠ 0x22)
    (hslash : b ≠ 0x5C) (hplain : ¬ b < 0x20) (rest : Bytes) :
    Reader.run ⟨.string content, tokens⟩ (b :: rest) =
      Reader.run ⟨.string (.byte b :: content), tokens⟩ rest := by
  simp only [Reader.run, Reader.step, if_neg hquote, if_neg hslash, if_neg hplain]

/-- What may stand between the quotes of a string for its pieces. -/
inductive SpellsPieces : List Piece → Bytes → Prop
  | nil : SpellsPieces [] []
  | plain {b : UInt8} {content : List Piece} {s : Bytes} (quote : b ≠ 0x22) (slash : b ≠ 0x5C)
      (control : ¬ b < 0x20) (rest : SpellsPieces content s) :
      SpellsPieces (.byte b :: content) (b :: s)
  | letter {b d : UInt8} {content : List Piece} {s : Bytes} (escape : escapedByte? b = some d)
      (rest : SpellsPieces content s) : SpellsPieces (.byte d :: content) (0x5C :: b :: s)
  | digits {a b c d : UInt8} {w x y z : Nat} {content : List Piece} {s : Bytes}
      (first : hexValue? a = some w) (second : hexValue? b = some x) (third : hexValue? c = some y)
      (fourth : hexValue? d = some z) (rest : SpellsPieces content s) :
      SpellsPieces (escapePiece (((w * 16 + x) * 16 + y) * 16 + z) :: content)
        (0x5C :: 0x75 :: a :: b :: c :: d :: s)

theorem spellsPieces_unitEscape {n : Nat} (h : n < 0x10000) {content : List Piece} {s : Bytes}
    (rest : SpellsPieces content s) :
    SpellsPieces (escapePiece n :: content) (unitEscape n ++ s) := by
  have hsum : ((n / 4096 % 16 * 16 + n / 256 % 16) * 16 + n / 16 % 16) * 16 + n % 16 = n := by
    omega
  have hdigit : ∀ m, hexValue? (hexByte (m % 16)) = some (m % 16) :=
    fun m => hexValue?_hexByte (Nat.mod_lt m (by decide))
  have hspells := SpellsPieces.digits (hdigit (n / 4096)) (hdigit (n / 256)) (hdigit (n / 16))
    (hdigit n) rest
  rwa [hsum] at hspells

theorem spellsPieces_byteForm (b : UInt8) {content : List Piece} {s : Bytes}
    (rest : SpellsPieces content s) :
    SpellsPieces (.byte b :: content) (pieceForm (.byte b) ++ s) := by
  simp only [pieceForm]
  by_cases hself : b = 0x22 ∨ b = 0x5C
  · rw [if_pos hself]
    rcases hself with rfl | rfl
    · exact .letter rfl rest
    · exact .letter rfl rest
  · rw [if_neg hself]
    rw [not_or] at hself
    split
    · next hb => exact .letter (by rw [hb]; rfl) rest
    split
    · next hb => exact .letter (by rw [hb]; rfl) rest
    split
    · next hb => exact .letter (by rw [hb]; rfl) rest
    split
    · next hb => exact .letter (by rw [hb]; rfl) rest
    split
    · next hb => exact .letter (by rw [hb]; rfl) rest
    split
    · next hcontrol =>
        have hlt : b.toNat < 0x20 := UInt8.lt_iff_toNat_lt.1 hcontrol
        have hescape : escapePiece b.toNat = .byte b := by
          rw [escapePiece, if_pos (by omega)]
          exact congrArg Piece.byte UInt8.ofNat_toNat
        rw [← hescape]
        exact spellsPieces_unitEscape (by omega) rest
    · next hplain => exact .plain hself.1 hself.2 hplain rest

theorem spellsPieces_pieceForm {p : Piece} (h : p.IsRead) {content : List Piece} {s : Bytes}
    (rest : SpellsPieces content s) : SpellsPieces (p :: content) (pieceForm p ++ s) := by
  cases p with
  | byte b => exact spellsPieces_byteForm b rest
  | unit n =>
      have hescape : escapePiece n = .unit n := if_neg (Nat.not_lt.2 h.1)
      have hspells := spellsPieces_unitEscape h.2 rest
      rwa [hescape] at hspells

/-- What is written for pieces spells them. -/
theorem spellsPieces_forms {content : List Piece} (h : ∀ p ∈ content, p.IsRead) :
    SpellsPieces content (content.flatMap pieceForm) := by
  induction content with
  | nil => exact .nil
  | cons p more ih =>
      rw [List.flatMap_cons]
      exact spellsPieces_pieceForm (h p List.mem_cons_self)
        (ih fun q hq => h q (List.mem_cons_of_mem p hq))

theorem run_spellsPieces {content : List Piece} {s : Bytes} (h : SpellsPieces content s)
    (done : List Piece) (tokens : List Token) (rest : Bytes) :
    Reader.run ⟨.string done, tokens⟩ (s ++ rest) =
      Reader.run ⟨.string (content.reverse ++ done), tokens⟩ rest := by
  induction h generalizing done with
  | nil => rfl
  | plain quote slash control _ ih =>
      rw [List.cons_append, run_plainByte done tokens quote slash control, ih, List.reverse_cons,
        List.append_assoc, List.singleton_append]
  | @letter b _ _ _ escape _ ih =>
      have hletter : b ≠ 0x75 := by
        rintro rfl
        cases escape
      rw [List.cons_append, List.cons_append, run_shortEscape done tokens escape hletter, ih,
        List.reverse_cons, List.append_assoc, List.singleton_append]
  | digits first second third fourth _ ih =>
      simp only [List.cons_append]
      rw [run_hexDigits done tokens first second third fourth, ih, List.reverse_cons,
        List.append_assoc, List.singleton_append]

theorem run_quoted {content : List Piece} {s : Bytes} (h : SpellsPieces content s)
    (tokens : List Token) (rest : Bytes) :
    Reader.run ⟨.between, tokens⟩ ((0x22 :: (s ++ [0x22])) ++ rest) =
      Reader.run ⟨.between, .string content :: tokens⟩ rest := by
  show Reader.run ⟨.string [], tokens⟩ ((s ++ [0x22]) ++ rest) = _
  rw [List.append_assoc, run_spellsPieces h [] tokens, List.append_nil]
  show Reader.run ⟨.between, .string content.reverse.reverse :: tokens⟩ rest = _
  rw [List.reverse_reverse]

theorem run_stringForm (tokens : List Token) {content : List Piece} (h : ∀ p ∈ content, p.IsRead)
    (rest : Bytes) :
    Reader.run ⟨.between, tokens⟩ (stringForm content ++ rest) =
      Reader.run ⟨.between, .string content :: tokens⟩ rest :=
  run_quoted (spellsPieces_forms h) tokens rest

end Tarpit.Json
