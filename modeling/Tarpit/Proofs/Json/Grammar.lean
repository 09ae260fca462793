import Tarpit.Proofs.Json.RoundTrip

/-!
# The grammar of JSON texts

The texts that spell a sequence of tokens: each token in one of its written
forms, with white space before, between and behind them.  The reader takes every
one of them for the tokens, so how a value is written makes no difference to it.
-/

namespace Tarpit.Json

/-! ## Numbers -/

def AreDigits (s : Bytes) : Prop :=
  s ≠ [] ∧ ∀ b ∈ s, isDigitByte b = true

/-- The part of a number before its point: a zero, or digits that do not begin with one. -/
inductive IsWhole : Bytes → Prop
  | zero : IsWhole [0x30]
  | digits {b : UInt8} {s : Bytes} (first : isDigitByte b = true) (nonzero : b ≠ 0x30)
      (more : ∀ c ∈ s, isDigitByte c = true) : IsWhole (b :: s)

inductive ArePlaces : Bytes → Prop
  | absent : ArePlaces []
  | present {s : Bytes} (digits : AreDigits s) : ArePlaces (0x2E :: s)

inductive IsExponent : Bytes → Prop
  | absent : IsExponent []
  | present {e : UInt8} {sign s : Bytes} (letter : e = 0x65 ∨ e = 0x45)
      (sign_form : sign = [] ∨ sign = [0x2B] ∨ sign = [0x2D]) (digits : AreDigits s) :
      IsExponent (e :: (sign ++ s))

/-- A number as it may be written. -/
inductive IsNumeral : Bytes → Prop
  | positive {whole places exponent : Bytes} (isWhole : IsWhole whole)
      (arePlaces : ArePlaces places) (isExponent : IsExponent exponent) :
      IsNumeral (whole ++ (places ++ exponent))
  | negative {whole places exponent : Bytes} (isWhole : IsWhole whole)
      (arePlaces : ArePlaces places) (isExponent : IsExponent exponent) :
      IsNumeral (0x2D :: (whole ++ (places ++ exponent)))

/-- The byte could carry a number on. -/
def continuesNumber (b : UInt8) : Bool :=
  isDigitByte b || b == 0x2B || b == 0x2D || b == 0x2E || b == 0x45 || b == 0x65

/-! ## Texts -/

/-- The written forms of a token. -/
inductive TokenForm : Token → Bytes → Prop
  | openArray : TokenForm .openArray [0x5B]
  | closeArray : TokenForm .closeArray [0x5D]
  | openObject : TokenForm .openObject [0x7B]
  | closeObject : TokenForm .closeObject [0x7D]
  | comma : TokenForm .comma [0x2C]
  | colon : TokenForm .colon [0x3A]
  | null : TokenForm .null [0x6E, 0x75, 0x6C, 0x6C]
  | true : TokenForm (.bool true) [0x74, 0x72, 0x75, 0x65]
  | false : TokenForm (.bool false) [0x66, 0x61, 0x6C, 0x73, 0x65]
  | number {lexeme : Bytes} (numeral : IsNumeral lexeme) : TokenForm (.number lexeme) lexeme
  | string {content : List Piece} {s : Bytes} (pieces : SpellsPieces content s) :
      TokenForm (.string content) (0x22 :: (s ++ [0x22]))

def Token.IsNumber : Token → Prop
  | .number _ => True
  | _ => False

/-- The text spells the tokens one after the other, with white space anywhere outside of them. -/
inductive Spells : List Token → Bytes → Prop
  | nil : Spells [] []
  | space {tokens : List Token} {b : UInt8} {s : Bytes} (space : isSpace b = true)
      (rest : Spells tokens s) : Spells tokens (b :: s)
  | token {t : Token} {form : Bytes} {tokens : List Token} {s : Bytes} (isForm : TokenForm t form)
      (apart : t.IsNumber → ∀ b, s.head? = some b → continuesNumber b = false)
      (rest : Spells tokens s) : Spells (t :: tokens) (form ++ s)

/-! ## Reading numbers -/

theorem run_parts {s : Bytes} {p q : NumberPart} (h : s.foldlM NumberPart.next? p = some q)
    (lexeme : Bytes) (tokens : List Token) :
    Reader.run ⟨.number lexeme p, tokens⟩ s =
      some ⟨.number (s.reverse ++ lexeme) q, tokens⟩ := by
  induction s generalizing p lexeme with
  | nil =>
      cases h
      rfl
  | cons b rest ih =>
      rw [List.foldlM_cons] at h
      obtain ⟨next, hnext, hrest⟩ := Option.bind_eq_some_iff.1 h
      simp only [Reader.run, Reader.step, hnext]
      rw [ih hrest, List.reverse_cons, List.append_assoc, List.singleton_append]

/-- Where digits lead back to the same part, it takes any number of them. -/
theorem foldlM_digits {p : NumberPart} (hp : ∀ b, isDigitByte b = true → p.next? b = some p)
    {s : Bytes} (h : ∀ b ∈ s, isDigitByte b = true) : s.foldlM NumberPart.next? p = some p := by
  induction s with
  | nil => rfl
  | cons b rest ih =>
      rw [List.foldlM_cons, hp b (h b List.mem_cons_self)]
      exact ih fun c hc => h c (List.mem_cons_of_mem b hc)

theorem AreDigits.foldlM {s : Bytes} (h : AreDigits s) {p q : NumberPart}
    (hfirst : ∀ b, isDigitByte b = true → p.next? b = some q)
    (hmore : ∀ b, isDigitByte b = true → q.next? b = some q) :
    s.foldlM NumberPart.next? p = some q := by
  obtain ⟨hne, hdigits⟩ := h
  cases s with
  | nil => exact absurd rfl hne
  | cons b rest =>
      rw [List.foldlM_cons, hfirst b (hdigits b List.mem_cons_self)]
      exact foldlM_digits hmore fun c hc => hdigits c (List.mem_cons_of_mem b hc)

/-- The digits from one to nine begin a number, and carry on one that began with a minus. -/
theorem mem_of_nonzero {b : UInt8} (h : isDigitByte b = true) (hne : b ≠ 0x30) :
    b ∈ [(0x31 : UInt8), 0x32, 0x33, 0x34, 0x35, 0x36, 0x37, 0x38, 0x39] := by
  have hall : ∀ n < 256, isDigitByte n.toUInt8 = true → n.toUInt8 ≠ 0x30 →
      n.toUInt8 ∈ [(0x31 : UInt8), 0x32, 0x33, 0x34, 0x35, 0x36, 0x37, 0x38, 0x39] := by
    decide +kernel
  have hbyte := hall b.toNat b.toNat_lt
  rw [show b.toNat.toUInt8 = b from UInt8.ofNat_toNat] at hbyte
  exact hbyte h hne

/-- The parts of a number that take any number of digits. -/
theorem next?_digit {p : NumberPart} (hp : p = .whole ∨ p = .places ∨ p = .exponentDigits)
    {b : UInt8} (hb : isDigitByte b = true) : p.next? b = some p := by
  rcases hp with rfl | rfl | rfl
  · exact if_pos hb
  · exact if_pos hb
  · exact if_pos hb

/-- The first byte of a whole part begins a number, and carries on a minus. -/
theorem IsWhole.begins {whole : Bytes} (h : IsWhole whole) :
    ∃ b rest q p, whole = b :: rest ∧
      (∀ tokens, Reader.step ⟨.between, tokens⟩ b = some ⟨.number [b] q, tokens⟩) ∧
      NumberPart.next? .minus b = some q ∧ rest.foldlM NumberPart.next? q = some p ∧
      (p = .zero ∨ p = .whole) := by
  cases h with
  | zero => exact ⟨0x30, [], .zero, .zero, rfl, fun _ => rfl, rfl, rfl, .inl rfl⟩
  | @digits b s first nonzero more =>
      have hstep : ∀ tokens,
          Reader.step ⟨.between, tokens⟩ b = some ⟨.number [b] .whole, tokens⟩ := by
        intro tokens
        have hmem := mem_of_nonzero first nonzero
        simp only [List.mem_cons, List.not_mem_nil, or_false] at hmem
        rcases hmem with rfl | rfl | rfl | rfl | rfl | rfl | rfl | rfl | rfl <;> rfl
      have hminus : NumberPart.next? .minus b = some .whole := by
        simp only [NumberPart.next?, if_neg nonzero, first, if_true]
      exact ⟨b, s, .whole, .whole, rfl, hstep, hminus,
        foldlM_digits (fun _ hc => next?_digit (.inl rfl) hc) more, .inr rfl⟩

theorem ArePlaces.foldlM {places : Bytes} (h : ArePlaces places) {p : NumberPart}
    (hp : p = .zero ∨ p = .whole) : ∃ q, places.foldlM NumberPart.next? p = some q ∧
      (q = .zero ∨ q = .whole ∨ q = .places) := by
  cases h with
  | absent =>
      rcases hp with rfl | rfl
      · exact ⟨.zero, rfl, .inl rfl⟩
      · exact ⟨.whole, rfl, .inr (.inl rfl)⟩
  | present digits =>
      have hpoint : p.next? 0x2E = some .point := by
        rcases hp with rfl | rfl
        · rfl
        · rfl
      refine ⟨.places, ?_, .inr (.inr rfl)⟩
      rw [List.foldlM_cons, hpoint]
      exact digits.foldlM (p := .point) (fun _ hb => if_pos hb)
        fun _ hb => next?_digit (.inr (.inl rfl)) hb

theorem IsExponent.foldlM {exponent : Bytes} (h : IsExponent exponent) {q : NumberPart}
    (hq : q = .zero ∨ q = .whole ∨ q = .places) :
    ∃ r, exponent.foldlM NumberPart.next? q = some r ∧ r.mayEnd = true := by
  cases h with
  | absent =>
      refine ⟨q, rfl, ?_⟩
      rcases hq with rfl | rfl | rfl
      · rfl
      · rfl
      · rfl
  | @present e sign s letter sign_form digits =>
      have hletter : q.next? e = some .exponent := by
        rcases letter with rfl | rfl
        · rcases hq with rfl | rfl | rfl <;> rfl
        · rcases hq with rfl | rfl | rfl <;> rfl
      have hmore : ∀ b, isDigitByte b = true →
          NumberPart.next? .exponentDigits b = some .exponentDigits :=
        fun _ hb => next?_digit (.inr (.inr rfl)) hb
      have hsigned : s.foldlM NumberPart.next? .exponentSign = some .exponentDigits :=
        digits.foldlM (fun _ hb => if_pos hb) hmore
      have hunsigned : s.foldlM NumberPart.next? .exponent = some .exponentDigits := by
        apply digits.foldlM _ hmore
        intro b hb
        have hsign : ¬ (b = 0x2B ∨ b = 0x2D) := by
          rintro (rfl | rfl)
          · cases hb
          · cases hb
        simp only [NumberPart.next?, if_neg hsign, hb, if_true]
      refine ⟨.exponentDigits, ?_, rfl⟩
      rw [List.foldlM_cons, hletter]
      rcases sign_form with rfl | rfl | rfl
      · exact hunsigned
      · exact hsigned
      · exact hsigned

/-- What follows the whole part of a number takes the reader to where a number may end. -/
theorem foldlM_behind_whole {places exponent : Bytes} (arePlaces : ArePlaces places)
    (isExponent : IsExponent exponent) {rest : Bytes} {q p : NumberPart}
    (hrest : rest.foldlM NumberPart.next? q = some p) (hp : p = .zero ∨ p = .whole) :
    ∃ r, (rest ++ (places ++ exponent)).foldlM NumberPart.next? q = some r ∧
      r.mayEnd = true := by
  obtain ⟨past, hplaces, hpast⟩ := arePlaces.foldlM hp
  obtain ⟨r, hexponent, hend⟩ := isExponent.foldlM hpast
  refine ⟨r, ?_, hend⟩
  rw [List.foldlM_append, hrest]
  show (places ++ exponent).foldlM NumberPart.next? p = some r
  rw [List.foldlM_append, hplaces]
  exact hexponent

/-- The reader takes a number of the grammar as one number. -/
theorem IsNumeral.isLexeme {s : Bytes} (h : IsNumeral s) : IsLexeme s := by
  cases h with
  | positive isWhole arePlaces isExponent =>
      obtain ⟨b, rest, q, p, rfl, hstep, -, hrest, hp⟩ := isWhole.begins
      obtain ⟨r, hrun, hend⟩ := foldlM_behind_whole arePlaces isExponent hrest hp
      refine ⟨r, hend, ?_⟩
      intro tokens
      rw [List.cons_append, Reader.run, hstep]
      simp only [run_parts hrun, List.reverse_cons]
  | @negative _ places exponent isWhole arePlaces isExponent =>
      obtain ⟨b, rest, q, p, rfl, -, hminus, hrest, hp⟩ := isWhole.begins
      obtain ⟨r, hrun, hend⟩ := foldlM_behind_whole arePlaces isExponent hrest hp
      refine ⟨r, hend, ?_⟩
      intro tokens
      have hsigned : (b :: (rest ++ (places ++ exponent))).foldlM NumberPart.next? .minus =
          some r := by
        rw [List.foldlM_cons, hminus]
        exact hrun
      have hopen : Reader.step ⟨.between, tokens⟩ 0x2D =
          some ⟨.number [0x2D] .minus, tokens⟩ := rfl
      rw [List.cons_append, Reader.run, hopen]
      simp only [run_parts hsigned, List.reverse_cons]

theorem next?_of_not_continues {b : UInt8} (h : continuesNumber b = false) (p : NumberPart) :
    p.next? b = none := by
  simp only [continuesNumber, Bool.or_eq_false_iff, beq_eq_false_iff_ne] at h
  obtain ⟨⟨⟨⟨⟨hdigit, hplus⟩, hminus⟩, hpoint⟩, hupper⟩, hlower⟩ := h
  have hzero : b ≠ 0x30 := by
    rintro rfl
    cases hdigit
  cases p with
  | minus => simp [NumberPart.next?, hdigit, hzero]
  | zero =>
      simp [NumberPart.next?, NumberPart.next?.afterWhole, NumberPart.next?.afterPlaces, hpoint,
        hupper, hlower]
  | whole =>
      simp [NumberPart.next?, NumberPart.next?.afterWhole, NumberPart.next?.afterPlaces, hdigit,
        hpoint, hupper, hlower]
  | point => simp [NumberPart.next?, hdigit]
  | places => simp [NumberPart.next?, NumberPart.next?.afterPlaces, hdigit, hupper, hlower]
  | exponent => simp [NumberPart.next?, hdigit, hplus, hminus]
  | exponentSign | exponentDigits => simp [NumberPart.next?, hdigit]

/-! ## Reading texts -/

/-- The reader takes a written form of a token for the token. -/
theorem scan_tokenForm {t : Token} {form : Bytes} (h : TokenForm t form) {rest : Bytes}
    (apart : t.IsNumber → ∀ b, rest.head? = some b → continuesNumber b = false)
    (tokens : List Token) : Reader.scan ⟨.between, tokens⟩ (form ++ rest) =
      Reader.scan ⟨.between, t :: tokens⟩ rest := by
  cases h with
  | openArray | closeArray | openObject | closeObject | comma | colon => rfl
  | null | true | false => rfl
  | number numeral =>
      obtain ⟨part, hend, hrun⟩ := numeral.isLexeme
      have hnumber : Reader.scan ⟨.between, tokens⟩ (form ++ rest) =
          Reader.scan ⟨.number form.reverse part, tokens⟩ rest := by
        rw [Reader.scan, run_append, hrun]
        rfl
      rw [hnumber, scan_number hend fun b hb => next?_of_not_continues (apart trivial b hb) part,
        List.reverse_reverse]
  | string pieces =>
      rw [Reader.scan, run_quoted pieces]
      rfl

/-- The reader takes a text for the tokens that it spells. -/
theorem scan_of_spells {tokens : List Token} {s : Bytes} (h : Spells tokens s) (done : List Token) :
    Reader.scan ⟨.between, done⟩ s = some (done.reverse ++ tokens) := by
  induction h generalizing done with
  | nil => exact congrArg some (List.append_nil done.reverse).symm
  | @space _ b s space _ ih =>
      have hstep : Reader.step ⟨.between, done⟩ b = some ⟨.between, done⟩ := if_pos space
      rw [← ih done, Reader.scan, Reader.run, hstep]
      rfl
  | token isForm apart _ ih =>
      rw [scan_tokenForm isForm apart, ih, List.reverse_cons, List.append_assoc,
        List.singleton_append]

/-- A text that spells the tokens of a value is read as the value. -/
theorem parse?_of_spells {v : Value} {s : Bytes} (h : Spells v.tokens s) :
    Value.parse? s = some v := by
  have hscan : scan s = some v.tokens := scan_of_spells h []
  rw [Value.parse?, hscan, Option.bind_some, Value.ofTokens?, run_tokens]
  rfl

/-! ## Written tokens -/

/-- The form in which a token is written. -/
def Token.form : Token → Bytes
  | .openArray => [0x5B]
  | .closeArray => [0x5D]
  | .openObject => [0x7B]
  | .closeObject => [0x7D]
  | .comma => [0x2C]
  | .colon => [0x3A]
  | .null => [0x6E, 0x75, 0x6C, 0x6C]
  | .bool true => [0x74, 0x72, 0x75, 0x65]
  | .bool false => [0x66, 0x61, 0x6C, 0x73, 0x65]
  | .number lexeme => lexeme
  | .string content => stringForm content

/-- The token has a written form. -/
def Token.HasForm : Token → Prop
  | .number lexeme => IsNumeral lexeme
  | .string content => ∀ p ∈ content, p.IsRead
  | _ => True

theorem Token.hasForm_text (s : String) : (Token.string (textPieces s)).HasForm :=
  isRead_textPieces s

theorem Token.HasForm.tokenForm {t : Token} (h : t.HasForm) : TokenForm t t.form := by
  cases t with
  | openArray => exact .openArray
  | closeArray => exact .closeArray
  | openObject => exact .openObject
  | closeObject => exact .closeObject
  | comma => exact .comma
  | colon => exact .colon
  | null => exact .null
  | bool b =>
      cases b with
      | true => exact .true
      | false => exact .false
  | number lexeme => exact .number h
  | string content => exact .string (spellsPieces_forms h)

/-- The tokens in their written forms, with a space behind each. -/
def spaced (tokens : List Token) : Bytes :=
  tokens.flatMap fun t => t.form ++ [0x20]

/-- Tokens that have a form make up a text. -/
theorem spells_spaced {tokens : List Token} (h : ∀ t ∈ tokens, t.HasForm) :
    Spells tokens (spaced tokens) := by
  induction tokens with
  | nil => exact .nil
  | cons t rest ih =>
      have happart : t.IsNumber → ∀ b, (0x20 :: spaced rest : Bytes).head? = some b →
          continuesNumber b = false := by
        rintro - b ⟨⟩
        rfl
      have hforms : spaced (t :: rest) = t.form ++ 0x20 :: spaced rest := by
        rw [spaced, List.flatMap_cons, List.append_assoc]
        rfl
      have hrest := ih fun other hother => h other (List.mem_cons_of_mem t hother)
      rw [hforms]
      exact .token (h t List.mem_cons_self).tokenForm happart (.space rfl hrest)

end Tarpit.Json
