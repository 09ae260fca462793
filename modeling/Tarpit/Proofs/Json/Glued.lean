import Tarpit.Proofs.Json.RoundTrip

/-!
# Written values behind other bytes

The written form of an object that stands behind other bytes is read as the
object when those bytes are spaces, and otherwise the whole is no JSON text.
-/

namespace Tarpit.Json

/-! ## Steps of the reader -/

theorem ite_some_eq_some {α : Type} {c : Prop} [Decidable c] {x r : α} {y : Option α}
    (h : (if c then some x else y) = some r) : (c ∧ r = x) ∨ (¬ c ∧ y = some r) := by
  by_cases hc : c
  · rw [if_pos hc] at h
    exact .inl ⟨hc, (Option.some.inj h).symm⟩
  · rw [if_neg hc] at h
    exact .inr ⟨hc, h⟩

/-- The reader is in the middle of a token, and not of a word that goes on with a brace. -/
structure Mode.IsInside (mode : Mode) : Prop where
  inside : mode ≠ .between
  word : ∀ missing token, mode = .word missing token → (0x7B : UInt8) ∉ missing

theorem isInside_string (content : List Piece) : (Mode.string content).IsInside :=
  ⟨Mode.noConfusion, fun _ _ h => Mode.noConfusion h⟩

theorem isInside_escape (content : List Piece) : (Mode.escape content).IsInside :=
  ⟨Mode.noConfusion, fun _ _ h => Mode.noConfusion h⟩

theorem isInside_hex (content : List Piece) (missing value : Nat) :
    (Mode.hex content missing value).IsInside :=
  ⟨Mode.noConfusion, fun _ _ h => Mode.noConfusion h⟩

theorem isInside_number (lexeme : Bytes) (part : NumberPart) :
    (Mode.number lexeme part).IsInside :=
  ⟨Mode.noConfusion, fun _ _ h => Mode.noConfusion h⟩

theorem isInside_word {missing : Bytes} (h : (0x7B : UInt8) ∉ missing) (token : Token) :
    (Mode.word missing token).IsInside := by
  refine ⟨Mode.noConfusion, ?_⟩
  rintro _ _ ⟨⟩
  exact h

/-- The reader has gone past the beginning: it has a token, or is in the middle of one. -/
def Reader.IsPast (r : Reader) : Prop :=
  (r.mode = .between ∧ r.tokens ≠ []) ∨ r.mode.IsInside

/-- Between tokens a byte is a space, or it takes the reader past the beginning. -/
theorem stepBetween_eq_some {tokens : List Token} {b : UInt8} {r : Reader}
    (h : stepBetween tokens b = some r) :
    (isSpace b = true ∧ r = ⟨.between, tokens⟩) ∨ (isSpace b = false ∧ r.IsPast) := by
  have htoken : ∀ t, (⟨.between, t :: tokens⟩ : Reader).IsPast :=
    fun t => .inl ⟨rfl, List.cons_ne_nil t tokens⟩
  unfold stepBetween at h
  rcases ite_some_eq_some h with ⟨hspace, rfl⟩ | ⟨hspace, h⟩
  · exact .inl ⟨hspace, rfl⟩
  refine .inr ⟨Bool.eq_false_iff.2 hspace, ?_⟩
  -- The marks.
  rcases ite_some_eq_some h with ⟨-, rfl⟩ | ⟨-, h⟩
  · exact htoken _
  rcases ite_some_eq_some h with ⟨-, rfl⟩ | ⟨-, h⟩
  · exact htoken _
  rcases ite_some_eq_some h with ⟨-, rfl⟩ | ⟨-, h⟩
  · exact htoken _
  rcases ite_some_eq_some h with ⟨-, rfl⟩ | ⟨-, h⟩
  · exact htoken _
  rcases ite_some_eq_some h with ⟨-, rfl⟩ | ⟨-, h⟩
  · exact htoken _
  rcases ite_some_eq_some h with ⟨-, rfl⟩ | ⟨-, h⟩
  · exact htoken _
  rcases ite_some_eq_some h with ⟨-, rfl⟩ | ⟨-, h⟩
  · exact .inr (isInside_string _)
  -- The numbers.
  rcases ite_some_eq_some h with ⟨-, rfl⟩ | ⟨-, h⟩
  · exact .inr (isInside_number _ _)
  rcases ite_some_eq_some h with ⟨-, rfl⟩ | ⟨-, h⟩
  · exact .inr (isInside_number _ _)
  rcases ite_some_eq_some h with ⟨-, rfl⟩ | ⟨-, h⟩
  · exact .inr (isInside_number _ _)
  -- The words.
  rcases ite_some_eq_some h with ⟨-, rfl⟩ | ⟨-, h⟩
  · exact .inr (isInside_word (by decide) _)
  rcases ite_some_eq_some h with ⟨-, rfl⟩ | ⟨-, h⟩
  · exact .inr (isInside_word (by decide) _)
  rcases ite_some_eq_some h with ⟨-, rfl⟩ | ⟨-, h⟩
  · exact .inr (isInside_word (by decide) _)
  · cases h

/-- With a token before it the reader is past the beginning, whatever follows. -/
theorem isPast_stepBetween {tokens : List Token} {b : UInt8} {r : Reader}
    (h : stepBetween tokens b = some r) (htokens : tokens ≠ []) : r.IsPast := by
  rcases stepBetween_eq_some h with ⟨-, rfl⟩ | ⟨-, hpast⟩
  · exact .inl ⟨rfl, htokens⟩
  · exact hpast

/-- The reader does not come back to the beginning. -/
theorem Reader.IsPast.step {r r' : Reader} (h : r.IsPast) {b : UInt8}
    (hstep : r.step b = some r') : r'.IsPast := by
  obtain ⟨mode, tokens⟩ := r
  unfold Reader.step at hstep
  cases mode with
  | between =>
      rcases h with ⟨-, htokens⟩ | hinside
      · exact isPast_stepBetween hstep htokens
      · exact absurd rfl hinside.inside
  | string content =>
      rcases ite_some_eq_some hstep with ⟨-, rfl⟩ | ⟨-, hstep⟩
      · exact .inl ⟨rfl, List.cons_ne_nil _ _⟩
      rcases ite_some_eq_some hstep with ⟨-, rfl⟩ | ⟨-, hstep⟩
      · exact .inr (isInside_escape _)
      simp only at hstep
      split at hstep
      · cases hstep
      · cases hstep
        exact .inr (isInside_string _)
  | escape content =>
      rcases ite_some_eq_some hstep with ⟨-, rfl⟩ | ⟨-, hstep⟩
      · exact .inr (isInside_hex _ _ _)
      · obtain ⟨d, -, rfl⟩ := Option.map_eq_some_iff.1 hstep
        exact .inr (isInside_string _)
  | hex content missing value =>
      simp only at hstep
      split at hstep
      · cases hstep
      · split at hstep
        · cases hstep
          exact .inr (isInside_string _)
        · cases hstep
          exact .inr (isInside_hex _ _ _)
  | number lexeme part =>
      simp only at hstep
      split at hstep
      · cases hstep
        exact .inr (isInside_number _ _)
      · split at hstep
        · exact isPast_stepBetween hstep (List.cons_ne_nil _ _)
        · cases hstep
  | word missing token =>
      rcases h with ⟨hmode, -⟩ | hinside
      · cases hmode
      have hmissing := hinside.word missing token rfl
      rcases missing with _ | ⟨c, _ | ⟨d, more⟩⟩
      · cases hstep
      · rcases ite_some_eq_some hstep with ⟨-, rfl⟩ | ⟨-, hstep⟩
        · exact .inl ⟨rfl, List.cons_ne_nil _ _⟩
        · cases hstep
      · rcases ite_some_eq_some hstep with ⟨-, rfl⟩ | ⟨-, hstep⟩
        · exact .inr (isInside_word (fun hmem => hmissing (List.mem_cons_of_mem c hmem)) _)
        · cases hstep

theorem Reader.IsPast.run {r r' : Reader} (h : r.IsPast) {s : Bytes}
    (hrun : r.run s = some r') : r'.IsPast := by
  induction s generalizing r with
  | nil =>
      cases hrun
      exact h
  | cons b rest ih =>
      unfold Reader.run at hrun
      split at hrun
      · next hstep => exact ih (h.step hstep) hrun
      · cases hrun

/-- Spaces are all that leaves the reader at the beginning. -/
theorem run_start {s : Bytes} {r : Reader} (h : Reader.run ⟨.between, []⟩ s = some r) :
    (s.all isSpace = true ∧ r = ⟨.between, []⟩) ∨ (s.all isSpace = false ∧ r.IsPast) := by
  induction s with
  | nil =>
      cases h
      exact .inl ⟨rfl, rfl⟩
  | cons b rest ih =>
      unfold Reader.run at h
      split at h
      · next first hstep =>
          rw [List.all_cons]
          rcases stepBetween_eq_some hstep with ⟨hspace, rfl⟩ | ⟨hspace, hpast⟩
          · rw [hspace, Bool.true_and]
            exact ih h
          · rw [hspace, Bool.false_and]
            exact .inr ⟨rfl, hpast.run h⟩
      · cases h

/-! ## The tokens of both -/

/--
A text that begins with a brace, a quote and a byte that begins no token ends whatever the reader
was in the middle of, or is refused.
-/
theorem scan_brace {r : Reader} (h : r.IsPast) {c : UInt8}
    (hc : ∀ tokens, stepBetween tokens c = none) (rest : Bytes) :
    r.scan (0x7B :: 0x22 :: c :: rest) =
      r.finish?.bind fun tokens =>
        Reader.scan ⟨.between, tokens.reverse⟩ (0x7B :: 0x22 :: c :: rest) := by
  obtain ⟨mode, tokens⟩ := r
  cases mode with
  | between =>
      show _ = Reader.scan ⟨.between, tokens.reverse.reverse⟩ _
      rw [List.reverse_reverse]
  | string content =>
      -- The brace goes into the string and the quote ends it.
      show (Reader.run ⟨.between, .string (.byte 0x7B :: content).reverse :: tokens⟩
        (c :: rest)).bind Reader.finish? = none
      unfold Reader.run Reader.step
      simp only [hc]
      rfl
  | escape content => rfl
  | hex content missing value => rfl
  | number lexeme part =>
      have hnext : part.next? 0x7B = none := by
        cases part <;> rfl
      cases hend : part.mayEnd with
      | true =>
          simp only [Reader.scan, Reader.run, Reader.step, Reader.finish?, hnext, hend, if_true,
            Option.bind_some, List.reverse_reverse]
      | false =>
          simp only [Reader.scan, Reader.run, Reader.step, Reader.finish?, hnext, hend,
            Bool.false_eq_true, if_false, Option.bind_none]
  | word missing token =>
      rcases h with ⟨hmode, -⟩ | hinside
      · cases hmode
      have hmissing := hinside.word missing token rfl
      cases missing with
      | nil => rfl
      | cons d more =>
          have hne : ¬ (0x7B : UInt8) = d := fun h => hmissing (h ▸ List.mem_cons_self)
          have hstep : Reader.step ⟨.word (d :: more) token, tokens⟩ 0x7B = none := by
            cases more with
            | nil => exact if_neg hne
            | cons e rest => exact if_neg hne
          simp only [Reader.scan, Reader.run, hstep, Reader.finish?, Option.bind_none]

/-- An object whose written form begins with a name of a first byte that begins no token. -/
structure Value.IsNamed (v : Value) : Prop where
  read : v.IsRead
  object : ∃ members, v = .object members
  form : ∃ c rest, v.compact = 0x7B :: 0x22 :: c :: rest ∧ ∀ tokens, stepBetween tokens c = none

theorem isNamed_object {name : List Piece} {v : Value} {more : List (List Piece × Value)} {c : UInt8}
    (hread : (Value.object ((.byte c :: name, v) :: more)).IsRead)
    (hform : pieceForm (.byte c) = [c]) (hc : ∀ tokens, stepBetween tokens c = none) :
    (Value.object ((.byte c :: name, v) :: more)).IsNamed := by
  refine ⟨hread, ⟨_, rfl⟩, c, name.flatMap pieceForm ++ [0x22] ++ (Layout.colon none ++
    v.form none ++ membersForm none more ++ [0x7D]), ?_, hc⟩
  simp [Value.compact, Value.form, stringForm, hform, Layout.newline, Layout.deeper]

theorem Value.IsNamed.scan_tokens {v : Value} (h : v.IsNamed) (tokens : List Token) :
    Reader.scan ⟨.between, tokens.reverse⟩ v.compact = some (tokens ++ v.tokens) := by
  have hscan := scan_form none v h.read tokens.reverse (show endsNumber [] = true from rfl)
  rw [List.append_nil] at hscan
  rw [Value.compact, hscan]
  show some (v.tokens.reverse ++ tokens.reverse).reverse = _
  rw [List.reverse_append, List.reverse_reverse, List.reverse_reverse]

/-- The tokens of the object stand behind those of the bytes before it. -/
theorem Value.IsNamed.scan_append {v : Value} (h : v.IsNamed) (s : Bytes) :
    scan (s ++ v.compact) = (scan s).map fun tokens => tokens ++ v.tokens := by
  have hstart : scan (s ++ v.compact) =
      (Reader.run ⟨.between, []⟩ s).bind fun r => r.scan v.compact := by
    rw [scan, run_append, Option.bind_assoc]
    rfl
  rw [hstart, scan]
  cases hrun : Reader.run ⟨.between, []⟩ s with
  | none => rfl
  | some r =>
      rw [Option.bind_some, Option.bind_some]
      rcases run_start hrun with ⟨-, rfl⟩ | ⟨-, hpast⟩
      · exact h.scan_tokens []
      · obtain ⟨c, rest, hform, hc⟩ := h.form
        rw [hform, scan_brace hpast hc rest, ← hform]
        cases r.finish? with
        | none => rfl
        | some tokens => exact h.scan_tokens tokens

theorem Reader.IsPast.finish?_ne_nil {r : Reader} (h : r.IsPast) {tokens : List Token}
    (hfinish : r.finish? = some tokens) : tokens ≠ [] := by
  rintro rfl
  obtain ⟨mode, done⟩ := r
  cases mode with
  | between =>
      rcases h with ⟨-, hdone⟩ | hinside
      · exact hdone (List.reverse_eq_nil_iff.1 (Option.some.inj hfinish))
      · exact hinside.inside rfl
  | number lexeme part =>
      unfold Reader.finish? at hfinish
      simp only at hfinish
      split at hfinish
      · exact List.reverse_ne_nil_iff.2 (List.cons_ne_nil _ _) (Option.some.inj hfinish)
      · cases hfinish
  | string | escape | hex | word => cases hfinish

theorem run_spaces {s : Bytes} (h : s.all isSpace = true) :
    Reader.run ⟨.between, []⟩ s = some ⟨.between, []⟩ := by
  induction s with
  | nil => rfl
  | cons b rest ih =>
      rw [List.all_cons, Bool.and_eq_true] at h
      have hstep : Reader.step ⟨.between, []⟩ b = some ⟨.between, []⟩ := if_pos h.1
      rw [Reader.run, hstep]
      exact ih h.2

/-- Spaces have no tokens. -/
theorem scan_spaces {s : Bytes} (h : s.all isSpace = true) : scan s = some [] := by
  rw [scan, run_spaces h]
  rfl

/-- What is not all spaces has tokens, if it can be scanned. -/
theorem ne_nil_of_scan {s : Bytes} {tokens : List Token} (h : scan s = some tokens)
    (hs : s.all isSpace = false) : tokens ≠ [] := by
  obtain ⟨r, hrun, hfinish⟩ := Option.bind_eq_some_iff.1 h
  rcases run_start hrun with ⟨hspaces, -⟩ | ⟨-, hpast⟩
  · rw [hspaces] at hs
    cases hs
  · exact hpast.finish?_ne_nil hfinish

/-! ## Building -/

/-- A container is open wherever a value has still to come. -/
def Builder.IsNested (b : Builder) : Prop :=
  match b.expects with
  | .value | .valueOrClose | .colon => b.frames ≠ []
  | _ => True

theorem isNested_complete (frames : List Frame) (v : Value) : (complete frames v).IsNested := by
  cases frames with
  | nil => trivial
  | cons frame outer =>
      cases frame with
      | array items => trivial
      | object members name => trivial

theorem isNested_stepValue {frames : List Frame} {t : Token} {b : Builder}
    (h : stepValue frames t = some b) : b.IsNested := by
  cases t with
  | null | bool | number | string =>
      cases h
      exact isNested_complete _ _
  | openArray =>
      cases h
      exact List.cons_ne_nil _ _
  | openObject =>
      cases h
      trivial
  | closeArray | closeObject | comma | colon => cases h

theorem Builder.IsNested.step {b b' : Builder} {t : Token} (hstep : b.step t = some b')
    (h : b.expects = .colon → b.frames ≠ []) : b'.IsNested := by
  obtain ⟨frames, expects⟩ := b
  unfold Builder.step at hstep
  cases expects with
  | value => exact isNested_stepValue hstep
  | valueOrClose =>
      simp only at hstep
      split at hstep
      · cases hstep
        exact isNested_complete _ _
      · exact isNested_stepValue hstep
  | nameOrClose members =>
      cases t <;> cases hstep
      · exact isNested_complete _ _
      · exact List.cons_ne_nil _ _
  | name members =>
      cases t <;> cases hstep
      exact List.cons_ne_nil _ _
  | colon =>
      cases t <;> cases hstep
      exact h rfl
  | commaOrClose =>
      simp only at hstep
      split at hstep
      · cases hstep
        exact List.cons_ne_nil _ _
      · cases hstep
        exact isNested_complete _ _
      · cases hstep
        trivial
      · cases hstep
        exact isNested_complete _ _
      · cases hstep
  | nothing v => cases hstep

theorem Builder.IsNested.run {b b' : Builder} (h : b.IsNested) {tokens : List Token}
    (hrun : b.run tokens = some b') : b'.IsNested := by
  induction tokens generalizing b with
  | nil =>
      cases hrun
      exact h
  | cons t rest ih =>
      unfold Builder.run at hrun
      split at hrun
      · next next hstep =>
          apply ih _ hrun
          apply Builder.IsNested.step hstep
          intro hcolon
          unfold Builder.IsNested at h
          rwa [hcolon] at h
      · cases hrun

/-- After a first token no value stands by itself any more. -/
theorem isNested_run {tokens : List Token} (h : tokens ≠ []) {b : Builder}
    (hrun : Builder.run ⟨[], .value⟩ tokens = some b) : b.IsNested := by
  cases tokens with
  | nil => exact absurd rfl h
  | cons t rest =>
      unfold Builder.run at hrun
      split at hrun
      · next hstep => exact (Builder.IsNested.step hstep fun h => Expectation.noConfusion h).run hrun
      · cases hrun

/-- In an open container the tokens of a value do not come to a result. -/
theorem ne_nothing_of_complete {frames : List Frame} (h : frames ≠ []) (v result : Value) :
    (complete frames v).expects ≠ .nothing result := by
  cases frames with
  | nil => exact absurd rfl h
  | cons frame outer =>
      cases frame with
      | array items => exact Expectation.noConfusion
      | object members name => exact Expectation.noConfusion

/-- The tokens of an object begin with an opening brace. -/
theorem tokens_object (members : List (List Piece × Value)) :
    ∃ rest, (Value.object members).tokens = .openObject :: rest := by
  cases members with
  | nil => exact ⟨_, rfl⟩
  | cons m more => exact ⟨_, rfl⟩

/-- No object stands behind a first token. -/
theorem ofTokens?_append {tokens : List Token} (h : tokens ≠ [])
    (members : List (List Piece × Value)) :
    Value.ofTokens? (tokens ++ (Value.object members).tokens) = none := by
  have hnone : ∀ b', Builder.run ⟨[], .value⟩ (tokens ++ (Value.object members).tokens) =
      some b' → ∀ v, b'.expects ≠ .nothing v := by
    intro b' hrun v
    rw [builder_run_append] at hrun
    obtain ⟨b, hbefore, hobject⟩ := Option.bind_eq_some_iff.1 hrun
    have hnested := isNested_run h hbefore
    obtain ⟨frames, expects⟩ := b
    obtain ⟨rest, htokens⟩ := tokens_object members
    cases expects with
    | value =>
        rw [run_tokens] at hobject
        cases hobject
        exact ne_nothing_of_complete hnested _ v
    | valueOrClose =>
        rw [run_first_tokens, run_tokens] at hobject
        cases hobject
        exact ne_nothing_of_complete hnested _ v
    | nameOrClose | name | colon | nothing =>
        rw [htokens] at hobject
        cases hobject
    | commaOrClose =>
        rw [htokens] at hobject
        cases frames with
        | nil => cases hobject
        | cons frame outer =>
            cases frame with
            | array items => cases hobject
            | object members name => cases hobject
  unfold Value.ofTokens?
  split
  · next frames v hrun => exact absurd rfl (hnone _ hrun v)
  · rfl

/-- Behind other bytes an object is read only if these are spaces. -/
theorem Value.IsNamed.parse?_append {v : Value} (h : v.IsNamed) (s : Bytes) :
    Value.parse? (s ++ v.compact) = if s.all isSpace then some v else none := by
  rw [Value.parse?, h.scan_append]
  cases hs : s.all isSpace with
  | true =>
      rw [scan_spaces hs, if_pos rfl]
      show Value.ofTokens? v.tokens = some v
      rw [Value.ofTokens?, run_tokens]
      rfl
  | false =>
      rw [if_neg Bool.false_ne_true]
      cases hscan : scan s with
      | none => rfl
      | some tokens =>
          obtain ⟨members, rfl⟩ := h.object
          exact ofTokens?_append (ne_nil_of_scan hscan hs) members

end Tarpit.Json
