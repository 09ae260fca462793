import Tarpit.Json.Builder
import Tarpit.Json.Member
import Tarpit.Proofs.Json.Scan
import Tarpit.Proofs.Lookup
import Tarpit.Proofs.Text.Utf8

/-!
# Reading written values

In either layout the written form of a value is read back as the value.
-/

namespace Tarpit.Json

/-! ## Values as tokens -/

mutual

def Value.tokens : Value → List Token
  | .null => [.null]
  | .bool b => [.bool b]
  | .number lexeme => [.number lexeme]
  | .string content => [.string content]
  | .array [] => [.openArray, .closeArray]
  | .array (v :: rest) => .openArray :: v.tokens ++ itemsTokens rest ++ [.closeArray]
  | .object [] => [.openObject, .closeObject]
  | .object (m :: rest) =>
      .openObject :: .string m.1 :: .colon :: m.2.tokens ++ membersTokens rest ++ [.closeObject]

def itemsTokens : List Value → List Token
  | [] => []
  | v :: rest => .comma :: v.tokens ++ itemsTokens rest

def membersTokens : List (List Piece × Value) → List Token
  | [] => []
  | m :: rest => .comma :: .string m.1 :: .colon :: m.2.tokens ++ membersTokens rest

end

/-- The reader takes the bytes as one number. -/
def IsLexeme (s : Bytes) : Prop :=
  ∃ part, NumberPart.mayEnd part = true ∧
    ∀ tokens, Reader.run ⟨.between, tokens⟩ s = some ⟨.number s.reverse part, tokens⟩

mutual

/-- The value can be the result of a reading. -/
def Value.IsRead : Value → Prop
  | .null => True
  | .bool _ => True
  | .number lexeme => IsLexeme lexeme
  | .string content => ∀ p ∈ content, p.IsRead
  | .array items => ItemsRead items
  | .object members => MembersRead members

def ItemsRead : List Value → Prop
  | [] => True
  | v :: rest => v.IsRead ∧ ItemsRead rest

def MembersRead : List (List Piece × Value) → Prop
  | [] => True
  | m :: rest => (∀ p ∈ m.1, p.IsRead) ∧ m.2.IsRead ∧ MembersRead rest

end

/-! ## Scanning -/

/-- The tokens of a text that a reader comes to the end of. -/
def Reader.scan (r : Reader) (s : Bytes) : Option (List Token) :=
  (r.run s).bind Reader.finish?

/-- What follows ends a number before it. -/
def endsNumber : Bytes → Bool
  | [] => true
  | b :: _ => b == 0x2C || b == 0x5D || b == 0x7D || b == 0x0A

theorem next?_of_endsNumber {rest : Bytes} (h : endsNumber rest = true) (part : NumberPart) :
    ∀ b, rest.head? = some b → part.next? b = none := by
  intro b hb
  cases rest with
  | nil => cases hb
  | cons c rest =>
      cases hb
      simp only [endsNumber, Bool.or_eq_true, beq_iff_eq] at h
      rcases h with ((rfl | rfl) | rfl) | rfl
      · cases part <;> rfl
      · cases part <;> rfl
      · cases part <;> rfl
      · cases part <;> rfl

/-- A number is complete as soon as nothing carries it on. -/
theorem scan_number {part : NumberPart} (hpart : part.mayEnd = true) {rest : Bytes}
    (hrest : ∀ b, rest.head? = some b → part.next? b = none) (lexeme : Bytes)
    (tokens : List Token) :
    Reader.scan ⟨.number lexeme part, tokens⟩ rest =
      Reader.scan ⟨.between, .number lexeme.reverse :: tokens⟩ rest := by
  cases rest with
  | nil =>
      show (if part.mayEnd then _ else _) = _
      rw [if_pos hpart]
      rfl
  | cons b rest => simp only [Reader.scan, Reader.run, Reader.step, hrest b rfl, hpart, if_true]

theorem scan_newline (layout : Layout) (tokens : List Token) (rest : Bytes) :
    Reader.scan ⟨.between, tokens⟩ (layout.newline ++ rest) =
      Reader.scan ⟨.between, tokens⟩ rest := by
  cases layout with
  | none => rfl
  | some depth =>
      show Reader.scan ⟨.between, tokens⟩ (List.replicate (2 * depth) 0x20 ++ rest) = _
      induction 2 * depth with
      | zero => rfl
      | succ n ih => exact ih

theorem endsNumber_newline (layout : Layout) {b : UInt8} {rest : Bytes}
    (h : endsNumber (b :: rest) = true) : endsNumber (layout.newline ++ b :: rest) = true := by
  cases layout with
  | none => exact h
  | some depth => rfl

theorem endsNumber_itemsForm (layout : Layout) (items : List Value) {rest : Bytes}
    (h : endsNumber rest = true) : endsNumber (itemsForm layout items ++ rest) = true := by
  cases items with
  | nil => exact h
  | cons v more => rfl

theorem endsNumber_membersForm (layout : Layout) (members : List (List Piece × Value))
    {rest : Bytes} (h : endsNumber rest = true) :
    endsNumber (membersForm layout members ++ rest) = true := by
  cases members with
  | nil => exact h
  | cons m more => rfl

theorem scan_stringForm (tokens : List Token) {content : List Piece}
    (h : ∀ p ∈ content, p.IsRead) (rest : Bytes) :
    Reader.scan ⟨.between, tokens⟩ (stringForm content ++ rest) =
      Reader.scan ⟨.between, .string content :: tokens⟩ rest := by
  rw [Reader.scan, run_stringForm tokens h]
  rfl

theorem scan_colon (layout : Layout) (tokens : List Token) (rest : Bytes) :
    Reader.scan ⟨.between, tokens⟩ (layout.colon ++ rest) =
      Reader.scan ⟨.between, .colon :: tokens⟩ rest := by
  cases layout with
  | none => rfl
  | some depth => rfl

mutual

theorem scan_form (layout : Layout) (v : Value) (h : v.IsRead) (tokens : List Token)
    {rest : Bytes} (hrest : endsNumber rest = true) :
    Reader.scan ⟨.between, tokens⟩ (v.form layout ++ rest) =
      Reader.scan ⟨.between, v.tokens.reverse ++ tokens⟩ rest := by
  match v with
  | .null => rfl
  | .bool true => rfl
  | .bool false => rfl
  | .number lexeme =>
      obtain ⟨part, hpart, hrun⟩ := h
      have hscan : Reader.scan ⟨.between, tokens⟩ (lexeme ++ rest) =
          Reader.scan ⟨.number lexeme.reverse part, tokens⟩ rest := by
        rw [Reader.scan, run_append, hrun]
        rfl
      show Reader.scan ⟨.between, tokens⟩ (lexeme ++ rest) = _
      rw [hscan, scan_number hpart (next?_of_endsNumber hrest part), List.reverse_reverse]
      rfl
  | .string content => exact scan_stringForm tokens h rest
  | .array [] => rfl
  | .array (v :: more) =>
      have hend : endsNumber (layout.newline ++ 0x5D :: rest) = true :=
        endsNumber_newline layout rfl
      have hform : (Value.array (v :: more)).form layout ++ rest =
          0x5B :: (layout.deeper.newline ++ (v.form layout.deeper ++
            (itemsForm layout.deeper more ++ (layout.newline ++ 0x5D :: rest)))) := by
        simp [Value.form]
      rw [hform]
      show Reader.scan ⟨.between, .openArray :: tokens⟩ _ = _
      rw [scan_newline, scan_form layout.deeper v h.1 _ (endsNumber_itemsForm _ more hend),
        scan_itemsForm layout.deeper more h.2 _ hend, scan_newline]
      show Reader.scan ⟨.between, .closeArray :: _⟩ rest = _
      simp [Value.tokens]
  | .object [] => rfl
  | .object (m :: more) =>
      have hend : endsNumber (layout.newline ++ 0x7D :: rest) = true :=
        endsNumber_newline layout rfl
      have hform : (Value.object (m :: more)).form layout ++ rest =
          0x7B :: (layout.deeper.newline ++ (stringForm m.1 ++ (layout.deeper.colon ++
            (m.2.form layout.deeper ++ (membersForm layout.deeper more ++
              (layout.newline ++ 0x7D :: rest)))))) := by
        simp [Value.form]
      rw [hform]
      show Reader.scan ⟨.between, .openObject :: tokens⟩ _ = _
      rw [scan_newline, scan_stringForm _ h.1, scan_colon,
        scan_form layout.deeper m.2 h.2.1 _ (endsNumber_membersForm _ more hend),
        scan_membersForm layout.deeper more h.2.2 _ hend, scan_newline]
      show Reader.scan ⟨.between, .closeObject :: _⟩ rest = _
      simp [Value.tokens]

theorem scan_itemsForm (layout : Layout) (items : List Value) (h : ItemsRead items)
    (tokens : List Token) {rest : Bytes} (hrest : endsNumber rest = true) :
    Reader.scan ⟨.between, tokens⟩ (itemsForm layout items ++ rest) =
      Reader.scan ⟨.between, (itemsTokens items).reverse ++ tokens⟩ rest := by
  match items with
  | [] => rfl
  | v :: more =>
      have hform : itemsForm layout (v :: more) ++ rest =
          0x2C :: (layout.newline ++ (v.form layout ++ (itemsForm layout more ++ rest))) := by
        simp [itemsForm]
      rw [hform]
      show Reader.scan ⟨.between, .comma :: tokens⟩ _ = _
      rw [scan_newline, scan_form layout v h.1 _ (endsNumber_itemsForm _ more hrest),
        scan_itemsForm layout more h.2 _ hrest]
      simp [itemsTokens]

theorem scan_membersForm (layout : Layout) (members : List (List Piece × Value))
    (h : MembersRead members) (tokens : List Token) {rest : Bytes}
    (hrest : endsNumber rest = true) :
    Reader.scan ⟨.between, tokens⟩ (membersForm layout members ++ rest) =
      Reader.scan ⟨.between, (membersTokens members).reverse ++ tokens⟩ rest := by
  match members with
  | [] => rfl
  | m :: more =>
      have hform : membersForm layout (m :: more) ++ rest =
          0x2C :: (layout.newline ++ (stringForm m.1 ++ (layout.colon ++ (m.2.form layout ++
            (membersForm layout more ++ rest))))) := by
        simp [membersForm]
      rw [hform]
      show Reader.scan ⟨.between, .comma :: tokens⟩ _ = _
      rw [scan_newline, scan_stringForm _ h.1, scan_colon,
        scan_form layout m.2 h.2.1 _ (endsNumber_membersForm _ more hrest),
        scan_membersForm layout more h.2.2 _ hrest]
      simp [membersTokens]

end

/-! ## Building -/

/-- No value begins with the end of an array, so the place of a first item is any value's place. -/
theorem run_first_tokens (frames : List Frame) (v : Value) :
    Builder.run ⟨frames, .valueOrClose⟩ v.tokens = Builder.run ⟨frames, .value⟩ v.tokens := by
  match v with
  | .null => rfl
  | .bool b => rfl
  | .number lexeme => rfl
  | .string content => rfl
  | .array [] => rfl
  | .array (v :: more) => rfl
  | .object [] => rfl
  | .object (m :: more) => rfl

mutual

/-- Where a value may come, the tokens of a value complete it. -/
theorem run_tokens (frames : List Frame) (v : Value) :
    Builder.run ⟨frames, .value⟩ v.tokens = some (complete frames v) := by
  match v with
  | .null => rfl
  | .bool b => rfl
  | .number lexeme => rfl
  | .string content => rfl
  | .array [] => rfl
  | .array (v :: more) =>
      have htokens : (Value.array (v :: more)).tokens =
          .openArray :: (v.tokens ++ (itemsTokens more ++ [.closeArray])) := by
        simp [Value.tokens]
      rw [htokens]
      show Builder.run ⟨.array [] :: frames, .valueOrClose⟩ _ = _
      rw [builder_run_append, run_first_tokens, run_tokens, Option.bind_some]
      show Builder.run ⟨.array [v] :: frames, .commaOrClose⟩ _ = _
      rw [builder_run_append, run_itemsTokens, Option.bind_some]
      show some (complete frames (.array (more.reverse ++ [v]).reverse)) = _
      rw [List.reverse_append, List.reverse_reverse, List.reverse_singleton, List.singleton_append]
  | .object [] => rfl
  | .object (m :: more) =>
      have htokens : (Value.object (m :: more)).tokens =
          .openObject :: .string m.1 :: .colon ::
            (m.2.tokens ++ (membersTokens more ++ [.closeObject])) := by
        simp [Value.tokens]
      rw [htokens]
      show Builder.run ⟨.object [] m.1 :: frames, .value⟩ _ = _
      rw [builder_run_append, run_tokens, Option.bind_some]
      show Builder.run ⟨.object [m] [] :: frames, .commaOrClose⟩ _ = _
      rw [builder_run_append, run_membersTokens, Option.bind_some]
      show some (complete frames (.object (more.reverse ++ [m]).reverse)) = _
      rw [List.reverse_append, List.reverse_reverse, List.reverse_singleton, List.singleton_append]

theorem run_itemsTokens (frames : List Frame) (items done : List Value) :
    Builder.run ⟨.array done :: frames, .commaOrClose⟩ (itemsTokens items) =
      some ⟨.array (items.reverse ++ done) :: frames, .commaOrClose⟩ := by
  match items with
  | [] => rfl
  | v :: more =>
      rw [itemsTokens]
      show Builder.run ⟨.array done :: frames, .value⟩ (v.tokens ++ itemsTokens more) = _
      rw [builder_run_append, run_tokens, Option.bind_some]
      show Builder.run ⟨.array (v :: done) :: frames, .commaOrClose⟩ _ = _
      rw [run_itemsTokens, List.reverse_cons, List.append_assoc, List.singleton_append]

theorem run_membersTokens (frames : List Frame) (members done : List (List Piece × Value)) :
    Builder.run ⟨.object done [] :: frames, .commaOrClose⟩ (membersTokens members) =
      some ⟨.object (members.reverse ++ done) [] :: frames, .commaOrClose⟩ := by
  match members with
  | [] => rfl
  | m :: more =>
      rw [membersTokens]
      show Builder.run ⟨.object done m.1 :: frames, .value⟩ (m.2.tokens ++ membersTokens more) = _
      rw [builder_run_append, run_tokens, Option.bind_some]
      show Builder.run ⟨.object (m :: done) [] :: frames, .commaOrClose⟩ _ = _
      rw [run_membersTokens, List.reverse_cons, List.append_assoc, List.singleton_append]

end

/-- The written form of a value is read back as the value. -/
theorem parse?_form (layout : Layout) {v : Value} (h : v.IsRead) :
    Value.parse? (v.form layout) = some v := by
  have hscan : scan (v.form layout) = some v.tokens := by
    have hform := scan_form layout v h [] (show endsNumber [] = true from rfl)
    rw [List.append_nil, List.append_nil] at hform
    show Reader.scan ⟨.between, []⟩ (v.form layout) = _
    rw [hform]
    show some v.tokens.reverse.reverse = _
    rw [List.reverse_reverse]
  rw [Value.parse?, hscan, Option.bind_some, Value.ofTokens?, run_tokens]
  rfl

/-! ## Texts and members -/

theorem isRead_textPieces (s : String) : ∀ p ∈ textPieces s, p.IsRead := by
  intro p hp
  obtain ⟨b, -, rfl⟩ := List.mem_map.1 hp
  trivial

theorem pieceText?_textPieces (s : String) : pieceText? (textPieces s) = some s := by
  rw [pieceText?, pieceBytes?_textPieces, Option.bind_some, Text.Utf8.text?_bytes]

theorem text?_text (s : String) : (Value.text s).text? = some s :=
  pieceText?_textPieces s

theorem namedMembers?_map (members : List (String × Value)) :
    namedMembers? (members.map fun m => (textPieces m.1, m.2)) = some members := by
  apply mapM_map_eq_some
  intro m _
  rw [pieceText?_textPieces, Option.map_some]

end Tarpit.Json
