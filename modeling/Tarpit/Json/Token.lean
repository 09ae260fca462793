import Tarpit.Json.Value

/-!
# JSON tokens

Reading bytes as tokens, one byte after the other.  What a token still needs is
the state of the reader, so reading a text in two parts is reading the second
part from the state after the first.
-/

namespace Tarpit.Json

/-- A token of a JSON text. -/
inductive Token where
  | openArray
  | closeArray
  | openObject
  | closeObject
  | comma
  | colon
  | null
  | bool (b : Bool)
  | number (lexeme : Bytes)
  | string (content : List Piece)
  deriving DecidableEq, Repr

/-- How far a number has come. -/
inductive NumberPart where
  | minus
  | zero
  | whole
  | point
  | places
  | exponent
  | exponentSign
  | exponentDigits
  deriving DecidableEq, Repr

def NumberPart.mayEnd : NumberPart → Bool
  | .zero | .whole | .places | .exponentDigits => true
  | _ => false

def isDigitByte (b : UInt8) : Bool :=
  0x30 ≤ b && b ≤ 0x39

/-- The part of a number that a byte leads to, if the byte carries the number on. -/
def NumberPart.next? (p : NumberPart) (b : UInt8) : Option NumberPart :=
  match p with
  | .minus => if b = 0x30 then some .zero else if isDigitByte b then some .whole else none
  | .zero => afterWhole b
  | .whole => if isDigitByte b then some .whole else afterWhole b
  | .point => if isDigitByte b then some .places else none
  | .places => if isDigitByte b then some .places else afterPlaces b
  | .exponent =>
      if b = 0x2B ∨ b = 0x2D then some .exponentSign
      else if isDigitByte b then some .exponentDigits else none
  | .exponentSign | .exponentDigits => if isDigitByte b then some .exponentDigits else none
where
  /-- An exponent may follow. -/
  afterPlaces (b : UInt8) : Option NumberPart :=
    if b = 0x65 ∨ b = 0x45 then some .exponent else none
  /-- A point or an exponent may follow. -/
  afterWhole (b : UInt8) : Option NumberPart :=
    if b = 0x2E then some .point else afterPlaces b

/-- What the reader is in the middle of.  Contents and lexemes stand in reverse. -/
inductive Mode where
  | between
  | string (content : List Piece)
  | escape (content : List Piece)
  | hex (content : List Piece) (missing value : Nat)
  | number (lexeme : Bytes) (part : NumberPart)
  | word (missing : Bytes) (token : Token)
  deriving DecidableEq, Repr

/-- The reader: what it is in the middle of, and the tokens so far in reverse. -/
structure Reader where
  mode : Mode
  tokens : List Token
  deriving DecidableEq, Repr

def isSpace (b : UInt8) : Bool :=
  b == 0x20 || b == 0x09 || b == 0x0A || b == 0x0D

def stepBetween (tokens : List Token) (b : UInt8) : Option Reader :=
  if isSpace b then some ⟨.between, tokens⟩
  else if b = 0x5B then some ⟨.between, .openArray :: tokens⟩
  else if b = 0x5D then some ⟨.between, .closeArray :: tokens⟩
  else if b = 0x7B then some ⟨.between, .openObject :: tokens⟩
  else if b = 0x7D then some ⟨.between, .closeObject :: tokens⟩
  else if b = 0x2C then some ⟨.between, .comma :: tokens⟩
  else if b = 0x3A then some ⟨.between, .colon :: tokens⟩
  else if b = 0x22 then some ⟨.string [], tokens⟩
  else if b = 0x2D then some ⟨.number [b] .minus, tokens⟩
  else if b = 0x30 then some ⟨.number [b] .zero, tokens⟩
  else if isDigitByte b then some ⟨.number [b] .whole, tokens⟩
  else if b = 0x6E then some ⟨.word [0x75, 0x6C, 0x6C] .null, tokens⟩
  else if b = 0x74 then some ⟨.word [0x72, 0x75, 0x65] (.bool true), tokens⟩
  else if b = 0x66 then some ⟨.word [0x61, 0x6C, 0x73, 0x65] (.bool false), tokens⟩
  else none

/-- The byte that a one-letter escape stands for. -/
def escapedByte? (b : UInt8) : Option UInt8 :=
  if b = 0x22 ∨ b = 0x5C ∨ b = 0x2F then some b
  else if b = 0x62 then some 0x08
  else if b = 0x66 then some 0x0C
  else if b = 0x6E then some 0x0A
  else if b = 0x72 then some 0x0D
  else if b = 0x74 then some 0x09
  else none

/-- The value of a hexadecimal digit of either case. -/
def hexValue? (b : UInt8) : Option Nat :=
  if isDigitByte b then some (b.toNat - 0x30)
  else if 0x61 ≤ b ∧ b ≤ 0x66 then some (b.toNat - 0x61 + 10)
  else if 0x41 ≤ b ∧ b ≤ 0x46 then some (b.toNat - 0x41 + 10)
  else none

/-- The piece of a `\u` escape; in the ASCII range it is the byte itself. -/
def escapePiece (n : Nat) : Piece :=
  if n < 0x80 then .byte n.toUInt8 else .unit n

def Reader.step (r : Reader) (b : UInt8) : Option Reader :=
  match r.mode with
  | .between => stepBetween r.tokens b
  | .string content =>
      if b = 0x22 then some ⟨.between, .string content.reverse :: r.tokens⟩
      else if b = 0x5C then some ⟨.escape content, r.tokens⟩
      else if b < 0x20 then none
      else some ⟨.string (.byte b :: content), r.tokens⟩
  | .escape content =>
      if b = 0x75 then some ⟨.hex content 4 0, r.tokens⟩
      else (escapedByte? b).map fun d => ⟨.string (.byte d :: content), r.tokens⟩
  | .hex content missing value =>
      match hexValue? b with
      | none => none
      | some digit =>
          let value := value * 16 + digit
          if missing ≤ 1 then some ⟨.string (escapePiece value :: content), r.tokens⟩
          else some ⟨.hex content (missing - 1) value, r.tokens⟩
  | .number lexeme part =>
      match part.next? b with
      | some part => some ⟨.number (b :: lexeme) part, r.tokens⟩
      | none =>
          if part.mayEnd then stepBetween (.number lexeme.reverse :: r.tokens) b else none
  | .word missing token =>
      match missing with
      | [] => none
      | [c] => if b = c then some ⟨.between, token :: r.tokens⟩ else none
      | c :: more => if b = c then some ⟨.word more token, r.tokens⟩ else none

def Reader.run (r : Reader) : Bytes → Option Reader
  | [] => some r
  | b :: rest =>
      match r.step b with
      | some r => r.run rest
      | none => none

def Reader.finish? (r : Reader) : Option (List Token) :=
  match r.mode with
  | .between => some r.tokens.reverse
  | .number lexeme part =>
      if part.mayEnd then some (.number lexeme.reverse :: r.tokens).reverse else none
  | _ => none

def scan (s : Bytes) : Option (List Token) :=
  (Reader.run ⟨.between, []⟩ s).bind Reader.finish?

theorem run_append (r : Reader) (s t : Bytes) :
    r.run (s ++ t) = (r.run s).bind fun r' => r'.run t := by
  induction s generalizing r with
  | nil => rfl
  | cons b rest ih =>
      simp only [List.cons_append, Reader.run]
      cases r.step b with
      | none => rfl
      | some r' => exact ih r'

end Tarpit.Json
