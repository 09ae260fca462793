import Tarpit.Number.Decimal
import Tarpit.Text.Utf8

/-!
# JSON values

A value keeps its strings and numbers as they were written, so that a value can
be read without a decision about texts and numbers that nobody looks at.
-/

namespace Tarpit.Json

/-- A piece of a string: a byte as it stands, or the number of a `\u` escape past ASCII. -/
inductive Piece where
  | byte (b : UInt8)
  | unit (n : Nat)
  deriving DecidableEq, Repr

/-- A JSON value. -/
inductive Value where
  | null
  | bool (b : Bool)
  | number (lexeme : Bytes)
  | string (content : List Piece)
  | array (items : List Value)
  | object (members : List (List Piece × Value))
  deriving Repr

/-! ## Texts -/

def surrogatePair? (high low : Nat) : Option Char :=
  if 0xD800 ≤ high ∧ high < 0xDC00 ∧ 0xDC00 ≤ low ∧ low < 0xE000 then
    Text.Utf8.scalar? 0x10000 (0x10000 + (high - 0xD800) * 1024 + (low - 0xDC00))
  else none

/-- The bytes of a string's text; a surrogate without its partner has none. -/
def pieceBytes? : List Piece → Option Bytes
  | [] => some []
  | .byte b :: rest => (pieceBytes? rest).map (b :: ·)
  | .unit n :: rest =>
      match Text.Utf8.scalar? 0 n with
      | some c => (pieceBytes? rest).map (Text.Utf8.encodeChar c ++ ·)
      | none =>
          match rest with
          | .unit low :: rest' =>
              match surrogatePair? n low with
              | some c => (pieceBytes? rest').map (Text.Utf8.encodeChar c ++ ·)
              | none => none
          | _ => none

/-- The text of a string, if it has one. -/
def pieceText? (content : List Piece) : Option String :=
  (pieceBytes? content).bind Text.Utf8.text?

/-- A text as the content of a string. -/
def textPieces (s : String) : List Piece :=
  (Text.Utf8.bytes s).map Piece.byte

def Value.text (s : String) : Value :=
  .string (textPieces s)

def Value.text? : Value → Option String
  | .string content => pieceText? content
  | _ => none

/-- The members of an object with their names as texts. -/
def namedMembers? (members : List (List Piece × Value)) : Option (List (String × Value)) :=
  members.mapM fun m => (pieceText? m.1).map fun name => (name, m.2)

def Value.ofMembers (members : List (String × Value)) : Value :=
  .object (members.map fun m => (textPieces m.1, m.2))

/-! ## Counts -/

def Value.count (n : Nat) : Value :=
  .number (Text.Utf8.encode (Number.digits n))

/-- The count below `2 ^ 64` that a number value is: digits alone, no sign, point or exponent. -/
def Value.count? : Value → Option Nat
  | .number lexeme => Number.naturalBelow? Number.wordBound (Text.asciiChars lexeme)
  | _ => none

theorem pieceBytes?_map_byte (s : Bytes) : pieceBytes? (s.map Piece.byte) = some s := by
  induction s with
  | nil => rfl
  | cons b rest ih => simp [pieceBytes?, ih]

theorem pieceBytes?_textPieces (s : String) :
    pieceBytes? (textPieces s) = some (Text.Utf8.bytes s) := by
  exact pieceBytes?_map_byte _

end Tarpit.Json
