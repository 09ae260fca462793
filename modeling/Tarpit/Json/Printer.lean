import Tarpit.Json.Value

/-!
# Writing JSON

Two written forms of a value: without any space, and with one entry a line and
two spaces for every container around it.
-/

namespace Tarpit.Json

def hexByte (n : Nat) : UInt8 :=
  if n < 10 then (0x30 + n).toUInt8 else (0x61 + (n - 10)).toUInt8

/-- A number of at most sixteen bits as a `\u` escape. -/
def unitEscape (n : Nat) : Bytes :=
  [0x5C, 0x75, hexByte (n / 4096 % 16), hexByte (n / 256 % 16), hexByte (n / 16 % 16),
    hexByte (n % 16)]

/-- What is written for one piece of a string. -/
def pieceForm : Piece → Bytes
  | .unit n => unitEscape n
  | .byte b =>
      if b = 0x22 ∨ b = 0x5C then [0x5C, b]
      else if b = 0x08 then [0x5C, 0x62]
      else if b = 0x09 then [0x5C, 0x74]
      else if b = 0x0A then [0x5C, 0x6E]
      else if b = 0x0C then [0x5C, 0x66]
      else if b = 0x0D then [0x5C, 0x72]
      else if b < 0x20 then unitEscape b.toNat
      else [b]

def stringForm (content : List Piece) : Bytes :=
  0x22 :: content.flatMap pieceForm ++ [0x22]

/-- The two written forms: `none` is compact, `some depth` indents entries. -/
abbrev Layout := Option Nat

/-- The end of a line with the indentation of the next one; nothing in the compact form. -/
def Layout.newline : Layout → Bytes
  | none => []
  | some depth => 0x0A :: List.replicate (2 * depth) 0x20

def Layout.deeper : Layout → Layout
  | none => none
  | some depth => some (depth + 1)

/-- What stands between a name and its value. -/
def Layout.colon : Layout → Bytes
  | none => [0x3A]
  | some _ => [0x3A, 0x20]

mutual

def Value.form (layout : Layout) : Value → Bytes
  | .null => [0x6E, 0x75, 0x6C, 0x6C]
  | .bool true => [0x74, 0x72, 0x75, 0x65]
  | .bool false => [0x66, 0x61, 0x6C, 0x73, 0x65]
  | .number lexeme => lexeme
  | .string content => stringForm content
  | .array [] => [0x5B, 0x5D]
  | .array (v :: rest) =>
      0x5B :: layout.deeper.newline ++ v.form layout.deeper ++ itemsForm layout.deeper rest ++
        layout.newline ++ [0x5D]
  | .object [] => [0x7B, 0x7D]
  | .object (m :: rest) =>
      0x7B :: layout.deeper.newline ++ stringForm m.1 ++ layout.deeper.colon ++
        m.2.form layout.deeper ++ membersForm layout.deeper rest ++ layout.newline ++ [0x7D]

/-- The items of an array after the first one. -/
def itemsForm (layout : Layout) : List Value → Bytes
  | [] => []
  | v :: rest => 0x2C :: layout.newline ++ v.form layout ++ itemsForm layout rest

/-- The members of an object after the first one. -/
def membersForm (layout : Layout) : List (List Piece × Value) → Bytes
  | [] => []
  | m :: rest =>
      0x2C :: layout.newline ++ stringForm m.1 ++ layout.colon ++ m.2.form layout ++
        membersForm layout rest

end

def Value.compact (v : Value) : Bytes :=
  v.form none

def Value.pretty (v : Value) : Bytes :=
  v.form (some 0)

end Tarpit.Json
