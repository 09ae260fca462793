/-!
# UTF-8

The bytes of a text and the strict reading of bytes as text: overlong forms,
surrogates and values past the last character are refused.
-/

namespace Tarpit

/-- What a file, a header value or a message body holds. -/
abbrev Bytes := List UInt8

def Text.asciiChars (s : Bytes) : List Char :=
  s.map fun b => Char.ofNat b.toNat

namespace Text.Utf8

def encodeChar (c : Char) : Bytes :=
  let n := c.toNat
  if n < 0x80 then [n.toUInt8]
  else if n < 0x800 then [(0xC0 + n / 64).toUInt8, (0x80 + n % 64).toUInt8]
  else if n < 0x10000 then
    [(0xE0 + n / 4096).toUInt8, (0x80 + n / 64 % 64).toUInt8, (0x80 + n % 64).toUInt8]
  else
    [(0xF0 + n / 262144).toUInt8, (0x80 + n / 4096 % 64).toUInt8,
      (0x80 + n / 64 % 64).toUInt8, (0x80 + n % 64).toUInt8]

def encode (s : List Char) : Bytes :=
  s.flatMap encodeChar

@[simp] theorem encode_nil : encode [] = [] := rfl

@[simp] theorem encode_cons (c : Char) (s : List Char) :
    encode (c :: s) = encodeChar c ++ encode s := by
  simp [encode]

@[simp] theorem encode_append (s t : List Char) :
    encode (s ++ t) = encode s ++ encode t := by
  simp [encode]

/-- The six bits that a continuation byte carries. -/
def continuation? (b : UInt8) : Option Nat :=
  if 0x80 ≤ b ∧ b < 0xC0 then some (b.toNat - 0x80) else none

/-- The character of a value that needs at least `least`. -/
def scalar? (least n : Nat) : Option Char :=
  if h : least ≤ n ∧ n.isValidChar then some (Char.ofNatAux n h.2) else none

/-- Reads bytes as text behind the characters read so far, which stand in reverse. -/
def decodeFrom (done : List Char) : Bytes → Option (List Char)
  | [] => some done.reverse
  | a :: rest =>
      if a < 0x80 then
        match scalar? 0 a.toNat with
        | some c => decodeFrom (c :: done) rest
        | none => none
      else if a < 0xC0 then none
      else if a < 0xE0 then
        match rest with
        | b :: rest =>
            match continuation? b with
            | some y =>
                match scalar? 0x80 ((a.toNat - 0xC0) * 64 + y) with
                | some c => decodeFrom (c :: done) rest
                | none => none
            | none => none
        | [] => none
      else if a < 0xF0 then
        match rest with
        | b :: c :: rest =>
            match continuation? b, continuation? c with
            | some y, some z =>
                match scalar? 0x800 (((a.toNat - 0xE0) * 64 + y) * 64 + z) with
                | some c => decodeFrom (c :: done) rest
                | none => none
            | _, _ => none
        | _ => none
      else
        match rest with
        | b :: c :: d :: rest =>
            match continuation? b, continuation? c, continuation? d with
            | some x, some y, some z =>
                match scalar? 0x10000 ((((a.toNat - 0xF0) * 64 + x) * 64 + y) * 64 + z) with
                | some c => decodeFrom (c :: done) rest
                | none => none
            | _, _, _ => none
        | _ => none

/-- The text that the bytes spell, if they spell one. -/
def decode (s : Bytes) : Option (List Char) :=
  decodeFrom [] s

def bytes (s : String) : Bytes :=
  encode s.toList

/-- The string that the bytes spell, if they spell one. -/
def text? (s : Bytes) : Option String :=
  (decode s).map String.ofList

end Text.Utf8

end Tarpit
