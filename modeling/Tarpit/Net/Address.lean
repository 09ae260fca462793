import Tarpit.Number.Decimal
import Tarpit.Number.Hexadecimal

/-!
# Internet addresses

Addresses of both versions, the many spellings they are read from, and the one
canonical spelling they are written in.
-/

namespace Tarpit.Net

open Tarpit.Number (digits naturalBelow? hexDigits hexadecimal?)

/-- The four bytes of an address of version 4. -/
structure Quad where
  first : UInt8
  second : UInt8
  third : UInt8
  fourth : UInt8
  deriving DecidableEq, Repr

/-- The eight groups of an address of version 6. -/
structure Groups where
  toList : List UInt16
  length_toList : toList.length = 8
  deriving DecidableEq, Repr

/-- An address of either version. -/
inductive Address where
  | v4 (quad : Quad)
  | v6 (groups : Groups)
  deriving DecidableEq, Repr

/-! ## Version 4 -/

/-- A byte in one to three digits; only zero itself starts with a zero. -/
def octet? (s : List Char) : Option UInt8 :=
  if s.length ≤ 3 ∧ (s.length = 1 ∨ s.head? ≠ some '0') then
    (naturalBelow? 256 s).map Nat.toUInt8
  else none

def Quad.of? (s : List Char) : Option Quad :=
  match (s.splitOn '.').map octet? with
  | [some a, some b, some c, some d] => some ⟨a, b, c, d⟩
  | _ => none

def Quad.chars (q : Quad) : List Char :=
  digits q.first.toNat ++ '.' :: digits q.second.toNat ++ '.' :: digits q.third.toNat ++
    '.' :: digits q.fourth.toNat

/-- The two groups that the four bytes are the end of an address of version 6 as. -/
def Quad.groups (q : Quad) : List UInt16 :=
  [(q.first.toNat * 256 + q.second.toNat).toUInt16,
    (q.third.toNat * 256 + q.fourth.toNat).toUInt16]

def Quad.ofGroups (high low : UInt16) : Quad :=
  ⟨(high.toNat / 256).toUInt8, (high.toNat % 256).toUInt8, (low.toNat / 256).toUInt8,
    (low.toNat % 256).toUInt8⟩

/-! ## Version 6 -/

/-- Eight groups, if the list has so many. -/
def Groups.ofList? (gs : List UInt16) : Option Groups :=
  if h : gs.length = 8 then some ⟨gs, h⟩ else none

/-- A group in one to four hexadecimal digits. -/
def group? (s : List Char) : Option UInt16 :=
  if s.length ≤ 4 then (hexadecimal? s).map Nat.toUInt16 else none

/-- The groups of some pieces.  Where `dotted` holds, the last piece may be four bytes. -/
def groupsOf? (dotted : Bool) : List (List Char) → Option (List UInt16)
  | [] => some []
  | [piece] =>
      match group? piece with
      | some g => some [g]
      | none => if dotted then (Quad.of? piece).map Quad.groups else none
  | piece :: rest =>
      match group? piece with
      | some g => (groupsOf? dotted rest).map (g :: ·)
      | none => none

/-- The groups of a text with colons between them; an empty text has none. -/
def groups? (dotted : Bool) (s : List Char) : Option (List UInt16) :=
  if s.isEmpty then some [] else groupsOf? dotted (s.splitOn ':')

/-- What stands before and after the first double colon, behind the characters seen so far. -/
def splitGapFrom (seen : List Char) : List Char → Option (List Char × List Char)
  | ':' :: ':' :: rest => some (seen.reverse, rest)
  | c :: rest => splitGapFrom (c :: seen) rest
  | [] => none

/-- What stands before and after the first double colon. -/
def splitGap? (s : List Char) : Option (List Char × List Char) :=
  splitGapFrom [] s

/-- Eight groups, where a double colon may stand for one zero group or more. -/
def Groups.of? (s : List Char) : Option Groups :=
  match splitGap? s with
  | none => (groups? true s).bind Groups.ofList?
  | some (left, right) =>
      match groups? false left, groups? true right with
      | some l, some r =>
          if l.length + r.length < 8 then
            Groups.ofList? (l ++ List.replicate (8 - l.length - r.length) 0 ++ r)
          else none
      | _, _ => none

/-- Where the longest run of zeros starts, and its length; of equals the first. -/
def longestZeros : List UInt16 → Nat × Nat
  | [] => (0, 0)
  | g :: rest =>
      let here := ((g :: rest).takeWhile (· == 0)).length
      let later := longestZeros rest
      if later.2 ≤ here then (0, here) else (later.1 + 1, later.2)

def joined (gs : List UInt16) : List Char :=
  [':'].intercalate (gs.map fun g => hexDigits g.toNat)

def Groups.chars (g : Groups) : List Char :=
  match g.toList with
  | [0, 0, 0, 0, 0, 0xFFFF, high, low] => "::ffff:".toList ++ (Quad.ofGroups high low).chars
  | gs =>
      let run := longestZeros gs
      if 2 ≤ run.2 then
        joined (gs.take run.1) ++ ':' :: ':' :: joined (gs.drop (run.1 + run.2))
      else joined gs

/-! ## Either version -/

def Address.of? (s : List Char) : Option Address :=
  match Quad.of? s with
  | some q => some (.v4 q)
  | none => (Groups.of? s).map .v6

def Address.chars : Address → List Char
  | .v4 q => q.chars
  | .v6 g => g.chars

def Address.text (a : Address) : String :=
  String.ofList a.chars

theorem longestZeros_le (gs : List UInt16) :
    (longestZeros gs).1 + (longestZeros gs).2 ≤ gs.length := by
  induction gs with
  | nil => simp [longestZeros]
  | cons g rest ih =>
      have htake : ((g :: rest).takeWhile (· == 0)).length ≤ (g :: rest).length :=
        (List.takeWhile_sublist _).length_le
      unfold longestZeros
      simp only
      split
      · simpa using htake
      · simp only [List.length_cons] at *
        omega

end Tarpit.Net
