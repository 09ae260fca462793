import Tarpit.Net.Authority

/-!
# Request targets

The path and the query of the target of a request: a path of its own, a scheme
and an authority before a path, an authority alone, or an asterisk.  Nothing is
decoded; what follows a number sign is dropped.
-/

namespace Tarpit.Net

/-- The target of a request.  A query may be present and empty. -/
structure Uri where
  path : String
  query : Option String
  deriving DecidableEq, Repr

namespace Uri

/-- A character that may stand in a path. -/
def isPathChar (c : Char) : Bool :=
  let n := c.toNat
  n == 0x21 || n == 0x22 || (0x24 ≤ n && n ≤ 0x3B) || n == 0x3D || (0x40 ≤ n && n ≤ 0x5F) ||
    (0x61 ≤ n && n != 0x7F)

/-- A character that may stand in a query. -/
def isQueryChar (c : Char) : Bool :=
  let n := c.toNat
  n == 0x21 || (0x24 ≤ n && n ≤ 0x3B) || n == 0x3D || (0x3F ≤ n && n != 0x7F)

/-- The path and the query that a text spells which has nothing before them. -/
def ofPath? (s : List Char) : Option Uri :=
  let s := s.takeWhile (· != '#')
  let path := s.takeWhile (· != '?')
  let query := match s.dropWhile (· != '?') with
    | [] => none
    | _ :: rest => some rest
  if path.all isPathChar && (query.getD []).all isQueryChar then
    some ⟨String.ofList path, query.map String.ofList⟩
  else none

/-- A character that may stand in the name of a scheme. -/
def isSchemeChar (c : Char) : Bool :=
  c.isAlphanum || c == '+' || c == '-' || c == '.' || c == '~'

/-- The most characters that the name of a scheme may have; it may have none. -/
def maxScheme : Nat := 64

/-- A text in two at the mark behind its scheme, if it begins with a scheme. -/
def splitScheme? (s : List Char) : Option (List Char × List Char) :=
  match s.dropWhile isSchemeChar with
  | ':' :: '/' :: '/' :: rest => some (s.takeWhile isSchemeChar, rest)
  | _ => none

def endsAuthority (c : Char) : Bool :=
  c == '/' || c == '?' || c == '#'

/-- The target that a text spells behind its scheme.  It has at least the path `/`. -/
def ofAuthority? (s : List Char) : Option Uri :=
  let authority := s.takeWhile fun c => !endsAuthority c
  if authority.isEmpty || !Authority.accepts authority then none
  else
    (ofPath? (s.dropWhile fun c => !endsAuthority c)).map fun uri =>
      if uri.path.isEmpty then { uri with path := "/" } else uri

/-- The target that characters spell.  An authority alone has an empty path. -/
def ofList? (s : List Char) : Option Uri :=
  match s with
  | [] => none
  | ['*'] => some ⟨"*", none⟩
  | '/' :: rest => ofPath? ('/' :: rest)
  | s =>
      match splitScheme? s with
      | some (scheme, rest) => if maxScheme < scheme.length then none else ofAuthority? rest
      | none => if Authority.accepts s then some ⟨"", none⟩ else none

/-- The most bytes that a target may have. -/
def maxBytes : Nat := 65534

def parse? (s : String) : Option Uri :=
  if maxBytes < s.utf8ByteSize then none else ofList? s.toList

end Uri

end Tarpit.Net
