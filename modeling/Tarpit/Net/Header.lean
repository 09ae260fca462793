import Tarpit.Text.Blank
import Tarpit.Text.Utf8

/-!
# Header fields

The fields of a request in the order in which they came.  Names are compared
without regard to case, and a value is only looked at as a text when all of it
is visible ASCII, spaces and tabs.
-/

namespace Tarpit.Net

/-- One field. -/
structure Header where
  name : String
  value : Bytes
  deriving DecidableEq, Repr

abbrev Headers := List Header

/-- The field has this name, which is given in lower case. -/
def Header.isNamed (h : Header) (name : String) : Bool :=
  Text.lowered h.name == name

/-- A byte that may stand in a value that is read as a text. -/
def isVisible (b : UInt8) : Bool :=
  (0x20 ≤ b && b ≤ 0x7E) || b == 0x09

def Header.text? (h : Header) : Option String :=
  if h.value.all isVisible then some (String.ofList (Text.asciiChars h.value)) else none

namespace Headers

def first? (headers : Headers) (name : String) : Option Header :=
  headers.find? fun h => h.isNamed name

/-- The text of the first field of a name. -/
def text? (headers : Headers) (name : String) : Option String :=
  (headers.first? name).bind Header.text?

/-- The texts of all fields of a name that have one. -/
def texts (headers : Headers) (name : String) : List String :=
  (headers.filter fun h => h.isNamed name).filterMap Header.text?

end Headers

end Tarpit.Net
