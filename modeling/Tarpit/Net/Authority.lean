/-!
# Authorities

The part of a request target that names a host, with a user before it and a port
behind it.  It is checked from left to right and never taken apart.
-/

namespace Tarpit.Net.Authority

/-- A character that says nothing about where the user, the host and the port are. -/
def isPlain (c : Char) : Bool :=
  c.isAlphanum ||
    ['!', '$', '&', '\x27', '(', ')', '*', '+', ',', '-', '.', ';', '=', '_', '~'].contains c

/-- What has been read of an authority, as far as a later character bears on it. -/
structure Reading where
  /-- The colons that neither a user nor brackets account for. -/
  colons : Nat
  /-- A bracket was opened. -/
  opened : Bool
  /-- A bracket was closed. -/
  closed : Bool
  /-- There is a percent sign that neither a user nor brackets account for. -/
  percent : Bool
  deriving DecidableEq, Repr

namespace Reading

def start : Reading :=
  ⟨0, false, false, false⟩

/-- The most colons that may wait for what accounts for them: those of an address in brackets. -/
def maxColons : Nat := 8

def settle (r : Reading) : Reading :=
  { r with colons := 0, percent := false }

/--
One more character.  A sign that ends the user accounts for all before it, and so does a closing
bracket; there is one pair of brackets at most.
-/
def next? (r : Reading) (c : Char) : Option Reading :=
  if c = ':' then
    if r.colons < maxColons then some { r with colons := r.colons + 1 } else none
  else if c = '[' then
    if r.opened || r.percent then none else some { r with opened := true }
  else if c = ']' then
    if r.opened && !r.closed then some { r.settle with closed := true } else none
  else if c = '@' then some r.settle
  else if c = '%' then some { r with percent := true }
  else if isPlain c then some r
  else none

/-- The reading may end: at most the colon of a port is left, and no percent sign. -/
def isComplete (r : Reading) : Bool :=
  r.opened == r.closed && r.colons ≤ 1 && !r.percent

end Reading

/-- The text is an authority, or empty.  A user without a host is none. -/
def accepts (s : List Char) : Bool :=
  s.getLast? != some '@' && (s.foldlM Reading.next? .start).any Reading.isComplete

/-- Characters without a part in the structure leave a reading as it is. -/
theorem next?_of_isPlain {c : Char} (h : isPlain c = true) (r : Reading) :
    r.next? c = some r := by
  have hne : ∀ d, isPlain d = false → c ≠ d := by
    rintro d hd rfl
    exact absurd (h.symm.trans hd) (by decide)
  have hcolon := hne ':' (by decide)
  have hopen := hne '[' (by decide)
  have hclose := hne ']' (by decide)
  have hat := hne '@' (by decide)
  have hpercent := hne '%' (by decide)
  simp [Reading.next?, hcolon, hopen, hclose, hat, hpercent, h]

theorem foldlM_next?_of_all {s : List Char} (h : s.all isPlain = true) (r : Reading) :
    s.foldlM Reading.next? r = some r := by
  induction s with
  | nil => rfl
  | cons c rest ih =>
      simp only [List.all_cons, Bool.and_eq_true] at h
      simp [List.foldlM_cons, next?_of_isPlain h.1, ih h.2]

/-- A host that is a plain name is an authority. -/
theorem accepts_of_all {s : List Char} (h : s.all isPlain = true) : accepts s = true := by
  have hlast : s.getLast? ≠ some '@' := by
    intro hat
    have hmem := List.mem_of_getLast? hat
    have hplain := List.all_eq_true.1 h '@' hmem
    exact absurd hplain (by decide)
  simp [accepts, foldlM_next?_of_all h, Reading.isComplete, Reading.start, hlast]

end Tarpit.Net.Authority
