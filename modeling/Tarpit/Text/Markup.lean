import Tarpit.Text.Blank

/-!
# Markup text

Escaping of text for element content and quoted attributes, and the reading of
the escaped form from left to right that takes it back.
-/

namespace Tarpit.Text.Markup

/-- The entity that stands for a character with a meaning in markup. -/
def entity? (c : Char) : Option (List Char) :=
  if c = '&' then some "&amp;".toList
  else if c = '<' then some "&lt;".toList
  else if c = '>' then some "&gt;".toList
  else if c = '"' then some "&#34;".toList
  else if c = '\'' then some "&#39;".toList
  else none

def escapeChar (c : Char) : List Char :=
  (entity? c).getD [c]

/-- The text with every character that has a meaning in markup written as its entity. -/
def escape (s : List Char) : List Char :=
  s.flatMap escapeChar

@[simp] theorem escape_nil : escape [] = [] := rfl

@[simp] theorem escape_cons (c : Char) (s : List Char) :
    escape (c :: s) = escapeChar c ++ escape s := by
  simp [escape]

@[simp] theorem escape_append (s t : List Char) :
    escape (s ++ t) = escape s ++ escape t := by
  simp [escape]

/-- The character that the entity after an ampersand stands for, and what follows it. -/
def readEntity? (s : List Char) : Option (Char × List Char) :=
  match s with
  | 'a' :: 'm' :: 'p' :: ';' :: rest => some ('&', rest)
  | 'l' :: 't' :: ';' :: rest => some ('<', rest)
  | 'g' :: 't' :: ';' :: rest => some ('>', rest)
  | '#' :: '3' :: '4' :: ';' :: rest => some ('"', rest)
  | '#' :: '3' :: '9' :: ';' :: rest => some ('\'', rest)
  | _ => none

/-- Reading with a bound on the number of characters. -/
def unescapeWithin : Nat → List Char → List Char
  | 0, s => s
  | _ + 1, [] => []
  | fuel + 1, c :: rest =>
      if c = '&' then
        match readEntity? rest with
        | some (d, rest') => d :: unescapeWithin fuel rest'
        | none => c :: unescapeWithin fuel rest
      else c :: unescapeWithin fuel rest

/-- The text with the five entities replaced from left to right; all else stays. -/
def unescape (s : List Char) : List Char :=
  unescapeWithin s.length s

def escaped (s : String) : String :=
  String.ofList (escape s.toList)

end Tarpit.Text.Markup
