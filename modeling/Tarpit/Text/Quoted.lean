import Tarpit.Text.Shapeless

/-!
# Quoted text

The form in which a text is shown to an operator: between double quotes, with
the quote, the backslash and every character that would not show written as an
escape.
-/

namespace Tarpit.Text.Quoted

/-- A character by number, between `\u` and braces. -/
def byNumber (c : Char) : List Char :=
  ['\\', 'u', '\x7b'] ++ Nat.toDigits 16 c.toNat ++ ['\x7d']

def quoteChar (c : Char) : List Char :=
  if c = '\x00' then ['\\', '0']
  else if c = '\t' then ['\\', 't']
  else if c = '\x0d' then ['\\', 'r']
  else if c = '\n' then ['\\', 'n']
  else if c = '\\' ∨ c = '"' then ['\\', c]
  else if isShapeless c then byNumber c
  else [c]

def quote (s : List Char) : List Char :=
  '"' :: s.flatMap quoteChar ++ ['"']

end Tarpit.Text.Quoted
