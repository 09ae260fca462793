import Tarpit.Random.Uniform
import Tarpit.Text.Markup

/-!
# Trap pages

Every page links to a handful of pages that do not exist either, so a crawler
that follows the links never runs out of them.
-/

namespace Tarpit.Page

open Tarpit.Random (Source Width draw between drawEach length_drawEach between_bounds)
open Tarpit.Text.Markup (escape)

def linkCharacters : List Char :=
  "abcdefghijklmnopqrstuvwxyzABCDEFGHIJKLMNOPQRSTUVWXYZ1234567890_-/".toList

/-- The least and the most links of a page. -/
def minLinks : Nat := 5

def maxLinks : Nat := 10

/-- The least and the most characters of a random link. -/
def minLinkLength : Nat := 3

def maxLinkLength : Nat := 20

/-- What pages are made of: a wordlist for the links, and where a form goes if there is one. -/
structure Generator where
  wordlist : List String
  form? : Option String
  deriving DecidableEq, Repr

/-! ## Written form -/

def linkLine (link : List Char) : List Char :=
  "<a href=\"".toList ++ escape link ++ "\">".toList ++ escape link ++ "</a><br>\n".toList

/-- The form that sends what is typed in to a place. -/
def formBlock (endpoint : List Char) : List Char :=
  "<form action=\"".toList ++ escape endpoint ++ "\" method=\"get\">\n".toList ++
    "<input type=\"text\" name=\"param\">\n".toList ++
    "<button type=\"submit\">Submit</button>\n</form>\n".toList

/-- A page with some links and a form. -/
def render (links : List (List Char)) (form? : Option (List Char)) : List Char :=
  "<html>\n<body>\n".toList ++ links.flatMap linkLine ++
    (match form? with
      | some endpoint => formBlock endpoint
      | none => []) ++
    "</body>\n</html>".toList

/-! ## Drawing -/

variable {S : Type} [Source S]

def drawCharacter (s : S) : Char × S :=
  let (i, s) := draw .whole linkCharacters.length s
  ((linkCharacters[i]?).getD 'a', s)

namespace Generator

/-- A link: an entry of the wordlist or, if that is empty, random characters. -/
def link (g : Generator) (s : S) : List Char × S :=
  if g.wordlist.isEmpty then
    let (n, s) := between minLinkLength maxLinkLength s
    drawEach drawCharacter n s
  else
    let (i, s) := draw (.ofIndex g.wordlist.length) g.wordlist.length s
    (((g.wordlist[i]?).getD "").toList, s)

def links (g : Generator) (s : S) : List (List Char) × S :=
  let (n, s) := between minLinks maxLinks s
  drawEach g.link n s

def page (g : Generator) (s : S) : List Char × S :=
  let (links, s) := g.links s
  (render links (g.form?.map String.toList), s)

/-- A page has five to ten links, whatever the source yields. -/
theorem length_links (g : Generator) (s : S) :
    5 ≤ (g.links s).1.length ∧ (g.links s).1.length ≤ 10 := by
  unfold links
  simp only [length_drawEach]
  exact between_bounds (by decide) s

end Generator

end Tarpit.Page
