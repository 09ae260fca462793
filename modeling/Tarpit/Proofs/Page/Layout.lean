import Tarpit.Page.Generator
import Tarpit.Proofs.Random.Draws
import Tarpit.Proofs.Text.Markup

/-!
# The layout of a page

A trap page keeps its layout whatever the wordlist and the place of the form
hold: every text that stands in it is escaped, so it neither ends the attribute
in which it stands nor begins an element, and can be read back.
-/

namespace Tarpit.Page

open Tarpit.Random (Source Draws InTurn between between_bounds draw draw_lt drawEach inTurn_drawEach
  length_drawEach)
open Tarpit.Text.Markup

/-! ## What is said of a page -/

/-- A line with a link, whose target is also its text. -/
def anchor (text : List Char) : List Char :=
  "<a href=\"".toList ++ text ++ "\">".toList ++ text ++ "</a><br>\n".toList

def formText : Option (List Char) → List Char
  | some endpoint => formBlock endpoint
  | none => []

/-- A link is an entry of the wordlist or, if that is empty, a random text. -/
structure Generator.Offers (g : Generator) (link : List Char) : Prop where
  word : g.wordlist ≠ [] → ∃ word ∈ g.wordlist, link = word.toList
  random : g.wordlist = [] →
    3 ≤ link.length ∧ link.length ≤ 20 ∧ ∀ c ∈ link, c ∈ linkCharacters

/-- The page has the links, one on each line, and the form if there is one, and nothing else. -/
structure LaidOut (g : Generator) (links : List (List Char)) (page : List Char) : Prop where
  few : 5 ≤ links.length ∧ links.length ≤ 10
  offered : ∀ link ∈ links, g.Offers link
  /-- What stands for the links is free of delimiters, and each of them is read back from it. -/
  text : ∃ texts : List (List Char), texts.map unescape = links ∧
    (∀ text ∈ texts, ∀ c ∈ text, c ∉ delimiters) ∧
    page = "<html>\n<body>\n".toList ++ texts.flatMap anchor ++
      formText (g.form?.map String.toList) ++ "</body>\n</html>".toList
  /-- No text adds an element. -/
  elements : page.count '<' = 4 + 3 * links.length + if g.form?.isSome then 5 else 0
  /-- No other links and no other form give the page. -/
  unique : ∀ links' form?', render links' form?' = page →
    links' = links ∧ form?' = g.form?.map String.toList

/-! ## Elements -/

theorem count_escape (s : List Char) : (escape s).count '<' = 0 :=
  List.count_eq_zero.2 fun h => not_mem_delimiters_of_escape h (by decide)

theorem count_linkLine (link : List Char) : (linkLine link).count '<' = 3 := by
  unfold linkLine
  simp only [List.count_append, count_escape]
  decide +kernel

theorem count_formBlock (endpoint : List Char) : (formBlock endpoint).count '<' = 5 := by
  unfold formBlock
  simp only [List.count_append, count_escape]
  decide +kernel

theorem render_eq (links : List (List Char)) (form? : Option (List Char)) :
    render links form? = "<html>\n<body>\n".toList ++ links.flatMap linkLine ++ formText form? ++
      "</body>\n</html>".toList := by
  cases form? with
  | none => rfl
  | some endpoint => rfl

theorem count_render (links : List (List Char)) (form? : Option (List Char)) :
    (render links form?).count '<' = 4 + 3 * links.length + if form?.isSome then 5 else 0 := by
  have hlines : (links.flatMap linkLine).count '<' = 3 * links.length := by
    induction links with
    | nil => rfl
    | cons link rest ih =>
        rw [List.flatMap_cons, List.count_append, count_linkLine, ih, List.length_cons]
        omega
  have hform : (formText form?).count '<' = if form?.isSome then 5 else 0 := by
    cases form? with
    | none => rfl
    | some endpoint => exact count_formBlock endpoint
  have hhead : "<html>\n<body>\n".toList.count '<' = 2 := by decide +kernel
  have hend : "</body>\n</html>".toList.count '<' = 2 := by decide +kernel
  rw [render_eq, List.count_append, List.count_append, List.count_append, hlines, hform, hhead,
    hend]
  omega

/-! ## Reading a page -/

/-- A quoted text ends at the first quotation mark. -/
theorem quoted_inj {s t after after' : List Char} (hs : '"' ∉ s) (ht : '"' ∉ t)
    (h : s ++ '"' :: after = t ++ '"' :: after') : s = t ∧ after = after' := by
  induction s generalizing t with
  | nil =>
      cases t with
      | nil => exact ⟨rfl, (List.cons.inj h).2⟩
      | cons c t => exact absurd ((List.cons.inj h).1 ▸ List.mem_cons_self) ht
  | cons c s ih =>
      cases t with
      | nil => exact absurd ((List.cons.inj h).1 ▸ List.mem_cons_self) hs
      | cons d t =>
          obtain ⟨rfl, hrest⟩ := List.cons.inj h
          obtain ⟨rfl, hafter⟩ :=
            ih (List.not_mem_of_not_mem_cons hs) (List.not_mem_of_not_mem_cons ht) hrest
          exact ⟨rfl, hafter⟩

theorem escape_quoted_inj {s t after after' : List Char}
    (h : escape s ++ '"' :: after = escape t ++ '"' :: after') : s = t ∧ after = after' := by
  have hfree : ∀ s, '"' ∉ escape s := fun s hmem => not_mem_delimiters_of_escape hmem (by decide)
  obtain ⟨hescape, hafter⟩ := quoted_inj (hfree s) (hfree t) h
  exact ⟨escape_injective hescape, hafter⟩

theorem linkLine_append_inj {link link' rest rest' : List Char}
    (h : linkLine link ++ rest = linkLine link' ++ rest') : link = link' ∧ rest = rest' := by
  have hline : ∀ link rest, linkLine link ++ rest = "<a href=\"".toList ++ (escape link ++
      '"' :: '>' :: (escape link ++ ("</a><br>\n".toList ++ rest))) := by
    intro link rest
    unfold linkLine
    simp only [List.append_assoc]
    rfl
  rw [hline, hline] at h
  obtain ⟨rfl, htext⟩ := escape_quoted_inj (List.append_cancel_left h)
  exact ⟨rfl, List.append_cancel_left (List.append_cancel_left (List.cons.inj htext).2)⟩

theorem formBlock_inj {endpoint endpoint' : List Char}
    (h : formBlock endpoint = formBlock endpoint') : endpoint = endpoint' := by
  unfold formBlock at h
  simp only [List.append_assoc] at h
  exact (escape_quoted_inj (List.append_cancel_left h)).1

theorem formBlock_ne_nil (endpoint : List Char) : formBlock endpoint ≠ [] := by
  unfold formBlock
  simp

theorem formText_inj {form? form?' : Option (List Char)} (h : formText form? = formText form?') :
    form? = form?' := by
  cases form? with
  | none =>
      cases form?' with
      | none => rfl
      | some endpoint' => exact absurd h.symm (formBlock_ne_nil endpoint')
  | some endpoint =>
      cases form?' with
      | none => exact absurd h (formBlock_ne_nil endpoint)
      | some endpoint' => rw [formBlock_inj h]

theorem linkLine_append_ne (link rest : List Char) (form? : Option (List Char)) :
    linkLine link ++ rest ≠ formText form? ++ "</body>\n</html>".toList := by
  cases form? with
  | none =>
    unfold linkLine
    simp [formText]
  | some endpoint =>
    unfold linkLine formText formBlock
    simp

theorem body_inj {links links' : List (List Char)} {form? form?' : Option (List Char)}
    (h : links.flatMap linkLine ++ (formText form? ++ "</body>\n</html>".toList) =
      links'.flatMap linkLine ++ (formText form?' ++ "</body>\n</html>".toList)) :
    links = links' ∧ form? = form?' := by
  induction links generalizing links' with
  | nil =>
      cases links' with
      | nil =>
          rw [List.flatMap_nil, List.nil_append, List.nil_append] at h
          exact ⟨rfl, formText_inj (List.append_cancel_right h)⟩
      | cons link' rest' =>
          rw [List.flatMap_cons, List.append_assoc] at h
          exact absurd h.symm (linkLine_append_ne _ _ _)
  | cons link rest ih =>
      rw [List.flatMap_cons, List.append_assoc] at h
      cases links' with
      | nil => exact absurd h (linkLine_append_ne _ _ _)
      | cons link' rest' =>
          rw [List.flatMap_cons, List.append_assoc] at h
          obtain ⟨rfl, hrest⟩ := linkLine_append_inj h
          obtain ⟨rfl, rfl⟩ := ih hrest
          exact ⟨rfl, rfl⟩

/-- A page tells its links and where its form goes. -/
theorem render_inj {links links' : List (List Char)} {form? form?' : Option (List Char)}
    (h : render links form? = render links' form?') : links = links' ∧ form? = form?' := by
  rw [render_eq, render_eq] at h
  simp only [List.append_assoc] at h
  exact body_inj (List.append_cancel_left h)

/-! ## What is drawn -/

variable {S : Type} [Source S]

theorem drawCharacter_mem (s : S) : (drawCharacter s).1 ∈ linkCharacters := by
  have hlt : (draw .whole linkCharacters.length s).1 < linkCharacters.length :=
    draw_lt (by decide) s
  unfold drawCharacter
  simp only [List.getElem?_eq_getElem hlt, Option.getD_some]
  exact List.getElem_mem hlt

theorem Generator.offers_link (g : Generator) (s : S) : g.Offers (g.link s).1 := by
  unfold Generator.link
  by_cases hempty : g.wordlist.isEmpty = true
  · rw [if_pos hempty]
    refine ⟨fun hne => absurd (List.isEmpty_iff.1 hempty) hne, fun _ => ?_⟩
    have hlength := between_bounds (show minLinkLength ≤ maxLinkLength by decide) s
    simp only [length_drawEach]
    exact ⟨hlength.1, hlength.2, (inTurn_drawEach _ _ _).forall_mem drawCharacter_mem⟩
  · rw [if_neg hempty]
    have hne : g.wordlist ≠ [] := fun hnil => hempty (List.isEmpty_iff.2 hnil)
    refine ⟨fun _ => ?_, fun hnil => absurd hnil hne⟩
    have hlt : (draw (.ofIndex g.wordlist.length) g.wordlist.length s).1 < g.wordlist.length :=
      draw_lt (List.length_pos_iff.2 hne) s
    simp only [List.getElem?_eq_getElem hlt, Option.getD_some]
    exact ⟨_, List.getElem_mem hlt, rfl⟩

theorem laidOut_render {g : Generator} {links : List (List Char)}
    (hfew : 5 ≤ links.length ∧ links.length ≤ 10) (hoffered : ∀ link ∈ links, g.Offers link) :
    LaidOut g links (render links (g.form?.map String.toList)) where
  few := hfew
  offered := hoffered
  text := by
    refine ⟨links.map escape, ?_, ?_, ?_⟩
    · have hread : unescape ∘ escape = id := funext unescape_escape
      rw [List.map_map, hread, List.map_id]
    · intro text htext c hc
      obtain ⟨link, -, rfl⟩ := List.mem_map.1 htext
      exact not_mem_delimiters_of_escape hc
    · rw [render_eq, List.flatMap_map]
      rfl
  elements := by rw [count_render, Option.isSome_map]
  unique _ _ h := render_inj h

/--
Whatever the wordlist, the form and the source, a page is laid out around the links that were drawn
one after the other, and a draw that ends within the tries of the source yields what the first
accepted number gives.
-/
theorem page_laidOut (g : Generator) (s : S) :
    (∃ links, InTurn g.link (between minLinks maxLinks s).2 links (g.page s).2 ∧
      links.length = (between minLinks maxLinks s).1 ∧ LaidOut g links (g.page s).1) ∧
    ∀ (w : Random.Width) (range : Nat) (t : S) (refusals : Nat) (drawn : Nat × S),
      Draws w range t refusals drawn → refusals ≤ Source.tries t → draw w range t = drawn := by
  constructor
  · have hturn := inTurn_drawEach g.link (between minLinks maxLinks s).1
      (between minLinks maxLinks s).2
    exact ⟨(g.links s).1, hturn, length_drawEach _ _ _,
      laidOut_render (g.length_links s) (hturn.forall_mem g.offers_link)⟩
  · intro w range t refusals drawn hdraws htries
    exact hdraws.drawWithin_eq htries

end Tarpit.Page
