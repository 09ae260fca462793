import Tarpit.Text.Markup

/-!
# Escaped text

Escaped text can stand wherever a page has room for text: it holds no character
that ends an attribute or begins an element.  Nothing is lost by it, as reading
the entities from left to right takes it back.
-/

namespace Tarpit.Text.Markup

/-- What is written for the characters that have a meaning in markup. -/
def entities : List (List Char) :=
  ["&amp;".toList, "&lt;".toList, "&gt;".toList, "&#34;".toList, "&#39;".toList]

/-- The characters that end a quoted attribute, or begin or end an element. -/
def delimiters : List Char :=
  ['<', '>', '"', '\'']

/-! ## One character -/

/-- A character with a meaning is written as an entity, which is read as the character. -/
theorem escapeChar_of_meaning {c : Char} (h : c ∈ '&' :: delimiters) :
    ∃ body, escapeChar c = '&' :: body ∧ '&' :: body ∈ entities ∧
      ∀ rest, readEntity? (body ++ rest) = some (c, rest) := by
  simp only [delimiters, List.mem_cons, List.not_mem_nil, or_false] at h
  rcases h with rfl | rfl | rfl | rfl | rfl
  · exact ⟨"amp;".toList, rfl, by decide, fun _ => rfl⟩
  · exact ⟨"lt;".toList, rfl, by decide, fun _ => rfl⟩
  · exact ⟨"gt;".toList, rfl, by decide, fun _ => rfl⟩
  · exact ⟨"#34;".toList, rfl, by decide, fun _ => rfl⟩
  · exact ⟨"#39;".toList, rfl, by decide, fun _ => rfl⟩

theorem escapeChar_of_plain {c : Char} (h : c ∉ '&' :: delimiters) : escapeChar c = [c] := by
  simp only [delimiters, List.mem_cons, List.not_mem_nil, or_false, not_or] at h
  obtain ⟨hamp, hless, hgreater, hquote, hsingle⟩ := h
  simp only [escapeChar, entity?, hamp, hless, hgreater, hquote, hsingle, if_false,
    Option.getD_none]

theorem not_mem_delimiters_of_entity {entity : List Char} (h : entity ∈ entities) :
    ∀ c ∈ entity, c ∉ delimiters := by
  have htable : ∀ entity ∈ entities, entity.all (· ∉ delimiters) = true := by decide
  exact fun c hc => of_decide_eq_true (List.all_eq_true.1 (htable entity h) c hc)

/-- An entity has its ampersand at the beginning only. -/
theorem not_mem_tail_of_entity {body : List Char} (h : '&' :: body ∈ entities) : '&' ∉ body := by
  have htable : ∀ entity ∈ entities, '&' ∉ entity.tail := by decide
  exact htable _ h

/-! ## All characters -/

/-- No escaped text holds a delimiter. -/
theorem not_mem_delimiters_of_escape {s : List Char} {c : Char} (h : c ∈ escape s) :
    c ∉ delimiters := by
  obtain ⟨d, -, hc⟩ := List.mem_flatMap.1 h
  by_cases hd : d ∈ '&' :: delimiters
  · obtain ⟨body, hescape, hentity, -⟩ := escapeChar_of_meaning hd
    rw [hescape] at hc
    exact not_mem_delimiters_of_entity hentity c hc
  · rw [escapeChar_of_plain hd, List.mem_singleton] at hc
    subst hc
    exact fun hdelimiter => hd (List.mem_cons_of_mem _ hdelimiter)

/-- Every ampersand of an escaped text begins an entity that is there as a whole. -/
theorem entity_of_escape_eq {s before after : List Char} (h : escape s = before ++ '&' :: after) :
    ∃ entity ∈ entities, entity <+: '&' :: after := by
  induction s generalizing before with
  | nil => simp at h
  | cons c rest ih =>
      rw [escape_cons] at h
      rcases List.append_eq_append_iff.1 h with ⟨more, hbefore, hrest⟩ | ⟨more, hchar, hafter⟩
      · exact ih hrest
      -- The ampersand stands in what is written for `c`, unless that ends just before it.
      cases more with
      | nil => exact ih (show escape rest = [] ++ '&' :: after from hafter.symm)
      | cons d more =>
          rw [List.cons_append, List.cons.injEq] at hafter
          obtain ⟨rfl, hafter⟩ := hafter
          by_cases hc : c ∈ '&' :: delimiters
          · obtain ⟨body, hescape, hentity, -⟩ := escapeChar_of_meaning hc
            rw [hescape] at hchar
            cases before with
            | nil =>
                refine ⟨_, hentity, escape rest, ?_⟩
                rw [hchar, hafter]
                rfl
            | cons e before =>
                rw [List.cons_append, List.cons.injEq] at hchar
                exact absurd (hchar.2 ▸ List.mem_append_right before List.mem_cons_self)
                  (not_mem_tail_of_entity hentity)
          · rw [escapeChar_of_plain hc] at hchar
            have hmem : '&' ∈ [c] := hchar ▸ List.mem_append_right before List.mem_cons_self
            rw [List.mem_singleton] at hmem
            exact absurd (hmem ▸ List.mem_cons_self) hc

/-! ## Reading -/

theorem length_of_readEntity? {s rest : List Char} {c : Char} (h : readEntity? s = some (c, rest)) :
    rest.length ≤ s.length := by
  unfold readEntity? at h
  split at h <;> cases h <;> simp only [List.length_cons] <;> omega

/-- Any bound from the number of characters on gives the same reading. -/
theorem unescapeWithin_congr {m n : Nat} {s : List Char} (hm : s.length ≤ m) (hn : s.length ≤ n) :
    unescapeWithin m s = unescapeWithin n s := by
  induction m generalizing n s with
  | zero =>
      rw [List.length_eq_zero_iff.1 (Nat.le_zero.1 hm)]
      cases n <;> rfl
  | succ m ih =>
      cases s with
      | nil => cases n <;> rfl
      | cons c rest =>
          cases n with
          | zero => cases hn
          | succ n =>
              have hm := Nat.le_of_succ_le_succ hm
              have hn := Nat.le_of_succ_le_succ hn
              simp only [unescapeWithin]
              split
              · cases hread : readEntity? rest with
                | none => simp only [ih hm hn]
                | some read =>
                    obtain ⟨d, later⟩ := read
                    have hlater := length_of_readEntity? hread
                    simp only [ih (Nat.le_trans hlater hm) (Nat.le_trans hlater hn)]
              · rw [ih hm hn]

theorem unescape_of_entity {d : Char} {rest later : List Char}
    (h : readEntity? rest = some (d, later)) : unescape ('&' :: rest) = d :: unescape later := by
  have hlater := length_of_readEntity? h
  have hread : unescape ('&' :: rest) = d :: unescapeWithin rest.length later := by
    simp only [unescape, List.length_cons, unescapeWithin, if_true, h]
  rw [hread, unescapeWithin_congr hlater (Nat.le_refl _)]
  rfl

theorem unescape_of_ne {c : Char} (h : c ≠ '&') (rest : List Char) :
    unescape (c :: rest) = c :: unescape rest := by
  simp only [unescape, List.length_cons, unescapeWithin, h, if_false]

/-- The reading takes back what was written, and goes on behind it. -/
theorem unescape_escape_append (s rest : List Char) :
    unescape (escape s ++ rest) = s ++ unescape rest := by
  induction s with
  | nil => rfl
  | cons c s ih =>
      rw [escape_cons, List.append_assoc]
      by_cases hc : c ∈ '&' :: delimiters
      · obtain ⟨body, hescape, -, hread⟩ := escapeChar_of_meaning hc
        rw [hescape, List.cons_append, unescape_of_entity (hread _), ih]
        rfl
      · have hamp : c ≠ '&' := fun heq => hc (heq ▸ List.mem_cons_self)
        rw [escapeChar_of_plain hc, List.singleton_append, unescape_of_ne hamp, ih]
        rfl

theorem unescape_escape (s : List Char) : unescape (escape s) = s := by
  have hread := unescape_escape_append s []
  rwa [List.append_nil, show unescape [] = [] from rfl, List.append_nil] at hread

theorem escape_injective {s t : List Char} (h : escape s = escape t) : s = t := by
  rw [← unescape_escape s, h, unescape_escape]

/-! ## The escaped form -/

/--
What is escaped holds no delimiter, and no ampersand but those of its entities.  Reading it from left
to right gives the text back, whatever the text looks like, and a text may be escaped piece by
piece.
-/
theorem escape_faithful (s : List Char) :
    (∀ c ∈ escape s, c ∉ delimiters) ∧
    (∀ before after, escape s = before ++ '&' :: after →
      ∃ entity ∈ entities, entity <+: '&' :: after) ∧
    unescape (escape s) = s ∧
    (∀ t, escape s = escape t → s = t) ∧
    ∀ t, escape (s ++ t) = escape s ++ escape t :=
  ⟨fun _ => not_mem_delimiters_of_escape, fun _ _ => entity_of_escape_eq, unescape_escape s,
    fun _ => escape_injective, escape_append s⟩

/-- A text that looks escaped is escaped once more. -/
example : escape "&amp;lt; 'a'".toList = "&amp;amp;lt; &#39;a&#39;".toList := by decide

end Tarpit.Text.Markup
