import Mathlib.Data.List.TakeWhile
import Tarpit.Net.Uri

/-!
# What a target holds

The characters of the query of a target that was read, and what is read of a
target that spells a scheme, an authority, a path and a query.
-/

namespace Tarpit.Net.Uri

/-- Every character of the query may stand in one. -/
def IsPlain (uri : Uri) : Prop :=
  ∀ query, uri.query = some query → ∀ c ∈ query.toList, isQueryChar c = true

theorem isPlain_of_no_query (path : String) : IsPlain ⟨path, none⟩ := by
  rintro query ⟨⟩

theorem isPlain_of_ofPath? {s : List Char} {uri : Uri} (h : ofPath? s = some uri) :
    uri.IsPlain := by
  unfold ofPath? at h
  simp only at h
  -- Whether there is a query, and whether the characters are right.
  split at h
  · split at h
    · cases h
      exact isPlain_of_no_query _
    · cases h
  · next rest _ =>
    split at h
    · next hchars =>
      cases h
      rintro _ ⟨⟩ c hc
      rw [Bool.and_eq_true, Option.getD_some, List.all_eq_true, List.all_eq_true] at hchars
      rw [String.toList_ofList] at hc
      exact hchars.2 c hc
    · cases h

theorem isPlain_of_ofAuthority? {s : List Char} {uri : Uri} (h : ofAuthority? s = some uri) :
    uri.IsPlain := by
  unfold ofAuthority? at h
  simp only at h
  split at h
  · cases h
  · obtain ⟨found, hfound, rfl⟩ := Option.map_eq_some_iff.1 h
    have hplain := isPlain_of_ofPath? hfound
    split
    · exact hplain
    · exact hplain

theorem isPlain_of_parse? {s : String} {uri : Uri} (h : parse? s = some uri) : uri.IsPlain := by
  unfold parse? at h
  split at h
  · cases h
  · unfold ofList? at h
    split at h
    · cases h
    · cases h
      exact isPlain_of_no_query _
    · exact isPlain_of_ofPath? h
    · split at h
      · split at h
        · cases h
        · exact isPlain_of_ofAuthority? h
      · split at h
        · cases h
          exact isPlain_of_no_query _
        · cases h

/-! ## Targets with all their parts -/

theorem next?_of_endsAuthority {c : Char} (h : endsAuthority c = true) (r : Authority.Reading) :
    r.next? c = none := by
  simp only [endsAuthority, Bool.or_eq_true, beq_iff_eq] at h
  rcases h with (rfl | rfl) | rfl <;> rfl

/-- An authority holds no character that would end it. -/
theorem endsAuthority_of_accepts {s : List Char} (h : Authority.accepts s = true) :
    ∀ c ∈ s, endsAuthority c = false := by
  have hread : ∀ r r' : Authority.Reading, s.foldlM Authority.Reading.next? r = some r' →
      ∀ c ∈ s, endsAuthority c = false := by
    clear h
    induction s with
    | nil =>
        intro r r' _ c hc
        cases hc
    | cons d rest ih =>
        intro r r' hfold c hc
        rw [List.foldlM_cons] at hfold
        obtain ⟨middle, hnext, hrest⟩ := Option.bind_eq_some_iff.1 hfold
        rcases List.mem_cons.1 hc with rfl | hc
        · rw [Bool.eq_false_iff]
          intro hends
          rw [next?_of_endsAuthority hends] at hnext
          cases hnext
        · exact ih middle r' hrest c hc
  rw [Authority.accepts, Bool.and_eq_true] at h
  obtain ⟨r, hr, -⟩ := (Option.any_eq_true _ _).1 h.2
  exact hread _ r hr

theorem takeWhile_of_stop {p : Char → Bool} {s rest : List Char} {c : Char}
    (hs : ∀ d ∈ s, p d = true) (hc : p c = false) : (s ++ c :: rest).takeWhile p = s := by
  rw [List.takeWhile_append_of_pos hs, List.takeWhile_cons, if_neg (ne_true_of_eq_false hc),
    List.append_nil]

theorem dropWhile_of_stop {p : Char → Bool} {s rest : List Char} {c : Char}
    (hs : ∀ d ∈ s, p d = true) (hc : p c = false) :
    (s ++ c :: rest).dropWhile p = c :: rest := by
  rw [List.dropWhile_append_of_pos hs, List.dropWhile_cons, if_neg (ne_true_of_eq_false hc)]

variable {scheme authority path query : List Char}

theorem ofPath?_query (hpath : ∀ c ∈ path, isPathChar c = true)
    (hquery : ∀ c ∈ query, isQueryChar c = true) :
    ofPath? (path ++ '?' :: query) = some ⟨String.ofList path, some (String.ofList query)⟩ := by
  have hfragment : (path ++ '?' :: query).takeWhile (· != '#') = path ++ '?' :: query := by
    rw [List.takeWhile_eq_self_iff]
    intro c hc
    rw [bne_iff_ne]
    rintro rfl
    rcases List.mem_append.1 hc with hc | hc
    · exact absurd (hpath _ hc) (by decide)
    · exact absurd (hquery _ (List.mem_of_ne_of_mem (by decide) hc)) (by decide)
  have hmark : ∀ c ∈ path, (c != '?') = true := by
    intro c hc
    rw [bne_iff_ne]
    rintro rfl
    exact absurd (hpath _ hc) (by decide)
  simp only [ofPath?, hfragment, takeWhile_of_stop hmark (bne_self_eq_false '?'),
    dropWhile_of_stop hmark (bne_self_eq_false '?'), Option.getD_some, Option.map_some]
  rw [if_pos (by rw [List.all_eq_true.2 hpath, List.all_eq_true.2 hquery, Bool.and_self])]

theorem ofAuthority?_append (hne : authority ≠ []) (hauthority : Authority.accepts authority = true)
    (hpath : ∀ c ∈ '/' :: path, isPathChar c = true) (hquery : ∀ c ∈ query, isQueryChar c = true) :
    ofAuthority? (authority ++ '/' :: (path ++ '?' :: query)) =
      some ⟨String.ofList ('/' :: path), some (String.ofList query)⟩ := by
  have hinside : ∀ c ∈ authority, (!endsAuthority c) = true := by
    intro c hc
    rw [endsAuthority_of_accepts hauthority c hc, Bool.not_false]
  have hstop : (!endsAuthority '/') = false := rfl
  have hread := ofPath?_query hpath hquery
  rw [List.cons_append] at hread
  have hempty : authority.isEmpty = false := List.isEmpty_eq_false_iff.2 hne
  simp only [ofAuthority?, takeWhile_of_stop hinside hstop, dropWhile_of_stop hinside hstop,
    hauthority, hempty, hread, Bool.not_true, Bool.or_false, Bool.false_eq_true, if_false,
    Option.map_some]
  rw [if_neg]
  simp

theorem splitScheme?_append (hscheme : ∀ c ∈ scheme, isSchemeChar c = true) (rest : List Char) :
    splitScheme? (scheme ++ ':' :: '/' :: '/' :: rest) = some (scheme, rest) := by
  have hstop : isSchemeChar ':' = false := by decide
  simp only [splitScheme?, dropWhile_of_stop hscheme hstop, takeWhile_of_stop hscheme hstop]

/-- A target that spells all of them has the path and the query as they are spelt. -/
theorem ofList?_append (hscheme : ∀ c ∈ scheme, isSchemeChar c = true)
    (hlength : scheme.length ≤ maxScheme) (hne : authority ≠ [])
    (hauthority : Authority.accepts authority = true)
    (hpath : ∀ c ∈ '/' :: path, isPathChar c = true) (hquery : ∀ c ∈ query, isQueryChar c = true) :
    ofList? (scheme ++ ':' :: '/' :: '/' :: (authority ++ '/' :: (path ++ '?' :: query))) =
      some ⟨String.ofList ('/' :: path), some (String.ofList query)⟩ := by
  unfold ofList?
  split
  · next hnil => simp at hnil
  · next hasterisk => cases scheme <;> simp at hasterisk
  · next hslash =>
    cases scheme with
    | nil => simp at hslash
    | cons c rest =>
        rw [List.cons_append, List.cons.injEq] at hslash
        rw [hslash.1] at hscheme
        exact absurd (hscheme '/' List.mem_cons_self) (by decide)
  · rw [splitScheme?_append hscheme]
    simp only [if_neg (Nat.not_lt.2 hlength), ofAuthority?_append hne hauthority hpath hquery]

/-! ## The query behind the first question mark -/

theorem dropWhile_append_stop {p : Char → Bool} {c : Char} (hc : p c = false)
    (s rest : List Char) : (s ++ c :: rest).dropWhile p = s.dropWhile p ++ c :: rest := by
  induction s with
  | nil => rw [List.nil_append, List.dropWhile_cons, if_neg (ne_true_of_eq_false hc)]; rfl
  | cons d s ih =>
      rw [List.cons_append, List.dropWhile_cons, List.dropWhile_cons, ih]
      split
      · rfl
      · rfl

variable {front : List Char} {uri : Uri}

theorem query_of_ofPath? (hfront : ∀ c ∈ front, c ≠ '?' ∧ c ≠ '#') (hquery : '#' ∉ query)
    (h : ofPath? (front ++ '?' :: query) = some uri) : uri.query = some (String.ofList query) := by
  have hmark : ∀ c ∈ front, (c != '?') = true := fun c hc => bne_iff_ne.2 (hfront c hc).1
  have hfragment : (front ++ '?' :: query).takeWhile (· != '#') = front ++ '?' :: query := by
    rw [List.takeWhile_eq_self_iff]
    intro c hc
    rw [bne_iff_ne]
    rintro rfl
    rcases List.mem_append.1 hc with hc | hc
    · exact (hfront _ hc).2 rfl
    · exact hquery (List.mem_of_ne_of_mem (by decide) hc)
  simp only [ofPath?, hfragment, dropWhile_of_stop hmark (bne_self_eq_false '?'),
    Option.map_some] at h
  split at h
  · cases h
    rfl
  · cases h

theorem query_of_ofAuthority? (hfront : ∀ c ∈ front, c ≠ '?' ∧ c ≠ '#') (hquery : '#' ∉ query)
    (h : ofAuthority? (front ++ '?' :: query) = some uri) :
    uri.query = some (String.ofList query) := by
  simp only [ofAuthority?] at h
  split at h
  · cases h
  rw [dropWhile_append_stop (by rfl)] at h
  obtain ⟨found, hfound, rfl⟩ := Option.map_eq_some_iff.1 h
  have hsuffix : front.dropWhile (fun c => !endsAuthority c) <:+ front := List.dropWhile_suffix _
  have hfoundQuery := query_of_ofPath? (fun c hc => hfront c (hsuffix.mem hc)) hquery hfound
  split
  · exact hfoundQuery
  · exact hfoundQuery

/-- What stands behind the scheme of a text still holds its question mark. -/
theorem eq_append_of_splitScheme? {rest : List Char}
    (h : splitScheme? (front ++ '?' :: query) = some (scheme, rest)) :
    ∃ more, rest = more ++ '?' :: query ∧ more <:+ front := by
  unfold splitScheme? at h
  rw [dropWhile_append_stop (by decide)] at h
  have hsuffix : front.dropWhile isSchemeChar <:+ front := List.dropWhile_suffix _
  -- The mark behind the scheme ends before the question mark.
  generalize front.dropWhile isSchemeChar = behind at h hsuffix
  match behind with
  | [] => cases h
  | [_] => simp at h
  | [_, _] => simp at h
  | a :: b :: c :: more =>
      simp only [List.cons_append] at h
      split at h
      · next hmatch =>
        cases h
        cases hmatch
        exact ⟨more, rfl, List.IsSuffix.trans ⟨[':', '/', '/'], rfl⟩ hsuffix⟩
      · cases h

/-- What is read behind the first question mark is the query, where there is no number sign. -/
theorem query_of_ofList? (hfront : ∀ c ∈ front, c ≠ '?' ∧ c ≠ '#') (hquery : '#' ∉ query)
    (h : ofList? (front ++ '?' :: query) = some uri) : uri.query = some (String.ofList query) := by
  unfold ofList? at h
  split at h
  · cases h
  · next hasterisk => cases front <;> simp at hasterisk
  · next hslash =>
    rw [← hslash] at h
    exact query_of_ofPath? hfront hquery h
  · split at h
    · next scheme rest hsplit =>
      obtain ⟨more, rfl, hmore⟩ := eq_append_of_splitScheme? hsplit
      split at h
      · cases h
      · exact query_of_ofAuthority? (fun c hc => hfront c (hmore.mem hc)) hquery h
    · split at h
      · next haccepts =>
        have hends := endsAuthority_of_accepts haccepts '?'
          (List.mem_append_right _ List.mem_cons_self)
        cases hends
      · cases h

end Tarpit.Net.Uri
