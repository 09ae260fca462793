import Mathlib.Logic.Relation
import Tarpit.Proofs.Web.Session

/-!
# What lets a request in

Of all that a request brings three things count: the text of its first field with
an authorization, the session cookies in those fields of cookies that can be
read, and the pairs of its query that begin as a token does.  The first of each
is a credential, and whatever else is put in, taken out or moved about makes no
difference.
-/

namespace Tarpit.Web

open Tarpit.Admin
open Tarpit.Net (Header Headers Uri)
open Tarpit.Admin.Credentials (tokenDigest)

/-! ## What counts -/

/-- The pairs of a query. -/
def pairs (uri : Uri) : List (List Char) :=
  uri.query.elim [] fun query => query.toList.splitOn '&'

def IsTokenPair (pair : List Char) : Prop :=
  "token=".toList <+: pair

instance : DecidablePred IsTokenPair := fun _ =>
  inferInstanceAs (Decidable (_ <+: _))

/-- The request presents this text, in one of the three places where a token is looked for. -/
inductive Credential (headers : Headers) (uri : Uri) : List Char → Prop
  | bearer {field : Header} {text : String} {rest : List Char}
      (first : headers.first? "authorization" = some field)
      (readable : field.text? = some text)
      (scheme : text.toList = "Bearer ".toList ++ rest) :
      Credential headers uri (Text.trim rest)
  | cookie {before after : List (List Char)} {cookie value : List Char}
      (found : cookies headers = before ++ cookie :: after)
      (first : ∀ other ∈ before, ¬ IsSession other)
      (named : Text.trim cookie = cookieName ++ '=' :: value) :
      Credential headers uri value
  | query {before after : List (List Char)} {rest : List Char}
      (found : pairs uri = before ++ ("token=".toList ++ rest) :: after)
      (first : ∀ other ∈ before, ¬ IsTokenPair other) :
      Credential headers uri rest

/-- Two requests bring the same in all that counts. -/
structure SameCredentials (headers headers' : Headers) (uri uri' : Uri) : Prop where
  authorization : headers.text? "authorization" = headers'.text? "authorization"
  sessions : (cookies headers).filter (IsSession ·) = (cookies headers').filter (IsSession ·)
  tokens : (pairs uri).filter (IsTokenPair ·) = (pairs uri').filter (IsTokenPair ·)

/-- A change of the fields that has nothing to do with a credential, written as an addition. -/
inductive FieldEdit : Headers → Headers → Prop
  | other {before after : Headers} {field : Header}
      (notAuthorization : field.isNamed "authorization" = false)
      (notCookie : field.isNamed "cookie" = false) :
      FieldEdit (before ++ after) (before ++ field :: after)
  | unreadable {before after : Headers} {field : Header}
      (isCookie : field.isNamed "cookie" = true) (blind : field.text? = none) :
      FieldEdit (before ++ after) (before ++ field :: after)
  /-- A field of cookies none of which is a session cookie. -/
  | strangers {before after : Headers} {field : Header} {text : String}
      (isCookie : field.isNamed "cookie" = true) (readable : field.text? = some text)
      (others : ∀ cookie ∈ text.toList.splitOn ';', ¬ IsSession cookie) :
      FieldEdit (before ++ after) (before ++ field :: after)
  /-- One more cookie in a field that can be read without it and with it. -/
  | within {before after : Headers} {field field' : Header} {text text' : String}
      {left right : List (List Char)} {cookie : List Char}
      (isCookie : field.isNamed "cookie" = true) (isCookie' : field'.isNamed "cookie" = true)
      (readable : field.text? = some text) (readable' : field'.text? = some text')
      (without : text.toList.splitOn ';' = left ++ right)
      (added : text'.toList.splitOn ';' = left ++ cookie :: right)
      (other : ¬ IsSession cookie) :
      FieldEdit (before ++ field :: after) (before ++ field' :: after)
  /-- One more authorization behind the first. -/
  | repeated {before after : Headers} {field first : Header}
      (earlier : before.first? "authorization" = some first)
      (isAuthorization : field.isNamed "authorization" = true) :
      FieldEdit (before ++ after) (before ++ field :: after)
  | swapped {before after : Headers} {field field' : Header}
      (differ : Text.lowered field.name ≠ Text.lowered field'.name) :
      FieldEdit (before ++ field :: field' :: after) (before ++ field' :: field :: after)

/-- A change of a request that has nothing to do with a credential, written as an addition. -/
inductive Edit : Headers × Uri → Headers × Uri → Prop
  | fields {headers headers' : Headers} {uri : Uri} (h : FieldEdit headers headers') :
      Edit (headers, uri) (headers', uri)
  /-- One more pair in the query, whatever the path. -/
  | pair {headers : Headers} {uri uri' : Uri} {left right : List (List Char)} {pair : List Char}
      (without : pairs uri = left ++ right) (added : pairs uri' = left ++ pair :: right)
      (other : ¬ IsTokenPair pair) : Edit (headers, uri) (headers, uri')

/-- The credentials let in whoever presents the token, and look at nothing else. -/
structure Guarded (c : Credentials) : Prop where
  /-- A request is let in for a text with the digest of the token, and for nothing else. -/
  lets_in : ∀ headers uri, c.authorize headers uri = true ↔
    ∃ presented, Credential headers uri presented ∧
      tokenDigest (String.ofList presented) = tokenDigest c.token
  alike : ∀ headers headers' uri uri', SameCredentials headers headers' uri uri' →
    c.authorize headers uri = c.authorize headers' uri'
  /-- Whatever of the rest is put in, taken out or moved about, the answer stays. -/
  edited : ∀ r r' : Headers × Uri, Relation.EqvGen Edit r r' →
    c.authorize r.1 r.2 = c.authorize r'.1 r'.2

/-! ## The three places -/

section

variable {headers : Headers} {uri : Uri} {token : String}

theorem bearer?_eq_some_iff : Credentials.bearer? headers = some token ↔
    ∃ field text rest, headers.first? "authorization" = some field ∧ field.text? = some text ∧
      text.toList = "Bearer ".toList ++ rest ∧ String.ofList (Text.trim rest) = token := by
  simp only [Credentials.bearer?, Headers.text?, Option.bind_eq_some_iff, Option.map_eq_some_iff,
    Text.after?_eq_some_iff]
  constructor
  · rintro ⟨text, ⟨field, hfirst, htext⟩, rest, hrest, htoken⟩
    exact ⟨field, text, rest, hfirst, htext, hrest, htoken⟩
  · rintro ⟨field, text, rest, hfirst, htext, hrest, htoken⟩
    exact ⟨text, ⟨field, hfirst, htext⟩, rest, hrest, htoken⟩

theorem sessionValue?_eq_some_iff {cookie value : List Char} :
    Credentials.sessionValue? cookie = some value ↔
      Text.trim cookie = cookieName ++ '=' :: value := by
  rw [Credentials.sessionValue?, Text.after?_eq_some_iff, List.append_assoc, List.singleton_append]

theorem sessionValue?_eq_none_iff {cookie : List Char} :
    Credentials.sessionValue? cookie = none ↔ ¬ IsSession cookie := by
  refine ⟨fun hnone hsession => ?_, sessionValue?_of_not_isSession⟩
  obtain ⟨hequals, hname⟩ := hsession
  -- The name ends at the first sign of equality, and there is one.
  obtain ⟨value, hvalue⟩ : ∃ value,
      (Text.trim cookie).dropWhile (· != '=') = '=' :: value := by
    cases hrest : (Text.trim cookie).dropWhile (· != '=') with
    | nil => exact absurd (List.dropWhile_eq_nil_iff.1 hrest '=' hequals) (by decide)
    | cons d value =>
        have hstop := List.head?_dropWhile_not (· != '=') (Text.trim cookie)
        rw [hrest] at hstop
        exact ⟨value, by rw [show d = '=' by simpa using hstop]⟩
  have hsome : Credentials.sessionValue? cookie = some value := by
    rw [sessionValue?_eq_some_iff, ← hname, ← hvalue, List.takeWhile_append_dropWhile]
  rw [hnone] at hsome
  cases hsome

theorem cookie?_eq_some_iff : Credentials.cookie? headers = some token ↔
    ∃ before cookie after value, cookies headers = before ++ cookie :: after ∧
      (∀ other ∈ before, ¬ IsSession other) ∧
      Text.trim cookie = cookieName ++ '=' :: value ∧ String.ofList value = token := by
  show ((cookies headers).findSome? Credentials.sessionValue?).map String.ofList = some token ↔ _
  simp only [Option.map_eq_some_iff, List.findSome?_eq_some_iff, sessionValue?_eq_some_iff,
    sessionValue?_eq_none_iff]
  constructor
  · rintro ⟨value, ⟨before, cookie, after, hfound, hnamed, hfirst⟩, htoken⟩
    exact ⟨before, cookie, after, value, hfound, hfirst, hnamed, htoken⟩
  · rintro ⟨before, cookie, after, value, hfound, hfirst, hnamed, htoken⟩
    exact ⟨value, ⟨before, cookie, after, hfound, hnamed, hfirst⟩, htoken⟩

theorem queryToken?_eq (uri : Uri) : Credentials.queryToken? uri =
    ((pairs uri).findSome? (Text.after? "token=".toList)).map String.ofList := by
  rw [Credentials.queryToken?, pairs]
  cases uri.query with
  | none => rfl
  | some query => rfl

theorem after?_token_eq_none_iff {pair : List Char} :
    Text.after? "token=".toList pair = none ↔ ¬ IsTokenPair pair := by
  rw [Option.eq_none_iff_forall_ne_some, IsTokenPair, List.prefix_iff_exists_append_eq, not_exists]
  exact forall_congr' fun rest => not_congr (Text.after?_eq_some_iff.trans eq_comm)

theorem queryToken?_eq_some_iff : Credentials.queryToken? uri = some token ↔
    ∃ before after rest, pairs uri = before ++ ("token=".toList ++ rest) :: after ∧
      (∀ other ∈ before, ¬ IsTokenPair other) ∧ String.ofList rest = token := by
  simp only [queryToken?_eq, Option.map_eq_some_iff, List.findSome?_eq_some_iff,
    after?_token_eq_none_iff, Text.after?_eq_some_iff]
  constructor
  · rintro ⟨rest, ⟨before, pair, after, hfound, rfl, hfirst⟩, htoken⟩
    exact ⟨before, after, rest, hfound, hfirst, htoken⟩
  · rintro ⟨before, after, rest, hfound, hfirst, htoken⟩
    exact ⟨rest, ⟨before, _, after, hfound, rfl, hfirst⟩, htoken⟩

end

/-! ## What lets in -/

variable {c : Credentials}

theorem accepts_iff {presented? : Option String} : c.accepts presented? = true ↔
    ∃ presented, presented? = some presented ∧ tokenDigest presented = tokenDigest c.token := by
  simp only [Credentials.accepts, Option.any_eq_true, Credentials.verify, beq_iff_eq]

theorem authorize_iff {headers : Headers} {uri : Uri} : c.authorize headers uri = true ↔
    ∃ presented, Credential headers uri presented ∧
      tokenDigest (String.ofList presented) = tokenDigest c.token := by
  simp only [Credentials.authorize, Bool.or_eq_true, accepts_iff]
  constructor
  · rintro ((⟨_, hbearer, hdigest⟩ | ⟨_, hcookie, hdigest⟩) | ⟨_, hquery, hdigest⟩)
    · obtain ⟨field, text, rest, hfirst, htext, hrest, rfl⟩ := bearer?_eq_some_iff.1 hbearer
      exact ⟨_, .bearer hfirst htext hrest, hdigest⟩
    · obtain ⟨before, cookie, after, value, hfound, hfirst, hnamed, rfl⟩ :=
        cookie?_eq_some_iff.1 hcookie
      exact ⟨_, .cookie hfound hfirst hnamed, hdigest⟩
    · obtain ⟨before, after, rest, hfound, hfirst, rfl⟩ := queryToken?_eq_some_iff.1 hquery
      exact ⟨_, .query hfound hfirst, hdigest⟩
  · rintro ⟨presented, hpresented, hdigest⟩
    cases hpresented with
    | bearer first readable scheme =>
        exact .inl (.inl ⟨_, bearer?_eq_some_iff.2 ⟨_, _, _, first, readable, scheme, rfl⟩,
          hdigest⟩)
    | cookie found first named =>
        exact .inl (.inr ⟨_, cookie?_eq_some_iff.2 ⟨_, _, _, _, found, first, named, rfl⟩,
          hdigest⟩)
    | query found first =>
        exact .inr ⟨_, queryToken?_eq_some_iff.2 ⟨_, _, _, found, first, rfl⟩, hdigest⟩

/-! ## Nothing else is looked at -/

theorem filter_cons_of_not {α : Type} {p : α → Prop} [DecidablePred p] {a : α} (h : ¬ p a)
    (l : List α) : (a :: l).filter (p ·) = l.filter (p ·) :=
  List.filter_cons_of_neg (decide_eq_true_iff.not.2 h)

/-- The first that a function finds is among those that it can find. -/
theorem findSome?_filter {α β : Type} {f : α → Option β} {p : α → Prop} [DecidablePred p]
    (h : ∀ a, ¬ p a → f a = none) (l : List α) : (l.filter (p ·)).findSome? f = l.findSome? f := by
  induction l with
  | nil => rfl
  | cons a rest ih =>
      by_cases ha : p a
      · rw [List.filter_cons, if_pos (decide_eq_true ha), List.findSome?_cons, List.findSome?_cons,
          ih]
      · rw [filter_cons_of_not ha, List.findSome?_cons, h a ha, ih]

theorem SameCredentials.authorize_eq {headers headers' : Headers} {uri uri' : Uri}
    (h : SameCredentials headers headers' uri uri') :
    c.authorize headers uri = c.authorize headers' uri' := by
  have hbearer : Credentials.bearer? headers = Credentials.bearer? headers' := by
    rw [Credentials.bearer?, Credentials.bearer?, h.authorization]
  have hcookie : Credentials.cookie? headers = Credentials.cookie? headers' := by
    show ((cookies headers).findSome? _).map _ = ((cookies headers').findSome? _).map _
    rw [← findSome?_filter (fun _ => sessionValue?_eq_none_iff.2), h.sessions,
      findSome?_filter fun _ => sessionValue?_eq_none_iff.2]
  have hquery : Credentials.queryToken? uri = Credentials.queryToken? uri' := by
    rw [queryToken?_eq, queryToken?_eq, ← findSome?_filter fun _ => after?_token_eq_none_iff.2,
      h.tokens, findSome?_filter fun _ => after?_token_eq_none_iff.2]
  rw [Credentials.authorize, Credentials.authorize, hbearer, hcookie, hquery]

/-! ## Edits -/

section

variable {before after : Headers} {field field' : Header} {uri uri' : Uri}

theorem cookies_cons (field : Header) (later : Headers) :
    cookies (field :: later) = cookies [field] ++ cookies later :=
  cookies_append [field] later

theorem cookies_of_not_isNamed (h : field.isNamed "cookie" = false) : cookies [field] = [] := by
  rw [cookies, Headers.texts, List.filter_cons, if_neg (Bool.eq_false_iff.1 h)]
  rfl

theorem cookies_of_isNamed (h : field.isNamed "cookie" = true) :
    cookies [field] = field.text?.elim [] fun text => text.toList.splitOn ';' := by
  rw [cookies, Headers.texts, List.filter_cons, if_pos h, List.filter_nil]
  cases htext : field.text? with
  | none => rw [List.filterMap_cons_none htext]; rfl
  | some text => rw [List.filterMap_cons_some htext]; exact List.append_nil _

theorem not_isNamed_authorization (h : field.isNamed "cookie" = true) :
    field.isNamed "authorization" = false := by
  unfold Header.isNamed at *
  rw [eq_of_beq h]
  decide

theorem first?_insert {name : String} (h : field.isNamed name = false) :
    Headers.first? (before ++ field :: after) name = Headers.first? (before ++ after) name := by
  simp only [Headers.first?, List.find?_append, List.find?_cons, h]

/-- A field without an authorization or a session cookie makes no difference. -/
theorem sameCredentials_insert (hname : field.isNamed "authorization" = false)
    (hothers : ∀ cookie ∈ cookies [field], ¬ IsSession cookie) :
    SameCredentials (before ++ after) (before ++ field :: after) uri uri where
  authorization := by rw [Headers.text?, Headers.text?, first?_insert hname]
  sessions := by
    have hnone : (cookies [field]).filter (IsSession ·) = [] :=
      List.filter_eq_nil_iff.2 fun cookie hcookie =>
        decide_eq_true_iff.not.2 (hothers cookie hcookie)
    rw [cookies_append, cookies_append, cookies_cons, List.filter_append, List.filter_append,
      List.filter_append, hnone, List.nil_append]
  tokens := rfl

theorem sameCredentials_within {left right : List (List Char)} {cookie : List Char}
    (hname : field.isNamed "authorization" = false)
    (hname' : field'.isNamed "authorization" = false)
    (hcookies : cookies [field] = left ++ right)
    (hcookies' : cookies [field'] = left ++ cookie :: right) (hother : ¬ IsSession cookie) :
    SameCredentials (before ++ field :: after) (before ++ field' :: after) uri uri where
  authorization := by
    rw [Headers.text?, Headers.text?, first?_insert hname, first?_insert hname']
  sessions := by
    have hsame : (cookies [field]).filter (IsSession ·) =
        (cookies [field']).filter (IsSession ·) := by
      rw [hcookies, hcookies', List.filter_append, List.filter_append, filter_cons_of_not hother]
    rw [cookies_append, cookies_append, cookies_cons field, cookies_cons field',
      List.filter_append, List.filter_append, List.filter_append, List.filter_append, hsame]
  tokens := rfl

/-- An authorization behind the first is not looked at. -/
theorem sameCredentials_repeated {first : Header}
    (hearlier : before.first? "authorization" = some first)
    (hname : field.isNamed "authorization" = true) :
    SameCredentials (before ++ after) (before ++ field :: after) uri uri where
  authorization := by
    have hfirst : before.find? (fun h => h.isNamed "authorization") = some first := hearlier
    simp only [Headers.text?, Headers.first?, List.find?_append, hfirst, Option.some_or]
  sessions := by
    have hnone : cookies [field] = [] := by
      apply cookies_of_not_isNamed
      rw [Bool.eq_false_iff]
      intro hcookie
      rw [not_isNamed_authorization hcookie] at hname
      cases hname
    rw [cookies_append, cookies_append, cookies_cons, hnone, List.nil_append]
  tokens := rfl

/-- At most one of two fields with different names has a given name. -/
theorem not_isNamed_of_ne (h : Text.lowered field.name ≠ Text.lowered field'.name)
    (name : String) : field.isNamed name = false ∨ field'.isNamed name = false := by
  unfold Header.isNamed
  by_cases hname : Text.lowered field.name = name
  · exact .inr (beq_false_of_ne fun hname' => h (hname.trans hname'.symm))
  · exact .inl (beq_false_of_ne hname)

theorem sameCredentials_swap (h : Text.lowered field.name ≠ Text.lowered field'.name) :
    SameCredentials (before ++ field :: field' :: after) (before ++ field' :: field :: after)
      uri uri where
  authorization := by
    have hfirst : ∀ {g g' : Header}, g.isNamed "authorization" = false →
        Headers.first? (before ++ g :: g' :: after) "authorization" =
          Headers.first? (before ++ g' :: g :: after) "authorization" := by
      intro g g' hg
      rw [first?_insert hg, List.append_cons before g' (g :: after), first?_insert hg,
        ← List.append_cons before g' after]
    rw [Headers.text?, Headers.text?]
    rcases not_isNamed_of_ne h "authorization" with hname | hname
    · rw [hfirst hname]
    · rw [hfirst hname]
  sessions := by
    have hswap : cookies [field] ++ cookies [field'] = cookies [field'] ++ cookies [field] := by
      rcases not_isNamed_of_ne h "cookie" with hname | hname
      · rw [cookies_of_not_isNamed hname, List.nil_append, List.append_nil]
      · rw [cookies_of_not_isNamed hname, List.nil_append, List.append_nil]
    rw [cookies_append, cookies_append, cookies_cons field (field' :: after),
      cookies_cons field' after, cookies_cons field' (field :: after), cookies_cons field after,
      ← List.append_assoc (cookies [field]), hswap, List.append_assoc]
  tokens := rfl

theorem FieldEdit.sameCredentials {headers headers' : Headers} (h : FieldEdit headers headers') :
    SameCredentials headers headers' uri uri := by
  cases h with
  | other notAuthorization notCookie =>
      apply sameCredentials_insert notAuthorization
      rw [cookies_of_not_isNamed notCookie]
      exact List.forall_mem_nil _
  | unreadable isCookie blind =>
      apply sameCredentials_insert (not_isNamed_authorization isCookie)
      rw [cookies_of_isNamed isCookie, blind]
      exact List.forall_mem_nil _
  | strangers isCookie readable others =>
      apply sameCredentials_insert (not_isNamed_authorization isCookie)
      rw [cookies_of_isNamed isCookie, readable]
      exact others
  | @within _ _ field field' _ _ left right cookie isCookie isCookie' readable readable' without
      added other =>
      have hcookies : cookies [field] = left ++ right := by
        rw [cookies_of_isNamed isCookie, readable]
        exact without
      have hcookies' : cookies [field'] = left ++ cookie :: right := by
        rw [cookies_of_isNamed isCookie', readable']
        exact added
      exact sameCredentials_within (not_isNamed_authorization isCookie)
        (not_isNamed_authorization isCookie') hcookies hcookies' other
  | repeated earlier isAuthorization => exact sameCredentials_repeated earlier isAuthorization
  | swapped differ => exact sameCredentials_swap differ

end

theorem Edit.sameCredentials {r r' : Headers × Uri} (h : Edit r r') :
    SameCredentials r.1 r'.1 r.2 r'.2 := by
  cases h with
  | fields h => exact h.sameCredentials
  | pair without added other =>
      refine ⟨rfl, rfl, ?_⟩
      rw [without, added, List.filter_append, List.filter_append, filter_cons_of_not other]

/-- An edit of an edit, taken back or not, is as good as none. -/
theorem authorize_eq_of_eqvGen {r r' : Headers × Uri} (h : Relation.EqvGen Edit r r') :
    c.authorize r.1 r.2 = c.authorize r'.1 r'.2 := by
  induction h with
  | rel _ _ h => exact h.sameCredentials.authorize_eq
  | refl _ => rfl
  | symm _ _ _ ih => exact ih.symm
  | trans _ _ _ _ _ ih ih' => exact ih.trans ih'

/--
Credentials are guarded.  A request is let in for its first authorization, its first session cookie
or the first token in its query, and for nothing else.
-/
theorem guarded (c : Credentials) : Guarded c where
  lets_in _ _ := authorize_iff
  alike _ _ _ _ h := h.authorize_eq
  edited _ _ h := authorize_eq_of_eqvGen h

/-- A cookie of another name shuts out who is let in, if its field cannot be read with it. -/
theorem authorize_blind_cookie :
    ¬ IsSession "theme=é".toList ∧
      homeCredentials.authorize
        [cookieField "Cookie" ["spider_trap_admin=test-token".toList]] ⟨"/", none⟩ = true ∧
      homeCredentials.authorize
        [cookieField "Cookie" ["spider_trap_admin=test-token".toList, "theme=é".toList]]
          ⟨"/", none⟩ = false := by
  have hcookie : Credentials.cookie?
      [cookieField "Cookie" ["spider_trap_admin=test-token".toList]] = some "test-token" := by
    decide +kernel
  have hblind : Credentials.cookie?
      [cookieField "Cookie" ["spider_trap_admin=test-token".toList, "theme=é".toList]] = none := by
    decide +kernel
  refine ⟨by decide +kernel, ?_, ?_⟩
  · rw [Credentials.authorize, hcookie]
    exact Bool.or_eq_true_iff.2 (.inl (Bool.or_eq_true_iff.2 (.inr accepts_token)))
  · rw [Credentials.authorize, hblind]
    rfl

end Tarpit.Web
