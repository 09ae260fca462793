import Mathlib.Data.List.DropRight
import Tarpit.Proofs.Net.Header
import Tarpit.Proofs.Text.Blank
import Tarpit.Proofs.Web.Operator

/-!
# Sessions of the operator

The token makes its way from the address at which the operator logs in to the
cookie, and from there to the requests of the session.  The address, the query,
the fields and the cookies are spelt and read by functions that do not know of
each other, and agree for every token that needs no escape.
-/

namespace Tarpit.Web

open Tarpit.Admin
open Tarpit.Net (Authority.accepts Header Headers IsPrintable Uri)
open Tarpit.Text (isBlank)

/-! ## What is said of a session -/

/-- An address to log in at: a scheme, an authority and what path there is. -/
structure Base where
  scheme : List Char
  authority : List Char
  path : List Char
  isSchemeChar : ∀ c ∈ scheme, Uri.isSchemeChar c = true
  scheme_length : scheme.length ≤ Uri.maxScheme
  authority_ne_nil : authority ≠ []
  accepts : Authority.accepts authority = true
  head_path : ∀ c, path.head? = some c → c = '/'
  isPathChar : ∀ c ∈ path, Uri.isPathChar c = true

def Base.text (b : Base) : String :=
  String.ofList (b.scheme ++ ':' :: '/' :: '/' :: (b.authority ++ b.path))

/-- The part of a cookie before its attributes, which a browser sends back. -/
def cookiePair (cookie : String) : List Char :=
  cookie.toList.takeWhile (· != ';')

/-- The cookie has the name of a session cookie. -/
def IsSession (cookie : List Char) : Prop :=
  '=' ∈ Text.trim cookie ∧ (Text.trim cookie).takeWhile (· != '=') = cookieName

instance : DecidablePred IsSession := fun _ =>
  inferInstanceAs (Decidable (_ ∧ _))

/-- The text can stand between the semicolons of a field. -/
def FitsField (cookie : List Char) : Prop :=
  ∀ c ∈ cookie, IsPrintable c ∧ c ≠ ';'

instance : DecidablePred FitsField := fun cookie =>
  List.decidableBAll _ cookie

/-- The cookies in the fields of cookies that can be read. -/
def cookies (headers : Headers) : List (List Char) :=
  (headers.texts "cookie").flatMap fun s => s.toList.splitOn ';'

/-- A field with cookies. -/
def cookieField (name : String) (pieces : List (List Char)) : Header :=
  ⟨name, Text.Utf8.encode ([';'].intercalate pieces)⟩

def IsSpace (c : Char) : Prop :=
  c = ' ' ∨ c = '\t'

instance : DecidablePred IsSpace := fun _ =>
  inferInstanceAs (Decidable (_ ∨ _))

/--
The fields have a field of cookies in which the pair stands, with spaces around it, and whatever
other cookies there are before it, there and in the fields before that, are not session cookies.
-/
inductive Carries (pair : List Char) : Headers → Prop
  | intro {fields later : Headers} {name : String} {before after : List (List Char)}
      {left right : List Char}
      (isCookie : Text.lowered name = "cookie")
      (fits : ∀ cookie ∈ before ++ after, FitsField cookie)
      (others : ∀ cookie ∈ cookies fields ++ before, ¬ IsSession cookie)
      (left_space : ∀ c ∈ left, IsSpace c)
      (right_space : ∀ c ∈ right, IsSpace c) :
      Carries pair
        (fields ++ cookieField name (before ++ (left ++ (pair ++ right)) :: after) :: later)

/-- The request presents the token as a bearer or in its query. -/
inductive Presents (token : String) : Headers → Uri → Prop
  | bearer {headers : Headers} {uri : Uri} {field : Header} {left right : List Char}
      (first : headers.first? "authorization" = some field)
      (left_space : ∀ c ∈ left, IsSpace c)
      (right_space : ∀ c ∈ right, IsSpace c)
      (value : field.value =
        Text.Utf8.encode ("Bearer ".toList ++ (left ++ (token.toList ++ right)))) :
      Presents token headers uri
  | query {headers : Headers} {path : String} {before after : List (List Char)}
      (before_other : ∀ pair ∈ before, '&' ∉ pair ∧ ¬ "token=".toList <+: pair)
      (after_pair : ∀ pair ∈ after, '&' ∉ pair) :
      Presents token headers ⟨path, some (String.ofList
        (['&'].intercalate (before ++ ("token=".toList ++ token.toList) :: after)))⟩

/-- Whatever way the token takes, the credentials accept it. -/
structure Closes (c : Credentials) : Prop where
  /-- What is read of the address to log in at is answered by a cookie. -/
  login : ∀ base : String, '?' ∉ base.toList → '#' ∉ base.toList →
    ∀ uri, Uri.parse? (c.loginUrl base) = some uri → ∃ cookie, c.login? uri = some cookie
  /-- The address can be read, if it is not too long. -/
  readable : ∀ b : Base, (c.loginUrl b.text).utf8ByteSize ≤ Uri.maxBytes →
    ∃ uri, Uri.parse? (c.loginUrl b.text) = some uri
  /-- The cookie stands for the token. -/
  session : ∀ uri cookie, c.login? uri = some cookie →
    ∀ headers, Carries (cookiePair cookie) headers → ∀ uri', c.authorize headers uri' = true
  presented : ∀ headers uri, Presents c.token headers uri → c.authorize headers uri = true

/-! ## Characters of a token -/

theorem toNat_lt_of_isUnreserved {c : Char} (h : isUnreserved c = true) : c.toNat < 128 := by
  have hbelow : ∀ {d : Char}, c.val ≤ d.val → d.toNat < 128 → c.toNat < 128 := fun hle hd =>
    Nat.lt_of_le_of_lt (UInt32.le_iff_toNat_le.1 hle) hd
  simp only [isUnreserved, Bool.or_eq_true, beq_iff_eq] at h
  rcases h with (((halnum | rfl) | rfl) | rfl) | rfl
  · rcases Bool.or_eq_true_iff.1 halnum with halpha | hdigit
    · rcases Bool.or_eq_true_iff.1 halpha with hupper | hlower
      · exact hbelow (d := 'Z') (of_decide_eq_true hupper).2 (by decide)
      · exact hbelow (d := 'z') (of_decide_eq_true (Bool.and_eq_true_iff.1 hlower).2) (by decide)
    · exact hbelow (d := '9') (of_decide_eq_true (Bool.and_eq_true_iff.1 hdigit).2) (by decide)
  · decide
  · decide
  · decide
  · decide

/-- What a table says of the characters that stand for themselves. -/
theorem forall_isUnreserved {p : Char → Prop}
    (table : ∀ n < 128, isUnreserved (Char.ofNat n) = true → p (Char.ofNat n)) {c : Char}
    (h : isUnreserved c = true) : p c := by
  have hc := table c.toNat (toNat_lt_of_isUnreserved h)
  rw [Char.ofNat_toNat] at hc
  exact hc h

theorem isPrintable_of_isUnreserved {c : Char} (h : isUnreserved c = true) : IsPrintable c :=
  forall_isUnreserved (by decide +kernel) h

theorem isBlank_of_isUnreserved {c : Char} (h : isUnreserved c = true) : isBlank c = false :=
  forall_isUnreserved (p := fun c => isBlank c = false) (by decide +kernel) h

theorem isPathChar_of_isUnreserved {c : Char} (h : isUnreserved c = true) :
    Uri.isPathChar c = true :=
  forall_isUnreserved (p := fun c => Uri.isPathChar c = true) (by decide +kernel) h

theorem isQueryChar_of_isUnreserved {c : Char} (h : isUnreserved c = true) :
    Uri.isQueryChar c = true :=
  forall_isUnreserved (p := fun c => Uri.isQueryChar c = true) (by decide +kernel) h

theorem not_mem_of_isUnreserved {s : List Char} (h : ∀ c ∈ s, isUnreserved c = true) {d : Char}
    (hd : isUnreserved d = false) : d ∉ s := by
  intro hmem
  rw [h d hmem] at hd
  cases hd

theorem IsSpace.isBlank {c : Char} (h : IsSpace c) : isBlank c = true := by
  rcases h with rfl | rfl
  · decide
  · decide

theorem IsSpace.isPrintable {c : Char} (h : IsSpace c) : IsPrintable c := by
  rcases h with rfl | rfl
  · decide
  · decide

/-! ## Tokens that are presented -/

section

variable {token : String}

/-- Spaces around a text without blanks are not part of it. -/
theorem trim_spaced {s left right : List Char} (hsolid : ∀ c ∈ s, isBlank c = false)
    (hleft : ∀ c ∈ left, IsSpace c) (hright : ∀ c ∈ right, IsSpace c) :
    Text.trim (left ++ (s ++ right)) = s := by
  rw [Text.trim_of_blank_around (fun c hc => (hleft c hc).isBlank)
    fun c hc => (hright c hc).isBlank]
  apply Text.trim_eq_self
  · exact fun c hc => hsolid c (List.mem_of_mem_head? hc)
  · exact fun c hc => hsolid c (List.mem_of_getLast? hc)

theorem bearer?_of_first (htoken : ∀ c ∈ token.toList, isUnreserved c = true) {headers : Headers}
    {field : Header} {left right : List Char} (first : headers.first? "authorization" = some field)
    (hleft : ∀ c ∈ left, IsSpace c) (hright : ∀ c ∈ right, IsSpace c)
    (value : field.value =
      Text.Utf8.encode ("Bearer ".toList ++ (left ++ (token.toList ++ right)))) :
    Credentials.bearer? headers = some token := by
  have hprintable : ∀ c ∈ "Bearer ".toList ++ (left ++ (token.toList ++ right)),
      IsPrintable c := by
    have hscheme : FitsField "Bearer ".toList := by decide
    simp only [List.forall_mem_append]
    exact ⟨fun c hc => (hscheme c hc).1, fun c hc => (hleft c hc).isPrintable,
      fun c hc => isPrintable_of_isUnreserved (htoken c hc), fun c hc => (hright c hc).isPrintable⟩
  have hsolid : ∀ c ∈ token.toList, isBlank c = false := fun c hc =>
    isBlank_of_isUnreserved (htoken c hc)
  have hread : Text.after? "Bearer ".toList (String.ofList
      ("Bearer ".toList ++ (left ++ (token.toList ++ right)))).toList =
        some (left ++ (token.toList ++ right)) :=
    (congrArg _ String.toList_ofList).trans (Text.after?_append _ _)
  rw [Credentials.bearer?, Headers.text?, first, Option.bind_some,
    Net.text?_of_isPrintable hprintable value, Option.bind_some, hread, Option.map_some,
    trim_spaced hsolid hleft hright, String.ofList_toList]

/-- The first pair that begins as a token does has the token. -/
theorem queryToken?_of_first {path : String} {before after : List (List Char)}
    (htoken : '&' ∉ token.toList)
    (hbefore : ∀ pair ∈ before, '&' ∉ pair ∧ ¬ "token=".toList <+: pair)
    (hafter : ∀ pair ∈ after, '&' ∉ pair) :
    Credentials.queryToken? ⟨path, some (String.ofList
      (['&'].intercalate (before ++ ("token=".toList ++ token.toList) :: after)))⟩ =
        some token := by
  have hpairs : ∀ pair ∈ before ++ ("token=".toList ++ token.toList) :: after, '&' ∉ pair := by
    rw [List.forall_mem_append, List.forall_mem_cons, List.mem_append, not_or]
    exact ⟨fun pair hpair => (hbefore pair hpair).1, ⟨by decide, htoken⟩, hafter⟩
  have hnone : before.findSome? (Text.after? "token=".toList) = none := by
    rw [List.findSome?_eq_none_iff]
    intro pair hpair
    cases hrest : Text.after? "token=".toList pair with
    | none => rfl
    | some rest =>
        exact absurd ⟨rest, (Text.eq_append_of_after? hrest).symm⟩ (hbefore pair hpair).2
  have hsplit : (String.ofList (['&'].intercalate
      (before ++ ("token=".toList ++ token.toList) :: after))).toList.splitOn '&' =
        before ++ ("token=".toList ++ token.toList) :: after :=
    (congrArg _ String.toList_ofList).trans (List.splitOn_intercalate '&' hpairs (by simp))
  rw [Credentials.queryToken?, Option.bind_some, hsplit, List.findSome?_append, hnone,
    Option.none_or, List.findSome?_cons, Text.after?_append]
  simp only [Option.map_some, String.ofList_toList]

end

section

variable {c : Credentials}

theorem accepts_token : c.accepts (some c.token) = true :=
  c.verify_token

theorem authorize_of_presents (htoken : ∀ ch ∈ c.token.toList, isUnreserved ch = true)
    {headers : Headers} {uri : Uri} (h : Presents c.token headers uri) :
    c.authorize headers uri = true := by
  cases h with
  | bearer first left_space right_space value =>
      have hbearer := bearer?_of_first htoken first left_space right_space value
      rw [Credentials.authorize, hbearer, accepts_token, Bool.true_or, Bool.true_or]
  | query before_other after_pair =>
      have hamp : '&' ∉ c.token.toList := not_mem_of_isUnreserved htoken (by decide)
      rw [Credentials.authorize, queryToken?_of_first hamp before_other after_pair, accepts_token,
        Bool.or_true]

/-! ## Cookies -/

theorem eq_sessionCookie_of_login? {uri : Uri} {cookie : String}
    (h : c.login? uri = some cookie) : cookie = c.sessionCookie := by
  unfold Credentials.login? at h
  split at h
  · exact (Option.some.inj h).symm
  · cases h

theorem cookiePair_sessionCookie (htoken : ';' ∉ c.token.toList) :
    cookiePair c.sessionCookie = cookieName ++ '=' :: c.token.toList := by
  have hpair : ∀ d ∈ cookieName ++ '=' :: c.token.toList, (d != ';') = true := by
    rw [List.append_cons, List.forall_mem_append]
    refine ⟨List.all_eq_true.1 (by decide), fun d hd => ?_⟩
    rw [bne_iff_ne]
    rintro rfl
    exact htoken hd
  have hattributes : "; Path=/; Max-Age=".toList = ';' :: " Path=/; Max-Age=".toList := rfl
  rw [cookiePair, Credentials.sessionCookie, String.toList_ofList, hattributes]
  simp only [List.append_assoc, List.cons_append]
  rw [← List.cons_append, ← List.append_assoc]
  exact Net.Uri.takeWhile_of_stop hpair (bne_self_eq_false ';')

/-- A cookie that is read as a session cookie has the name of one. -/
theorem sessionValue?_of_not_isSession {cookie : List Char} (h : ¬ IsSession cookie) :
    Credentials.sessionValue? cookie = none := by
  cases hvalue : Credentials.sessionValue? cookie with
  | none => rfl
  | some value =>
      exfalso
      apply h
      have htrim := Text.eq_append_of_after? hvalue
      rw [List.append_assoc, List.singleton_append] at htrim
      have hname : ∀ d ∈ cookieName, (d != '=') = true := List.all_eq_true.1 (by decide)
      constructor
      · rw [htrim]
        exact List.mem_append_right _ List.mem_cons_self
      · rw [htrim]
        exact Net.Uri.takeWhile_of_stop hname (bne_self_eq_false '=')

theorem sessionValue?_pair (htoken : ∀ ch ∈ c.token.toList, isUnreserved ch = true)
    {left right : List Char} (hleft : ∀ ch ∈ left, IsSpace ch) (hright : ∀ ch ∈ right, IsSpace ch) :
    Credentials.sessionValue? (left ++ ((cookieName ++ '=' :: c.token.toList) ++ right)) =
      some c.token.toList := by
  have hsolid : ∀ ch ∈ cookieName ++ '=' :: c.token.toList, isBlank ch = false := by
    have hname : ∀ ch ∈ cookieName ++ ['='], ¬ isBlank ch = true :=
      List.any_eq_false.1 (by decide)
    rw [List.append_cons, List.forall_mem_append]
    exact ⟨fun ch hch => Bool.eq_false_iff.2 (hname ch hch),
      fun ch hch => isBlank_of_isUnreserved (htoken ch hch)⟩
  rw [Credentials.sessionValue?, trim_spaced hsolid hleft hright,
    List.append_cons cookieName '=' c.token.toList, Text.after?_append]

theorem fitsField_pair (htoken : ∀ ch ∈ c.token.toList, isUnreserved ch = true)
    {left right : List Char} (hleft : ∀ ch ∈ left, IsSpace ch) (hright : ∀ ch ∈ right, IsSpace ch) :
    FitsField (left ++ ((cookieName ++ '=' :: c.token.toList) ++ right)) := by
  have hname : FitsField (cookieName ++ ['=']) := by decide
  have hspace : ∀ ch, IsSpace ch → IsPrintable ch ∧ ch ≠ ';' := by
    rintro ch (rfl | rfl)
    · decide
    · decide
  have htoken' : FitsField c.token.toList := fun ch hch =>
    forall_isUnreserved (p := fun ch => IsPrintable ch ∧ ch ≠ ';') (by decide +kernel)
      (htoken ch hch)
  rw [FitsField, List.forall_mem_append, List.forall_mem_append, List.append_cons,
    List.forall_mem_append]
  exact ⟨fun ch hch => hspace ch (hleft ch hch), ⟨hname, htoken'⟩,
    fun ch hch => hspace ch (hright ch hch)⟩

end

theorem cookies_append (fields fields' : Headers) :
    cookies (fields ++ fields') = cookies fields ++ cookies fields' := by
  simp only [cookies, Headers.texts, List.filter_append, List.filterMap_append,
    List.flatMap_append]

/-- A field of cookies gives the cookies that were put into it. -/
theorem cookies_cookieField_cons {name : String} (hname : Text.lowered name = "cookie")
    {pieces : List (List Char)} (hne : pieces ≠ []) (hfits : ∀ cookie ∈ pieces, FitsField cookie)
    (later : Headers) : cookies (cookieField name pieces :: later) = pieces ++ cookies later := by
  have hnamed : (cookieField name pieces).isNamed "cookie" = true := beq_iff_eq.2 hname
  have htext : (cookieField name pieces).text? =
      some (String.ofList ([';'].intercalate pieces)) :=
    Net.text?_of_isPrintable (Text.forall_mem_intercalate (by decide)
      fun cookie hcookie ch hch => (hfits cookie hcookie ch hch).1) rfl
  have hsplit : ([';'].intercalate pieces).splitOn ';' = pieces :=
    List.splitOn_intercalate ';'
      (fun cookie hcookie hmark => (hfits cookie hcookie _ hmark).2 rfl) hne
  rw [cookies, Headers.texts, List.filter_cons, if_pos hnamed, List.filterMap_cons_some htext,
    List.flatMap_cons, String.toList_ofList, hsplit]
  rfl

/-- The value of the cookie is the first that the fields give. -/
theorem cookie?_of_carries {c : Credentials}
    (htoken : ∀ ch ∈ c.token.toList, isUnreserved ch = true) {headers : Headers}
    (h : Carries (cookieName ++ '=' :: c.token.toList) headers) :
    Credentials.cookie? headers = some c.token := by
  cases h with
  | @intro fields later name before after left right isCookie fits others left_space right_space =>
    have hpieces : ∀ cookie ∈ before ++
        (left ++ ((cookieName ++ '=' :: c.token.toList) ++ right)) :: after, FitsField cookie := by
      rw [List.forall_mem_append] at fits
      rw [List.forall_mem_append, List.forall_mem_cons]
      exact ⟨fits.1, fitsField_pair htoken left_space right_space, fits.2⟩
    have hothers : (cookies fields ++ before).findSome? Credentials.sessionValue? = none := by
      rw [List.findSome?_eq_none_iff]
      exact fun cookie hcookie => sessionValue?_of_not_isSession (others cookie hcookie)
    show ((cookies _).findSome? Credentials.sessionValue?).map String.ofList = some c.token
    rw [cookies_append, cookies_cookieField_cons isCookie (by simp) hpieces, List.append_assoc,
      ← List.append_assoc (cookies fields), List.findSome?_append, hothers, Option.none_or,
      List.cons_append, List.findSome?_cons, sessionValue?_pair htoken left_space right_space,
      Option.map_some, String.ofList_toList]

theorem authorize_of_carries {c : Credentials}
    (htoken : ∀ ch ∈ c.token.toList, isUnreserved ch = true) {headers : Headers} {cookie : String}
    {uri : Uri} (hlogin : c.login? uri = some cookie) (h : Carries (cookiePair cookie) headers)
    (uri' : Uri) : c.authorize headers uri' = true := by
  rw [eq_sessionCookie_of_login? hlogin,
    cookiePair_sessionCookie (not_mem_of_isUnreserved htoken (by decide))] at h
  rw [Credentials.authorize, cookie?_of_carries htoken h, accepts_token, Bool.or_true,
    Bool.true_or]

/-! ## The address to log in at -/

/-- The text without the slashes at its end. -/
def withoutSlashes (s : List Char) : List Char :=
  s.rdropWhile (· == '/')

theorem withoutSlashes_append {s : List Char} (hlast : s.getLast? ≠ some '/')
    (rest : List Char) : withoutSlashes (s ++ rest) = s ++ withoutSlashes rest := by
  have hself : s.rdropWhile (· == '/') = s := by
    rw [List.rdropWhile_eq_self_iff]
    intro hne hslash
    rw [List.getLast?_eq_some_getLast hne, eq_of_beq hslash] at hlast
    exact hlast rfl
  unfold withoutSlashes at *
  rw [List.rdropWhile, List.reverse_append, List.dropWhile_append]
  split
  · next hnone =>
    have hrest : rest.rdropWhile (· == '/') = [] := by
      rw [List.rdropWhile, List.isEmpty_iff.1 hnone, List.reverse_nil]
    rw [hrest, List.append_nil]
    exact hself
  · rw [List.reverse_append, List.reverse_reverse]
    rfl

theorem withoutSlashes_cut (s : List Char) : withoutSlashes s <+: s :=
  List.rdropWhile_prefix _ s

variable {c : Credentials}

/-- The address has the token as its query. -/
theorem toList_loginUrl (c : Credentials) (base : String) : (c.loginUrl base).toList =
    (withoutSlashes base.toList ++ (c.path.toList ++ "/login".toList)) ++
      '?' :: ("token=".toList ++ c.token.toList) := by
  have hlogin : "/login?token=".toList = "/login".toList ++ '?' :: "token=".toList := rfl
  rw [Credentials.loginUrl, String.toList_ofList, hlogin]
  simp only [List.append_assoc, List.cons_append]
  rfl

theorem login?_loginUrl (hpath : IsSegment c.path)
    (htoken : ∀ ch ∈ c.token.toList, isUnreserved ch = true) {base : String}
    (hquestion : '?' ∉ base.toList) (hnumber : '#' ∉ base.toList) {uri : Uri}
    (h : Uri.parse? (c.loginUrl base) = some uri) : c.login? uri = some c.sessionCookie := by
  have hlist : Uri.ofList? (c.loginUrl base).toList = some uri := by
    unfold Uri.parse? at h
    split at h
    · cases h
    · exact h
  have hfront : ∀ ch ∈ withoutSlashes base.toList ++ (c.path.toList ++ "/login".toList),
      ch ≠ '?' ∧ ch ≠ '#' := by
    have hlogin : '?' ∉ "/login".toList ∧ '#' ∉ "/login".toList := by decide
    rw [List.forall_mem_append, List.forall_mem_append]
    refine ⟨fun ch hch => ?_, fun ch hch => ?_, fun ch hch => ?_⟩
    · have hmem := (withoutSlashes_cut base.toList).mem hch
      exact ⟨fun heq => hquestion (heq ▸ hmem), fun heq => hnumber (heq ▸ hmem)⟩
    · exact ⟨fun heq => hpath.not_mem (by decide) (by decide) (heq ▸ hch),
        fun heq => hpath.not_mem (by decide) (by decide) (heq ▸ hch)⟩
    · exact ⟨fun heq => hlogin.1 (heq ▸ hch), fun heq => hlogin.2 (heq ▸ hch)⟩
  have hquery : '#' ∉ "token=".toList ++ c.token.toList := by
    rw [List.mem_append, not_or]
    exact ⟨by decide, not_mem_of_isUnreserved htoken (by decide)⟩
  rw [toList_loginUrl] at hlist
  have hfound := Uri.query_of_ofList? hfront hquery hlist
  have hpair : Credentials.queryToken? ⟨uri.path, some (String.ofList
      (['&'].intercalate ([] ++ [("token=".toList ++ c.token.toList)])))⟩ = some c.token :=
    queryToken?_of_first (not_mem_of_isUnreserved htoken (by decide)) (by simp) (by simp)
  rw [List.nil_append, List.intercalate_singleton, ← hfound] at hpair
  have hpresented : Credentials.queryToken? uri = some c.token := hpair
  rw [Credentials.login?, hpresented, accepts_token, if_pos rfl]

/-- The address at a base begins as the base does and has a path that can stand in an address. -/
theorem loginUrl_text (hpath : IsSegment c.path) (b : Base) : ∃ path : List Char,
    (c.loginUrl b.text).toList = b.scheme ++ ':' :: '/' :: '/' ::
      (b.authority ++ '/' :: (path ++ '?' :: ("token=".toList ++ c.token.toList))) ∧
    ∀ ch ∈ '/' :: path, Uri.isPathChar ch = true := by
  obtain ⟨segment, hsegment, -, hsafe⟩ := hpath
  have hlast : (b.scheme ++ [':', '/', '/'] ++ b.authority).getLast? ≠ some '/' := by
    rw [List.getLast?_append, List.getLast?_eq_some_getLast b.authority_ne_nil, Option.some_or]
    intro hslash
    have hmem := List.getLast_mem b.authority_ne_nil
    rw [Option.some.inj hslash] at hmem
    exact Bool.noConfusion (Uri.endsAuthority_of_accepts b.accepts '/' hmem)
  have hbase : withoutSlashes b.text.toList =
      b.scheme ++ ':' :: '/' :: '/' :: (b.authority ++ withoutSlashes b.path) := by
    have htext : b.text.toList = b.scheme ++ [':', '/', '/'] ++ b.authority ++ b.path := by
      rw [Base.text, String.toList_ofList]
      simp only [List.append_assoc, List.cons_append, List.nil_append]
    rw [htext, withoutSlashes_append hlast]
    simp only [List.append_assoc, List.cons_append, List.nil_append]
  -- What is left of the path of the base begins with a slash, or the path below it does.
  obtain ⟨path, hjoined⟩ : ∃ path,
      withoutSlashes b.path ++ (c.path.toList ++ "/login".toList) = '/' :: path := by
    cases hrest : withoutSlashes b.path with
    | nil => exact ⟨segment ++ "/login".toList, by rw [hsegment]; rfl⟩
    | cons d rest =>
        obtain ⟨cut, hcut⟩ := withoutSlashes_cut b.path
        rw [hrest] at hcut
        rw [b.head_path d (hcut ▸ rfl)]
        exact ⟨_, rfl⟩
  refine ⟨path, ?_, ?_⟩
  · have hrest := congrArg (· ++ '?' :: ("token=".toList ++ c.token.toList)) hjoined
    simp only [List.append_assoc, List.cons_append] at hrest
    rw [toList_loginUrl, hbase]
    simp only [List.append_assoc, List.cons_append]
    rw [hrest]
  · rw [← hjoined, hsegment, List.forall_mem_append, List.forall_mem_append,
      List.forall_mem_cons]
    exact ⟨fun ch hch => b.isPathChar ch ((withoutSlashes_cut b.path).mem hch),
      ⟨by decide, fun ch hch => isPathChar_of_isUnreserved (hsafe ch hch)⟩,
      List.all_eq_true.1 (by decide)⟩

theorem parse?_loginUrl (hpath : IsSegment c.path)
    (htoken : ∀ ch ∈ c.token.toList, isUnreserved ch = true) {b : Base}
    (hfits : (c.loginUrl b.text).utf8ByteSize ≤ Uri.maxBytes) :
    ∃ uri, Uri.parse? (c.loginUrl b.text) = some uri := by
  obtain ⟨path, htext, hchars⟩ := loginUrl_text hpath b
  have hquery : ∀ ch ∈ "token=".toList ++ c.token.toList, Uri.isQueryChar ch = true := by
    rw [List.forall_mem_append]
    exact ⟨List.all_eq_true.1 (by decide),
      fun ch hch => isQueryChar_of_isUnreserved (htoken ch hch)⟩
  rw [Uri.parse?, if_neg (Nat.not_lt.2 hfits), htext,
    Uri.ofList?_append b.isSchemeChar b.scheme_length b.authority_ne_nil b.accepts hchars hquery]
  exact ⟨_, rfl⟩

/-! ## All ways of the token -/

/--
Credentials whose path and token need no escape close the loop.  The address to log in at gives the
cookie, its pair opens every page from wherever it stands among other cookies, and the token does
so as a bearer and in a query.
-/
theorem closes_of_isSegment {c : Credentials} (hpath : IsSegment c.path)
    (htoken : ∀ ch ∈ c.token.toList, isUnreserved ch = true) : Closes c where
  login _ hquestion hnumber _ huri :=
    ⟨c.sessionCookie, login?_loginUrl hpath htoken hquestion hnumber huri⟩
  readable _ := parse?_loginUrl hpath htoken
  session _ _ hlogin _ hcarries := authorize_of_carries htoken hlogin hcarries
  presented _ _ := authorize_of_presents htoken

/-- Credentials for a server that is reached over encrypted connections. -/
def homeCredentials : Credentials :=
  .of "crawl-admin" "test-token" true

def homeBase : Base where
  scheme := "https".toList
  authority := "localhost:8000".toList
  path := "/traps//".toList
  isSchemeChar := List.all_eq_true.1 (by decide)
  scheme_length := by decide
  authority_ne_nil := by decide
  accepts := by decide
  head_path := by
    rintro _ ⟨⟩
    rfl
  isPathChar := List.all_eq_true.1 (by decide)

theorem closes_homeCredentials :
    (∃ uri cookie, Uri.parse? (homeCredentials.loginUrl homeBase.text) = some uri ∧
      homeCredentials.login? uri = some cookie ∧
      homeCredentials.authorize
        [cookieField "Cookie" ["theme=dark".toList, ' ' :: cookiePair cookie]] ⟨"/", none⟩ =
          true) ∧
    homeCredentials.authorize
      [⟨"Authorization", Text.Utf8.encode "Bearer  test-token ".toList⟩] ⟨"/", none⟩ = true ∧
    homeCredentials.authorize [] ⟨"/", some "page=2&token=test-token"⟩ = true := by
  have hcloses : Closes homeCredentials :=
    closes_of_isSegment
      ⟨"crawl-admin".toList, by decide, by decide, List.all_eq_true.1 (by decide)⟩
      (List.all_eq_true.1 (by decide))
  obtain ⟨uri, huri⟩ := hcloses.readable homeBase (by decide +kernel)
  obtain ⟨cookie, hcookie⟩ := hcloses.login homeBase.text (by decide) (by decide) uri huri
  have hspace : ∀ c ∈ [' '], IsSpace c := List.forall_mem_singleton.2 (.inl rfl)
  refine ⟨⟨uri, cookie, huri, hcookie, ?carried⟩, ?bearer, ?query⟩
  case carried =>
    have hcarries : Carries (cookiePair cookie) ([] ++
        cookieField "Cookie" (["theme=dark".toList] ++ [[' '] ++ (cookiePair cookie ++ [])]) ::
          []) :=
      .intro (by decide) (by decide) (by decide) hspace (List.forall_mem_nil _)
    rw [List.append_nil] at hcarries
    exact hcloses.session uri cookie hcookie _ hcarries ⟨"/", none⟩
  case bearer =>
    have hvalue : Text.Utf8.encode "Bearer  test-token ".toList = Text.Utf8.encode
        ("Bearer ".toList ++ ([' '] ++ (homeCredentials.token.toList ++ [' ']))) := rfl
    exact hcloses.presented _ _ (.bearer rfl hspace hspace hvalue)
  case query =>
    have hquery : Presents homeCredentials.token [] ⟨"/", some (String.ofList
        (['&'].intercalate (["page=2".toList] ++
          [("token=".toList ++ homeCredentials.token.toList)])))⟩ :=
      .query (by decide) (by decide)
    exact hcloses.presented _ _ hquery

end Tarpit.Web
