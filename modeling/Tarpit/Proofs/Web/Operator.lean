import Tarpit.Proofs.Net.Uri
import Tarpit.Proofs.Text.Lines
import Tarpit.Proofs.Web.Accounting

/-!
# The operator's pages

What a request gets below the operator's path: without the token nothing that
depends on the state of the server, with it nothing that the trap has, and in
either case the fields that keep a browser from doing more with it.
-/

namespace Tarpit.Web

open Tarpit.Admin
open Tarpit.Net (Uri)
open Tarpit.Random (SplitMix Source)
open Tarpit.Rate (Level)

/-! ## Paths -/

/-- A character that stands for itself in every part of an address. -/
def isUnreserved (c : Char) : Bool :=
  c.isAlphanum || c == '-' || c == '.' || c == '_' || c == '~'

/-- The path is a slash and one segment of characters that stand for themselves. -/
def IsSegment (base : String) : Prop :=
  ∃ segment, base.toList = '/' :: segment ∧ segment ≠ [] ∧ ∀ c ∈ segment, isUnreserved c = true

/-- The path is the operator's path, or that and a slash with something behind it. -/
def IsOperatorPath (base path : String) : Prop :=
  path = base ∨ ∃ rest, rest ≠ [] ∧ path.toList = base.toList ++ '/' :: rest

def loginPath (base : String) : String :=
  base ++ "/login"

theorem isUnreserved_of_isUrlSafe {c : Char} (h : Base64Url.isUrlSafe c = true) :
    isUnreserved c = true := by
  simp only [Base64Url.isUrlSafe, Bool.or_eq_true] at h
  simp only [isUnreserved, Bool.or_eq_true]
  tauto

/-- A segment that lacks its slash gets it. -/
theorem isSegment_of {segment : List Char} (hne : segment ≠ [])
    (hsafe : ∀ c ∈ segment, isUnreserved c = true) (token : String) (secure : Bool) :
    IsSegment (Credentials.of (String.ofList segment) token secure).path := by
  have hpath : (Credentials.of (String.ofList segment) token secure).path =
      String.ofList ('/' :: segment) := by
    unfold Credentials.of
    rw [String.toList_ofList]
    split
    · exact absurd (hsafe '/' List.mem_cons_self) (by decide)
    · rfl
  exact ⟨segment, by rw [hpath, String.toList_ofList], hne, hsafe⟩

/-- A path that is made up for an operator is a segment. -/
theorem isSegment_generate {S : Type} [Source S] (s : S) :
    IsSegment (Credentials.generate s).1.path := by
  apply isSegment_of
  · exact Base64Url.encode_ne_nil (by simp [Random.wordBytes])
  · intro c hc
    exact isUnreserved_of_isUrlSafe (Base64Url.isUrlSafe_of_mem_encode hc)

theorem below_eq_login_iff (rest : List Char) :
    Route.below rest = .login ↔ rest = "login".toList := by
  constructor
  · intro h
    unfold Route.below at h
    split at h
    · cases h
    split at h
    · cases h
    split at h
    · cases h
    split at h
    · next hlogin => exact hlogin
    · cases h
  · rintro rfl
    decide

theorem eq_loginPath_iff (base path : String) :
    path = loginPath base ↔ path.toList = base.toList ++ '/' :: "login".toList := by
  rw [← String.toList_inj, loginPath, String.toList_append]
  rfl

namespace IsSegment

variable {base : String}

theorem not_mem (h : IsSegment base) {c : Char} (hc : isUnreserved c = false) (hslash : c ≠ '/') :
    c ∉ base.toList := by
  obtain ⟨segment, hbase, -, hsafe⟩ := h
  rw [hbase, List.mem_cons, not_or]
  refine ⟨hslash, fun hmem => ?_⟩
  rw [hsafe c hmem] at hc
  cases hc

theorem mount_eq (h : IsSegment base) : Route.mount base.toList = base.toList ++ ['/'] := by
  obtain ⟨segment, hbase, hne, hsafe⟩ := h
  have hlast : base.toList.getLast? ≠ some '/' := by
    intro hslash
    have hsegment := List.getLast?_eq_some_getLast hne
    rw [hbase, List.getLast?_cons, hsegment, Option.getD_some] at hslash
    have hlast := hsafe _ (List.mem_of_getLast? hsegment)
    rw [Option.some.inj hslash] at hlast
    exact absurd hlast (by decide)
  rw [Route.mount, if_neg hlast]

/-- Below the operator's path the rest of a path decides where it leads. -/
theorem of_below (h : IsSegment base) {path : String} {rest : List Char} (hne : rest ≠ [])
    (hpath : path.toList = base.toList ++ '/' :: rest) : Route.of base path = Route.below rest := by
  have hmounted : path = String.ofList (Route.mount base.toList ++ rest) := by
    rw [h.mount_eq, List.append_assoc, List.singleton_append, ← hpath, String.ofList_toList]
  rw [hmounted, Route.of_mount_append base hne]

theorem of_ne_trap (h : IsSegment base) {path : String} (hpath : IsOperatorPath base path) :
    Route.of base path ≠ .trap := by
  rcases hpath with rfl | ⟨rest, hne, hrest⟩
  · rw [Route.of_base]
    exact Route.noConfusion
  · rw [h.of_below hne hrest, Route.below, if_neg hne]
    split
    · exact Route.noConfusion
    split
    · exact Route.noConfusion
    split
    · exact Route.noConfusion
    · exact Route.noConfusion

theorem of_eq_login_iff (h : IsSegment base) {path : String} (hpath : IsOperatorPath base path) :
    Route.of base path = .login ↔ path = loginPath base := by
  rw [eq_loginPath_iff]
  rcases hpath with rfl | ⟨rest, hne, hrest⟩
  · rw [Route.of_base]
    constructor
    · exact fun hlogin => Route.noConfusion hlogin
    · intro hself
      have hlength := congrArg List.length hself
      rw [List.length_append, List.length_cons] at hlength
      omega
  · rw [h.of_below hne hrest, below_eq_login_iff, hrest, List.append_cancel_left_eq,
      List.cons_inj_right]

end IsSegment

/-! ## Fields of an answer -/

namespace Response

/-- The values of the fields with a name, each with the name. -/
def fieldsNamed (answer : Response) (name : String) : List (String × String) :=
  answer.headers.filter fun f => f.1 == name

/-- The answer has each of the five hardening fields once, with its value. -/
structure IsHardened (answer : Response) : Prop where
  policy : answer.fieldsNamed "content-security-policy" =
    [("content-security-policy", "default-src 'none'; frame-ancestors 'none'")]
  frames : answer.fieldsNamed "x-frame-options" = [("x-frame-options", "DENY")]
  sniffing : answer.fieldsNamed "x-content-type-options" = [("x-content-type-options", "nosniff")]
  referrer : answer.fieldsNamed "referrer-policy" = [("referrer-policy", "no-referrer")]
  caching : answer.fieldsNamed "cache-control" = [("cache-control", "no-store")]

/-- These are the fields that the operator's pages give. -/
theorem isHardened_iff {answer : Response} :
    answer.IsHardened ↔ ∀ f ∈ hardening, answer.fieldsNamed f.1 = [f] := by
  simp only [hardening, List.forall_mem_cons, List.not_mem_nil, false_imp_iff, implies_true,
    and_true]
  exact ⟨fun h => ⟨h.policy, h.frames, h.sniffing, h.referrer, h.caching⟩,
    fun ⟨hpolicy, hframes, hsniffing, hreferrer, hcaching⟩ =>
      ⟨hpolicy, hframes, hsniffing, hreferrer, hcaching⟩⟩

/-- The answer has no field of the name of a hardening field. -/
def IsBare (answer : Response) : Prop :=
  ∀ f ∈ answer.headers, f.1 ∉ hardening.map Prod.fst

theorem isBare_empty (status : Nat) : (empty status).IsBare := by
  rintro f ⟨⟩

theorem isBare_typed (status : Nat) (contentType : String) (body : Bytes) :
    (typed status contentType body).IsBare := by
  intro f hf
  rw [List.mem_singleton.1 hf]
  show "content-type" ∉ hardening.map Prod.fst
  decide

theorem IsBare.withHeaders {answer : Response} (h : answer.IsBare)
    {more : List (String × String)} (hmore : ∀ f ∈ more, f.1 ∉ hardening.map Prod.fst) :
    (answer.withHeaders more).IsBare := by
  intro f hf
  rcases List.mem_append.1 hf with hf | hf
  · exact h f hf
  · exact hmore f hf

theorem fieldsNamed_withHeaders (answer : Response) (more : List (String × String))
    (name : String) : (answer.withHeaders more).fieldsNamed name =
      answer.fieldsNamed name ++ more.filter fun f => f.1 == name :=
  List.filter_append _ _

theorem IsBare.fieldsNamed {answer : Response} (h : answer.IsBare) {f : String × String}
    (hf : f ∈ hardening) : answer.fieldsNamed f.1 = [] := by
  apply List.filter_eq_nil_iff.2
  intro g hg hname
  exact h g hg (List.mem_map.2 ⟨f, hf, (eq_of_beq hname).symm⟩)

/-- Hardening a bare answer gives it each of the fields once. -/
theorem IsBare.isHardened {answer : Response} (h : answer.IsBare) :
    (answer.withHeaders hardening).IsHardened := by
  have hone : ∀ f ∈ hardening, hardening.filter (fun g => g.1 == f.1) = [f] := by decide
  rw [isHardened_iff]
  intro f hf
  rw [fieldsNamed_withHeaders, h.fieldsNamed hf, hone f hf, List.nil_append]

end Response

/-- Giving an answer adds no field but that of the methods. -/
theorem fieldsNamed_framed (route : Route) (r : Request) (answer : Response) {name : String}
    (hname : name ≠ "allow") :
    (framed route r answer).fieldsNamed name = answer.fieldsNamed name := by
  have hallow : (answer.withHeaders allowedMethods).fieldsNamed name =
      answer.fieldsNamed name := by
    have hnone : allowedMethods.filter (fun f => f.1 == name) = [] := by
      simp [allowedMethods, Ne.symm hname]
    rw [Response.fieldsNamed_withHeaders, hnone, List.append_nil]
  unfold framed
  simp only
  split
  · show (if isRefused route r = true then _ else _ : Response).fieldsNamed name = _
    split
    · exact hallow
    · rfl
  · split
    · exact hallow
    · rfl

theorem Response.IsHardened.framed {answer : Response} (h : answer.IsHardened) (route : Route)
    (r : Request) : (framed route r answer).IsHardened := by
  have hallow : ∀ f ∈ hardening, f.1 ≠ "allow" := by decide
  rw [isHardened_iff] at h ⊢
  intro f hf
  rw [fieldsNamed_framed route r answer (hallow f hf), h f hf]

/-! ## Answers of the operator's pages -/

section

variable {R S : Type} (site : Site) (st : State R S) (route : Route) (r : Request)

theorem isBare_behind : (behind site st route).IsBare := by
  cases route with
  | overview =>
      show (overview site st).IsBare
      unfold overview
      split
      · exact Response.isBare_typed _ _ _
      · exact Response.isBare_typed _ _ _
  | charts =>
      show (charts site st).IsBare
      unfold charts
      split
      · exact Response.isBare_typed _ _ _
      · exact Response.isBare_typed _ _ _
  | metrics => exact Response.isBare_typed _ _ _
  | login | unknown | trap => exact Response.isBare_empty _

theorem isBare_login (c : Credentials) (uri : Uri) : (login c uri).IsBare := by
  have hfields : ∀ cookie, ∀ f ∈ [("location", c.path), ("set-cookie", cookie)],
      f.1 ∉ hardening.map Prod.fst := by
    intro cookie f hf
    rcases List.mem_pair.1 hf with rfl | rfl
    · show "location" ∉ hardening.map Prod.fst
      decide
    · show "set-cookie" ∉ hardening.map Prod.fst
      decide
  unfold login
  split
  · split
    · exact (Response.isBare_empty _).withHeaders (hfields _)
    · exact Response.isBare_typed _ _ _
  · exact Response.isBare_typed _ _ _

theorem isBare_unauthorized : unauthorized.IsBare :=
  (Response.isBare_typed _ _ _).withHeaders (by decide)

/-- Whatever the operator's pages answer has the hardening fields. -/
theorem isHardened_operator : (operator site st route r).IsHardened := by
  unfold operator
  apply Response.IsBare.isHardened
  split
  · split
    · exact Response.isBare_empty _
    · exact isBare_login _ _
  · split
    · split
      · exact Response.isBare_empty _
      · exact isBare_behind site st route
    · exact isBare_unauthorized

variable {site route r} in
/-- Without the token the operator's pages refuse every request but one to log in. -/
theorem operator_of_not_authorized (hroute : route ≠ .login)
    (h : site.credentials.authorize r.headers r.uri = false) :
    operator site st route r = unauthorized.withHeaders hardening := by
  simp only [operator, if_neg hroute, h, Bool.false_eq_true, if_false]

end

variable {R S : Type} [Level R] [Source S]

/-- The trap gives no hardening fields. -/
theorem fieldsNamed_trap (site : Site) (st : State R S) (r : Request) {name : String}
    (hname : name ≠ "content-type") : (trap site st r).1.fieldsNamed name = [] := by
  have htyped : ∀ status contentType body,
      (Response.typed status contentType body).fieldsNamed name = [] := by
    intro status contentType body
    simp [Response.fieldsNamed, Response.typed, Ne.symm hname]
  unfold trap
  simp only
  split
  · exact htyped _ _ _
  · exact htyped _ _ _

theorem ne_trap_of_isHardened {answer : Response} (h : answer.IsHardened) (site : Site)
    (st : State R S) (r : Request) : answer ≠ (trap site st r).1 := by
  rintro rfl
  have hfield := h.frames
  rw [fieldsNamed_trap site st r (by decide)] at hfield
  cases hfield

/-- Below the operator's path the operator's pages answer. -/
theorem handle_eq_operator {site : Site} {r : Request} (hlimit : exceedsLimit site r = false)
    {route : Route} (hroute : Route.of site.credentials.path r.uri.path = route)
    (htrap : route ≠ .trap) (st : State R S) :
    handle site st r = (framed route r (operator site st route r), st) := by
  simp only [handle, answer, hroute, hlimit, Bool.false_eq_true, if_false]

/-! ## Logging in -/

/-- The character may stand in the value of a field. -/
theorem fitsHeader_iff (s : String) : Response.fitsHeader s = true ↔
    ∀ c ∈ s.toList, (0x20 ≤ c.toNat ∧ c.toNat ≠ 0x7F) ∨ c = '\t' := by
  simp [Response.fitsHeader]

theorem fitsHeader_of_isSegment {base : String} (h : IsSegment base) :
    Response.fitsHeader base = true := by
  have hall : ∀ n < 128, ¬ (0x20 ≤ n ∧ n ≠ 0x7F) → isUnreserved (Char.ofNat n) = false := by
    decide +kernel
  rw [fitsHeader_iff]
  intro c hc
  left
  by_contra hcontrol
  have hunsafe := hall c.toNat (by omega) hcontrol
  rw [Char.ofNat_toNat] at hunsafe
  have hslash : c ≠ '/' := by
    rintro rfl
    exact hcontrol (by decide)
  exact h.not_mem hunsafe hslash hc

theorem fitsHeader_sessionCookie {c : Credentials} (h : Response.fitsHeader c.token = true) :
    Response.fitsHeader c.sessionCookie = true := by
  unfold Response.fitsHeader at h ⊢
  rw [Credentials.sessionCookie, String.toList_ofList]
  simp only [List.all_append, List.all_cons, h]
  cases c.secure with
  | true => decide
  | false => decide

/-- The characters of a token in the query stand in the query. -/
theorem mem_of_queryToken? {uri : Uri} {token : String}
    (h : Credentials.queryToken? uri = some token) {c : Char} (hc : c ∈ token.toList) :
    ∃ query, uri.query = some query ∧ c ∈ query.toList := by
  unfold Credentials.queryToken? at h
  obtain ⟨query, hquery, hfound⟩ := Option.bind_eq_some_iff.1 h
  obtain ⟨rest, hrest, rfl⟩ := Option.map_eq_some_iff.1 hfound
  obtain ⟨piece, hpiece, hafter⟩ := List.exists_of_findSome?_eq_some hrest
  refine ⟨query, hquery, Text.mem_of_mem_splitOn hpiece ?_⟩
  rw [Text.eq_append_of_after? hafter]
  exact List.mem_append_right _ (by simpa using hc)

/-- What a query presents can stand in a field. -/
theorem fitsHeader_of_queryToken? {uri : Uri} (huri : uri.IsPlain) {token : String}
    (h : Credentials.queryToken? uri = some token) : Response.fitsHeader token = true := by
  rw [fitsHeader_iff]
  intro c hc
  left
  obtain ⟨query, hquery, hmem⟩ := mem_of_queryToken? h hc
  have hchar := huri query hquery c hmem
  simp only [Net.Uri.isQueryChar, Bool.or_eq_true, Bool.and_eq_true, beq_iff_eq, bne_iff_ne,
    decide_eq_true_eq] at hchar
  omega

/-- The query presents another text than the token, and one with the same digest. -/
def Collides (c : Credentials) (uri : Uri) : Prop :=
  ∃ s, Credentials.queryToken? uri = some s ∧ s ≠ c.token ∧
    Credentials.tokenDigest s = Credentials.tokenDigest c.token

/-- A token that is accepted is the token, if it does not collide with it. -/
theorem queryToken?_eq_of_accepts {c : Credentials} {uri : Uri}
    (h : c.accepts (Credentials.queryToken? uri) = true) :
    Credentials.queryToken? uri = some c.token ∨ Collides c uri := by
  cases hs : Credentials.queryToken? uri with
  | none =>
      rw [hs] at h
      cases h
  | some s =>
      rw [hs] at h
      have hdigest : Credentials.tokenDigest s = Credentials.tokenDigest c.token := eq_of_beq h
      by_cases hself : s = c.token
      · exact .inl (congrArg some hself)
      · exact .inr ⟨s, hs, hself, hdigest⟩

theorem login_of_accepts {c : Credentials} {uri : Uri} (hpath : Response.fitsHeader c.path = true)
    (h : c.accepts (Credentials.queryToken? uri) = true) :
    (login c uri).status = 303 ∧ (Response.fitsHeader c.token = true →
      (login c uri).fieldsNamed "set-cookie" = [("set-cookie", c.sessionCookie)]) := by
  unfold login Credentials.login?
  rw [h, if_pos rfl]
  simp only [hpath, Bool.true_and]
  constructor
  · split
    · rfl
    · rfl
  · intro htoken
    rw [fitsHeader_sessionCookie htoken, if_pos rfl]
    rfl

theorem login_of_not_accepts {c : Credentials} {uri : Uri}
    (h : c.accepts (Credentials.queryToken? uri) = false) :
    (login c uri).status = 403 ∧ (login c uri).fieldsNamed "set-cookie" = [] := by
  unfold login Credentials.login?
  rw [h, if_neg Bool.false_ne_true]
  exact ⟨rfl, rfl⟩

theorem fieldsNamed_hardening {name : String} (h : name ∉ hardening.map Prod.fst)
    (answer : Response) :
    (answer.withHeaders hardening).fieldsNamed name = answer.fieldsNamed name := by
  have hnone : hardening.filter (fun f => f.1 == name) = [] := by
    apply List.filter_eq_nil_iff.2
    intro f hf hname
    exact h (List.mem_map.2 ⟨f, hf, eq_of_beq hname⟩)
  rw [Response.fieldsNamed_withHeaders, hnone, List.append_nil]

/-! ## What every request gets -/

/-- What a request for a path of the operator gets from a server in whatever state. -/
structure Gated (R S : Type) [Level R] [Source S] (site : Site) (r : Request) : Prop where
  unchanged : ∀ st : State R S, (handle site st r).2 = st
  hardened : ∀ st : State R S, (handle site st r).1.IsHardened
  /-- Without the token the answer does not depend on the state. -/
  refused : r.uri.path ≠ loginPath site.credentials.path →
    site.credentials.authorize r.headers r.uri = false →
      ∀ st st' : State R S, (handle site st r).1.status = 401 ∧
        (handle site st r).1 = (handle site st' r).1
  /-- With the token the answer is none of the trap. -/
  admitted : r.uri.path ≠ loginPath site.credentials.path →
    site.credentials.authorize r.headers r.uri = true →
      ∀ (st : State R S) (other : Site) (st' : State R S) (r' : Request),
        (handle site st r).1 ≠ (trap other st' r').1
  /-- The token in the query is exchanged for the cookie, unless it only has the same digest. -/
  loggedIn : r.uri.path = loginPath site.credentials.path → r.method = "GET" →
    site.credentials.accepts (Credentials.queryToken? r.uri) = true →
      ∀ st : State R S, (handle site st r).1.status = 303 ∧
        ((∃ target, Uri.parse? target = some r.uri) →
          (handle site st r).1.fieldsNamed "set-cookie" =
              [("set-cookie", site.credentials.sessionCookie)] ∨
            Collides site.credentials r.uri)
  turnedDown : r.uri.path = loginPath site.credentials.path → r.method = "GET" →
    site.credentials.accepts (Credentials.queryToken? r.uri) = false →
      ∀ st : State R S, (handle site st r).1.status = 403 ∧
        (handle site st r).1.fieldsNamed "set-cookie" = []

/-- A request to log in is answered by the exchange of the token. -/
theorem handle_login {site : Site} {r : Request} (hlimit : exceedsLimit site r = false)
    (hroute : Route.of site.credentials.path r.uri.path = .login) (hmethod : r.method = "GET")
    (st : State R S) :
    (handle site st r).1.status = (login site.credentials r.uri).status ∧
      (handle site st r).1.fieldsNamed "set-cookie" =
        (login site.credentials r.uri).fieldsNamed "set-cookie" := by
  have hreads : isRefused .login r = false := by
    simp [isRefused, Request.reads, hmethod]
  have hoperator : operator site st .login r =
      (login site.credentials r.uri).withHeaders hardening := by
    simp only [operator, if_true, hreads, Bool.false_eq_true, if_false]
  rw [handle_eq_operator hlimit hroute Route.noConfusion, hoperator]
  refine ⟨status_framed _ _ _, ?_⟩
  rw [fieldsNamed_framed _ _ _ (by decide), fieldsNamed_hardening (by decide)]

/--
A request for a path of the operator is answered by the operator's pages alone: with the token, or
with a refusal that tells nothing of the state, and always with the hardening fields.
-/
theorem gated_of_operatorPath {site : Site} {r : Request} (hbase : IsSegment site.credentials.path)
    (hpath : IsOperatorPath site.credentials.path r.uri.path)
    (hlimit : exceedsLimit site r = false) : Gated R S site r := by
  have htrap := hbase.of_ne_trap hpath
  have hlogin := hbase.of_eq_login_iff hpath
  obtain ⟨route, hroute⟩ : ∃ route, Route.of site.credentials.path r.uri.path = route := ⟨_, rfl⟩
  rw [hroute] at htrap hlogin
  have hhandle : ∀ st : State R S,
      handle site st r = (framed route r (operator site st route r), st) :=
    handle_eq_operator hlimit hroute htrap
  have hhardened : ∀ st : State R S, (handle site st r).1.IsHardened := by
    intro st
    rw [hhandle]
    exact (isHardened_operator site st route r).framed route r
  refine ⟨?unchanged, hhardened, ?refused, ?admitted, ?loggedIn, ?turnedDown⟩
  case unchanged =>
    intro st
    rw [hhandle]
  case refused =>
    intro hnot hauthorize st st'
    have hother := mt hlogin.1 hnot
    rw [hhandle, hhandle, operator_of_not_authorized st hother hauthorize,
      operator_of_not_authorized st' hother hauthorize]
    exact ⟨status_framed _ _ _, rfl⟩
  case admitted =>
    intro _ _ st other st' r'
    exact ne_trap_of_isHardened (hhardened st) other st' r'
  case loggedIn =>
    intro hpath hmethod haccepts st
    obtain ⟨hstatus, hcookie⟩ := handle_login hlimit (hroute.trans (hlogin.2 hpath)) hmethod st
    obtain ⟨hthree, hset⟩ := login_of_accepts (fitsHeader_of_isSegment hbase) haccepts
    refine ⟨hstatus.trans hthree, ?_⟩
    rintro ⟨target, htarget⟩
    rcases queryToken?_eq_of_accepts haccepts with htoken | hcollides
    · have hplain := Net.Uri.isPlain_of_parse? htarget
      exact .inl (hcookie.trans (hset (fitsHeader_of_queryToken? hplain htoken)))
    · exact .inr hcollides
  case turnedDown =>
    intro hpath hmethod haccepts st
    obtain ⟨hstatus, hcookie⟩ := handle_login hlimit (hroute.trans (hlogin.2 hpath)) hmethod st
    obtain ⟨hfour, hnone⟩ := login_of_not_accepts haccepts
    exact ⟨hstatus.trans hfour, hcookie.trans hnone⟩

/-- A request that presents nothing, for a page of the operator that there is not. -/
def probe : Request :=
  { crawl with method := "DELETE", uri := ⟨"/admin/users", none⟩ }

/-- A request that logs in. -/
def entry : Request :=
  { crawl with uri := ⟨"/admin/login", some "token=token"⟩ }

/-- A request that presents the token for the chart. -/
def look : Request :=
  { crawl with uri := ⟨"/admin/data", some "token=token"⟩ }

theorem gated_crawledSite :
    (handle crawledSite crawledState probe).1.status = 401 ∧
    (handle crawledSite crawledState entry).1.status = 303 ∧
    (handle crawledSite crawledState entry).1.fieldsNamed "set-cookie" =
      [("set-cookie",
        "spider_trap_admin=token; Path=/; Max-Age=86400; HttpOnly; SameSite=Strict")] ∧
    (handle crawledSite crawledState look).1 ≠ (trap crawledSite crawledState look).1 ∧
    (handle crawledSite crawledState look).2 = crawledState := by
  have hbase : IsSegment crawledSite.credentials.path :=
    ⟨"admin".toList, rfl, by decide, List.all_eq_true.1 (by decide)⟩
  have hentry : crawledSite.credentials.accepts (Credentials.queryToken? entry.uri) = true :=
    crawledSite.credentials.verify_token
  have hlook : crawledSite.credentials.authorize look.headers look.uri = true := by
    have hquery : crawledSite.credentials.accepts (Credentials.queryToken? look.uri) = true :=
      crawledSite.credentials.verify_token
    rw [Credentials.authorize, hquery, Bool.or_true]
  have hprobe : crawledSite.credentials.authorize probe.headers probe.uri = false := by
    decide +kernel
  have hprobed : Gated Rat SplitMix crawledSite probe :=
    gated_of_operatorPath hbase (.inr ⟨"users".toList, by decide, by decide⟩) rfl
  have hentered : Gated Rat SplitMix crawledSite entry :=
    gated_of_operatorPath hbase (.inr ⟨"login".toList, by decide, by decide⟩) rfl
  have hlooked : Gated Rat SplitMix crawledSite look :=
    gated_of_operatorPath hbase (.inr ⟨"data".toList, by decide, by decide⟩) rfl
  obtain ⟨hstatus, hcookie⟩ := hentered.loggedIn (by decide) rfl hentry crawledState
  refine ⟨(hprobed.refused (by decide) hprobe crawledState crawledState).1, hstatus, ?_,
    hlooked.admitted (by decide) hlook crawledState crawledSite crawledState look,
    hlooked.unchanged crawledState⟩
  rcases hcookie ⟨"/admin/login?token=token", by decide +kernel⟩ with hset | ⟨s, hs, hne, -⟩
  · exact hset.trans (by decide)
  · have htoken : Credentials.queryToken? entry.uri = some "token" := by decide
    rw [htoken] at hs
    exact absurd (Option.some.inj hs).symm hne

end Tarpit.Web
