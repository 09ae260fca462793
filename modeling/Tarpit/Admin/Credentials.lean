import Tarpit.Admin.Base64Url
import Tarpit.Admin.Sha256
import Tarpit.Net.Header
import Tarpit.Net.Uri
import Tarpit.Random.Source
import Tarpit.Text.Quoted

/-!
# Credentials of the operator

The operator's pages lie under a path of their own and need a token besides.  A
request presents the token as a bearer, in the session cookie or in its query.
-/

namespace Tarpit.Admin

open Tarpit.Net (Headers Uri)
open Tarpit.Text (after?)

/-- The path of the operator's pages and the token that opens them. -/
structure Credentials where
  path : String
  token : String
  /-- The session cookie is for encrypted connections only. -/
  secure : Bool
  deriving DecidableEq, Repr

def cookieName : List Char := "spider_trap_admin".toList

def sessionSeconds : List Char := "86400".toList

namespace Credentials

/-- Credentials with a given path and token.  A path gets the slash in front that it lacks. -/
def of (path token : String) (secure : Bool) : Credentials :=
  match path.toList with
  | '/' :: _ => ⟨path, token, secure⟩
  | cs => ⟨String.ofList ('/' :: cs), token, secure⟩

/-! ## Random secrets -/

def randomSecret {S : Type} [Random.Source S] (s : S) : String × S :=
  let (u, s) := Random.Source.word s
  let (v, s) := Random.Source.word s
  let (w, s) := Random.Source.word s
  let data := Random.wordBytes u ++ Random.wordBytes v ++ Random.wordBytes w
  (String.ofList (Base64Url.encode data), s)

def generate {S : Type} [Random.Source S] (s : S) : Credentials × S :=
  let (path, s) := randomSecret s
  let (token, s) := randomSecret s
  (of path token false, s)

/-! ## What a request presents -/

def tokenDigest (token : String) : Bytes :=
  Sha256.digest (Text.Utf8.bytes token)

/-- A presented token has the digest of the token. -/
def verify (c : Credentials) (presented : String) : Bool :=
  tokenDigest presented == tokenDigest c.token

def bearer? (headers : Headers) : Option String :=
  (headers.text? "authorization").bind fun s =>
    (after? "Bearer ".toList s.toList).map fun rest => String.ofList (Text.trim rest)

/-- The value of a cookie if it is the session cookie. -/
def sessionValue? (pair : List Char) : Option (List Char) :=
  after? (cookieName ++ ['=']) (Text.trim pair)

/-- The value of the first session cookie in all readable cookie fields. -/
def cookie? (headers : Headers) : Option String :=
  (((headers.texts "cookie").flatMap fun s => s.toList.splitOn ';').findSome? sessionValue?).map
    String.ofList

/-- The value of the first token in the query. -/
def queryToken? (uri : Uri) : Option String :=
  uri.query.bind fun query =>
    ((query.toList.splitOn '&').findSome? (after? "token=".toList)).map String.ofList

/-- A presented token, if there is one, is right. -/
def accepts (c : Credentials) (presented? : Option String) : Bool :=
  presented?.any c.verify

/-- The request presents the token in one of the three places. -/
def authorize (c : Credentials) (headers : Headers) (uri : Uri) : Bool :=
  c.accepts (bearer? headers) || c.accepts (cookie? headers) || c.accepts (queryToken? uri)

/-! ## Sessions -/

def sessionCookie (c : Credentials) : String :=
  String.ofList (cookieName ++ '=' :: c.token.toList ++ "; Path=/; Max-Age=".toList ++
    sessionSeconds ++ "; HttpOnly; SameSite=Strict".toList ++
    (if c.secure then "; Secure".toList else []))

/-- The session cookie in exchange for the token in the query. -/
def login? (c : Credentials) (uri : Uri) : Option String :=
  if c.accepts (queryToken? uri) then some c.sessionCookie else none

/-- The address at which the operator logs in. -/
def loginUrl (c : Credentials) (base : String) : String :=
  String.ofList ((base.toList.reverse.dropWhile (· == '/')).reverse ++ c.path.toList ++
    "/login?token=".toList ++ c.token.toList)

/-- The credentials as they may stand in a log, without the token. -/
def shown (c : Credentials) : String :=
  String.ofList ("AdminAuth \x7b path: ".toList ++ Text.Quoted.quote c.path.toList ++
    ", .. \x7d".toList)

theorem verify_token (c : Credentials) : c.verify c.token = true := by
  simp [verify]

theorem head?_path_of (path token : String) (secure : Bool) :
    (of path token secure).path.toList.head? = some '/' := by
  unfold of
  split
  · next rest h => simp [h]
  · simp

end Credentials

end Tarpit.Admin
