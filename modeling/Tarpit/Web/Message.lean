import Tarpit.Json.Printer
import Tarpit.Net.Endpoint
import Tarpit.Net.Header
import Tarpit.Net.Uri
import Tarpit.Number.Decimal

/-!
# Requests and responses

What a request brings and what a response carries.
-/

namespace Tarpit.Web

/-- A request with the end of the connection that it came from. -/
structure Request where
  method : String
  uri : Net.Uri
  headers : Net.Headers
  peer : Net.Endpoint
  deriving DecidableEq, Repr

/-- The size of the body that the request announces, if it announces one. -/
def Request.announcedBytes? (r : Request) : Option Nat :=
  (r.headers.text? "content-length").bind fun s =>
    Number.count? Number.wordBound s.toList

/-- A request for the header fields of an answer only. -/
def Request.isHead (r : Request) : Bool :=
  r.method == "HEAD"

def Request.reads (r : Request) : Bool :=
  r.method == "GET" || r.method == "HEAD"

/-- A response.  The names of its fields are in lower case. -/
structure Response where
  status : Nat
  headers : List (String × String)
  body : Bytes
  deriving DecidableEq, Repr

namespace Response

def empty (status : Nat) : Response :=
  ⟨status, [], []⟩

def typed (status : Nat) (contentType : String) (body : Bytes) : Response :=
  ⟨status, [("content-type", contentType)], body⟩

def plain (status : Nat) (text : String) : Response :=
  typed status "text/plain; charset=utf-8" (Text.Utf8.bytes text)

def html (status : Nat) (page : List Char) : Response :=
  typed status "text/html; charset=utf-8" (Text.Utf8.encode page)

def json (v : Json.Value) : Response :=
  typed 200 "application/json" v.compact

def withHeaders (r : Response) (headers : List (String × String)) : Response :=
  { r with headers := r.headers ++ headers }

/-- The response without its content; its fields stay. -/
def withoutBody (r : Response) : Response :=
  { r with body := [] }

/-- A text may stand in the value of a field: no control characters but the tab. -/
def fitsHeader (s : String) : Bool :=
  s.toList.all fun c => (0x20 ≤ c.toNat && c.toNat != 0x7F) || c == '\t'

@[simp] theorem status_withHeaders (r : Response) (headers : List (String × String)) :
    (r.withHeaders headers).status = r.status := rfl

@[simp] theorem status_withoutBody (r : Response) : r.withoutBody.status = r.status := rfl

end Response

end Tarpit.Web
