import Tarpit.Net.Endpoint
import Tarpit.Net.Header

/-!
# Client keys

The key under which the requests of a client are counted and limited.  It is
always the canonical spelling of an address, so a forged header cannot make up
keys of another kind.
-/

namespace Tarpit.Net

/-- The address that a text spells between blanks. -/
def addressIn? (s : List Char) : Option Address :=
  Address.of? (Text.trim s)

/-- The address that a proxy says it forwards for: the first entry of the first list. -/
def forwardedFor? (headers : Headers) : Option Address :=
  (headers.text? "x-forwarded-for").bind fun s => addressIn? (s.toList.takeWhile (· != ','))

/-- The address that a proxy names as the real one. -/
def realAddress? (headers : Headers) : Option Address :=
  (headers.text? "x-real-ip").bind fun s => addressIn? s.toList

/-- The address of the client.  Headers count only where the proxy is trusted. -/
def clientAddress (trusted : Bool) (headers : Headers) (peer : Endpoint) : Address :=
  if trusted then
    match forwardedFor? headers with
    | some a => a
    | none => (realAddress? headers).getD peer.address
  else peer.address

def clientKey (trusted : Bool) (headers : Headers) (peer : Endpoint) : String :=
  (clientAddress trusted headers peer).text

theorem clientKey_untrusted (headers : Headers) (peer : Endpoint) :
    clientKey false headers peer = peer.address.text := rfl

end Tarpit.Net
