import Tarpit.Net.ClientKey
import Tarpit.Traffic.Visit

/-!
# Arriving requests

What is recorded of a request that arrives now.
-/

namespace Tarpit.Traffic

open Tarpit.Time (Timestamp)

/-- The user agent that a request names: the first field, if it is a text. -/
def namedAgent? (headers : Net.Headers) : Option String :=
  headers.text? "user-agent"

def Visit.arriving (trusted : Bool) (headers : Net.Headers) (peer : Net.Endpoint) (path : String)
    (now : Timestamp) : Visit :=
  .of (Net.clientKey trusted headers peer) (namedAgent? headers) path now

end Tarpit.Traffic
