import Tarpit.Net.Address

/-!
# Endpoints

An address with a port, and for version 6 the scope in which it is meant.
-/

namespace Tarpit.Net

open Tarpit.Number (digits naturalBelow?)

/-- One end of a connection.  The scope is zero for version 4. -/
structure Endpoint where
  address : Address
  scope : UInt32
  port : UInt16
  deriving DecidableEq, Repr

namespace Endpoint

def port? (s : List Char) : Option UInt16 :=
  (naturalBelow? (1 <<< 16) s).map Nat.toUInt16

def scope? (s : List Char) : Option UInt32 :=
  (naturalBelow? (1 <<< 32) s).map Nat.toUInt32

/-- What stands in brackets: an address of version 6, and behind a percent sign a scope. -/
def bracketed? (s : List Char) : Option (Groups × UInt32) :=
  match Groups.of? (s.takeWhile (· != '%')), s.dropWhile (· != '%') with
  | some g, [] => some (g, 0)
  | some g, _ :: digits => (scope? digits).map fun n => (g, n)
  | none, _ => none

def of? (s : List Char) : Option Endpoint :=
  match s with
  | '[' :: rest =>
      match bracketed? (rest.takeWhile (· != ']')), rest.dropWhile (· != ']') with
      | some (g, n), ']' :: ':' :: digits => (port? digits).map fun p => ⟨.v6 g, n, p⟩
      | _, _ => none
  | _ =>
      match Quad.of? (s.takeWhile (· != ':')), s.dropWhile (· != ':') with
      | some q, ':' :: digits => (port? digits).map fun p => ⟨.v4 q, 0, p⟩
      | _, _ => none

/-- The spelling of an endpoint.  A scope is written unless it is zero. -/
def chars (e : Endpoint) : List Char :=
  let tail := ':' :: digits e.port.toNat
  match e.address with
  | .v4 q => q.chars ++ tail
  | .v6 g =>
      let scope := if e.scope = 0 then [] else '%' :: digits e.scope.toNat
      '[' :: g.chars ++ scope ++ ']' :: tail

def text (e : Endpoint) : String :=
  String.ofList e.chars

def parse? (s : String) : Option Endpoint :=
  of? s.toList

end Endpoint

end Tarpit.Net
