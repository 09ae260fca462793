import Tarpit.Net.Endpoint
import Tarpit.Number.Double
import Tarpit.Rate.Limiter
import Tarpit.Text.Blank
import Tarpit.Text.Utf8
import Tarpit.Traffic.Store

/-!
# Configuration

The settings of the program, read from environment variables.  A variable that
is not set, not text or not readable leaves its setting at the default.
-/

namespace Tarpit

open Tarpit.Number (count? double?)

/-- Environment variables in the order in which they were set. -/
abbrev Environment := List (String × Bytes)

/-- The text of a variable, as it was set last. -/
def Environment.text? (env : Environment) (name : String) : Option String :=
  (env.reverse.lookup name).bind Text.Utf8.text?

/-- The settings. -/
structure Config where
  /-- Where to listen. -/
  listen : Net.Endpoint
  /-- Requests a second that every client may go on making. -/
  rate : Float
  /-- Requests that a new client may make at once. -/
  burst : Nat
  maxKeys : Nat
  maxAgents : Nat
  maxRecent : Nat
  /-- Believe the addresses that a proxy names. -/
  trustProxy : Bool
  backend : Traffic.Backend
  dataDirectory : String
  sweepSeconds : Nat
  flushSeconds : Nat
  delayMillis : Nat
  /-- Labels of a chart. -/
  topItems : Nat
  maxLabelLength : Nat
  /-- Visits on the operator's overview. -/
  recentDisplay : Nat
  wordlist? : Option String
  form? : Option String
  maxBodyBytes : Nat
  secureCookie : Bool

namespace Config

def default : Config :=
  { listen := ⟨.v4 ⟨0, 0, 0, 0⟩, 0, 8000⟩
    rate := 10
    burst := 20
    maxKeys := 10000
    maxAgents := 1000
    maxRecent := 100
    trustProxy := false
    backend := .durable
    dataDirectory := "./data"
    sweepSeconds := 60
    flushSeconds := 300
    delayMillis := 350
    topItems := 10
    maxLabelLength := 50
    recentDisplay := 50
    wordlist? := none
    form? := none
    maxBodyBytes := 1048576
    secureCookie := false }

/-! ## Reading variables -/

/-- A variable read without the blanks around it, or a default. -/
def parsed {α : Type} (env : Environment) (name : String) (read : List Char → Option α)
    (default : α) : α :=
  ((env.text? name).bind fun s => read (Text.trim s.toList)).getD default

def count (env : Environment) (name : String) (default : Nat) : Nat :=
  parsed env name (count? Number.wordBound) default

/-- The first number past the counts of 32 bits. -/
def shortBound : Nat := 1 <<< 32

def isYes (s : String) : Bool :=
  ["1", "true", "yes", "on"].contains (Text.lowered (Text.trimmed s))

/-- A switch.  Any text that does not switch it on switches it off. -/
def switch (env : Environment) (name : String) (default : Bool) : Bool :=
  match env.text? name with
  | some s => isYes s
  | none => default

/-- A text without the blanks around it, unless nothing else is there. -/
def textOrNone (env : Environment) (name : String) : Option String :=
  ((env.text? name).map Text.trimmed).filter fun s => !s.isEmpty

def load (env : Environment) : Config :=
  { listen := parsed env "TRAP_LISTEN_ADDR" Net.Endpoint.of? default.listen
    rate := parsed env "TRAP_RATE_LIMIT" double? default.rate
    burst := parsed env "TRAP_RATE_BURST" (count? shortBound) default.burst
    maxKeys := count env "TRAP_MAX_TRACKED_KEYS" default.maxKeys
    maxAgents := count env "TRAP_MAX_TRACKED_USER_AGENTS" default.maxAgents
    maxRecent := count env "TRAP_MAX_RECENT_REQUESTS" default.maxRecent
    trustProxy := switch env "TRAP_TRUST_PROXY" default.trustProxy
    backend := parsed env "TRAP_STORAGE_BACKEND"
      (fun cs => Traffic.Backend.parse? (String.ofList cs)) default.backend
    dataDirectory := (env.text? "TRAP_DATA_DIR").getD default.dataDirectory
    sweepSeconds := count env "TRAP_SWEEP_INTERVAL" default.sweepSeconds
    flushSeconds := count env "TRAP_FLUSH_INTERVAL" default.flushSeconds
    delayMillis := count env "TRAP_RESPONSE_DELAY_MS" default.delayMillis
    topItems := count env "TRAP_TOP_ITEMS" default.topItems
    maxLabelLength := count env "TRAP_MAX_LABEL_LENGTH" default.maxLabelLength
    recentDisplay := count env "TRAP_RECENT_DISPLAY" default.recentDisplay
    wordlist? := textOrNone env "TRAP_WORDLIST"
    form? := textOrNone env "TRAP_FORM_ENDPOINT"
    maxBodyBytes := count env "TRAP_MAX_BODY_BYTES" default.maxBodyBytes
    secureCookie := switch env "TRAP_SECURE_COOKIE" default.secureCookie }

/-! ## Checking -/

/-- The settings that must not be zero. -/
inductive Ceiling where
  | keys
  | agents
  | recent
  | body
  deriving DecidableEq, Repr

def Ceiling.name : Ceiling → String
  | .keys => "max tracked keys"
  | .agents => "max tracked user agents"
  | .recent => "max recent requests"
  | .body => "max body bytes"

def ceiling (c : Config) : Ceiling → Nat
  | .keys => c.maxKeys
  | .agents => c.maxAgents
  | .recent => c.maxRecent
  | .body => c.maxBodyBytes

/-- Why the program cannot run with some settings. -/
inductive Fault where
  | rate (given : Float)
  | burst
  | zero (which : Ceiling)
  | labelTooShort (given : Nat)
  | port
  deriving Repr

def Fault.message : Fault → String
  | .rate given =>
      String.ofList ("rate limit must be positive (got ".toList ++ Number.doubleText given ++ [')'])
  | .burst => "rate limit burst must be positive"
  | .zero which => which.name ++ " must be greater than zero"
  | .labelTooShort given =>
      String.ofList ("max label length must be at least 4 (got ".toList ++ Number.digits given ++
        [')'])
  | .port => "listen port must not be 0"

def zeroCeiling? (c : Config) : Option Ceiling :=
  [Ceiling.keys, .agents, .recent, .body].find? fun which => c.ceiling which == 0

def fault? (c : Config) : Option Fault :=
  if !(c.rate.isFinite && 0 < c.rate) then some (.rate c.rate)
  else if c.burst = 0 then some .burst
  else
    match c.zeroCeiling? with
    | some which => some (.zero which)
    | none =>
        if c.maxLabelLength < 4 then some (.labelTooShort c.maxLabelLength)
        else if c.listen.port = 0 then some .port
        else none

/-! ## Derived settings -/

def limits (c : Config) : Traffic.Limits :=
  ⟨c.maxKeys, c.maxAgents, c.maxRecent⟩

/-- What the limiter lets through. -/
def policy (c : Config) : Rate.Policy Float :=
  ⟨c.rate, c.burst, c.maxKeys⟩

/-- The seconds between two sweeps, at least one. -/
def sweepPeriod (c : Config) : Nat :=
  max c.sweepSeconds 1

/-- The seconds between two flushes, at least one. -/
def flushPeriod (c : Config) : Nat :=
  max c.flushSeconds 1

def delay (c : Config) : Time.Timestamp.Span :=
  ⟨c.delayMillis / 1000, c.delayMillis % 1000 * 1000000⟩

end Config

end Tarpit
