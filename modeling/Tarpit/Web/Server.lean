import Tarpit.Admin.Credentials
import Tarpit.Metrics
import Tarpit.Page.Generator
import Tarpit.Rate.Limiter
import Tarpit.Traffic.Arrival
import Tarpit.Traffic.Chart
import Tarpit.Web.Message
import Tarpit.Web.Route

/-!
# The server

Every path serves a trap page, except for the operator's pages, which show the
statistics to those who present the token.
-/

namespace Tarpit.Web

open Tarpit.Admin (Credentials)
open Tarpit.Json (Value)
open Tarpit.Random (Source)
open Tarpit.Rate (Level Limiter)
open Tarpit.Time (Timestamp)
open Tarpit.Traffic (Chart Failure Store Summary Visit Volume)

/-- What a server is set up with. -/
structure Site where
  credentials : Credentials
  pages : Page.Generator
  trustProxy : Bool
  /-- Labels of a chart. -/
  topItems : Nat
  maxLabelLength : Nat
  /-- Visits on the overview. -/
  recentDisplay : Nat
  maxBodyBytes : Nat
  deriving DecidableEq, Repr

/-- What changes while a server runs. -/
structure State (R S : Type) where
  /-- The time of day, with which visits are recorded; it can be set. -/
  now : Timestamp
  /-- The nanoseconds on the clock that the limiter goes by, which tells no time of day. -/
  instant : Int
  store : Store
  volume : Volume
  /-- The store answers at all. -/
  reachable : Bool
  limiter : Limiter R
  metrics : Metrics
  source : S

variable {R S : Type} [Level R] [Source S]

/-! ## The store behind the server -/

/-- The answer of the store; one that cannot be reached answers nothing. -/
def State.ask? {α : Type} (st : State R S) (query : Store → Except Failure α) : Option α :=
  if st.reachable then
    match query st.store with
    | .ok a => some a
    | .error _ => none
  else none

/--
Records a visit; one that cannot be recorded is counted.  Nothing can be recorded at a time that the
clock cannot tell.
-/
def State.record (st : State R S) (v : Visit) : State R S :=
  let failed := { st with
    metrics := { st.metrics with recordFailures := st.metrics.recordFailures + 1 } }
  if st.reachable && st.now.isReadable then
    match st.store.record st.volume .waiting v with
    | .ok (store, volume) => { st with store, volume }
    | .error _ => failed
  else failed

/-! ## Trap pages -/

/-- The answer to a client that asks too often. -/
def tooManyRequests : Response :=
  .plain 429 "Too Many Requests"

/-- The state after a client was turned away. -/
def State.turnAway (st : State R S) : State R S :=
  { st with metrics := { st.metrics with limited := st.metrics.limited + 1 } }

/-- The page for a client that is let through, and the state after it was served. -/
def serve (site : Site) (st : State R S) (v : Visit) : Response × State R S :=
  let st := st.record v
  let (page, source) := site.pages.page st.source
  (.html 200 page,
    { st with
      source
      metrics := { st.metrics with
        served := st.metrics.served + 1
        responses := st.metrics.responses.observe 0 } })

def trap (site : Site) (st : State R S) (r : Request) : Response × State R S :=
  let key := Net.clientKey site.trustProxy r.headers r.peer
  let (allowed, limiter) := st.limiter.allow key st.instant
  let st := { st with limiter, metrics := { st.metrics with tracked := (limiter.tracked : Int) } }
  if allowed then
    serve site st (.arriving site.trustProxy r.headers r.peer r.uri.path st.now)
  else (tooManyRequests, st.turnAway)

/-! ## The operator's pages -/

/-- The fields that every answer below the operator's path carries. -/
def hardening : List (String × String) :=
  [("content-security-policy", "default-src 'none'; frame-ancestors 'none'"),
    ("x-frame-options", "DENY"), ("x-content-type-options", "nosniff"),
    ("referrer-policy", "no-referrer"), ("cache-control", "no-store")]

def unauthorized : Response :=
  (Response.plain 401 "Unauthorized").withHeaders [("www-authenticate", "Bearer")]

/-- The answer while the store cannot be reached. -/
def unavailable : Response :=
  .plain 503 "Statistics unavailable"

/-- The totals as they stand on the overview. -/
def summaryValue (s : Summary) (now : Timestamp) : Value :=
  Value.ofMembers
    [("uptime_secs", .count (s.uptime now).seconds), ("total_requests", .count s.totalRequests),
      ("unique_ips", .count s.uniqueKeys), ("unique_user_agents", .count s.uniqueAgents)]

/-- The totals, for which the clock has to be read. -/
def State.summary? (st : State R S) : Option Summary :=
  if st.now.isReadable then st.ask? fun store => store.summary .waiting else none

/-- The overview: the totals, the chart and the latest visits. -/
def overview (site : Site) (st : State R S) : Response :=
  match st.summary?,
      st.ask? fun store => Chart.of store .waiting site.topItems site.maxLabelLength,
      st.ask? fun store => store.recent .waiting site.recentDisplay with
  | some summary, some chart, some visits =>
      .json (Value.ofMembers
        [("stats", summaryValue summary st.now), ("charts", chart.toJson),
          ("recent_requests", .array (visits.map Visit.toJson))])
  | _, _, _ => unavailable

def charts (site : Site) (st : State R S) : Response :=
  match st.ask? fun store => Chart.of store .waiting site.topItems site.maxLabelLength with
  | some chart => .json chart.toJson
  | none => unavailable

def metricsPage (st : State R S) : Response :=
  .typed 200 "text/plain; version=0.0.4" (Text.Utf8.bytes st.metrics.text)

/--
The exchange of a token in the query for a session.  Credentials that cannot
stand in a field leave both fields out and a complaint in their place.
-/
def login (c : Credentials) (uri : Net.Uri) : Response :=
  match c.login? uri with
  | some cookie =>
      if Response.fitsHeader c.path && Response.fitsHeader cookie then
        (Response.empty 303).withHeaders [("location", c.path), ("set-cookie", cookie)]
      else .plain 303 "failed to parse header value"
  | none => .html 403 "Invalid or missing authentication token.".toList

/-- What is behind a route once the token was shown. -/
def behind (site : Site) (st : State R S) : Route → Response
  | .overview => overview site st
  | .charts => charts site st
  | .metrics => metricsPage st
  | .login | .unknown | .trap => .empty 404

/-- The request asks a page for something else than to be read. -/
def isRefused (route : Route) (r : Request) : Bool :=
  route.isPage && !r.reads

/-- The answer for a route below the operator's path. -/
def operator (site : Site) (st : State R S) (route : Route) (r : Request) : Response :=
  let answer :=
    if route = .login then
      if isRefused route r then .empty 405 else login site.credentials r.uri
    else if site.credentials.authorize r.headers r.uri then
      if isRefused route r then .empty 405 else behind site st route
    else unauthorized
  answer.withHeaders hardening

/-! ## All requests -/

def allowedMethods : List (String × String) := [("allow", "GET,HEAD")]

/--
The answer as a page gives it, whatever it is: it names the methods to a request with another one,
and has no content when only its fields are asked for.
-/
def framed (route : Route) (r : Request) (answer : Response) : Response :=
  let answer := if isRefused route r then answer.withHeaders allowedMethods else answer
  if route.isPage && r.isHead then answer.withoutBody else answer

/-- The answer to a request whose body would be too large. -/
def tooLarge : Response :=
  .plain 413 "length limit exceeded"

/-- The request announces a larger body than the server takes. -/
def exceedsLimit (site : Site) (r : Request) : Bool :=
  r.announcedBytes?.any fun n => site.maxBodyBytes < n

/-- Answers a request that leads to a route. -/
def answer (site : Site) (st : State R S) (route : Route) (r : Request) : Response × State R S :=
  if exceedsLimit site r then (tooLarge, st)
  else
    match route with
    | .trap => trap site st r
    | route => (operator site st route r, st)

def handle (site : Site) (st : State R S) (r : Request) : Response × State R S :=
  let route := Route.of site.credentials.path r.uri.path
  let (response, st) := answer site st route r
  (framed route r response, st)

/-! ## Between requests -/

/-- Moves the time of day and the clock of the limiter, each by its own number of nanoseconds. -/
def State.moveClocks (st : State R S) (day steady : Int) : State R S :=
  { st with now := st.now.plusNanos day, instant := st.instant + steady }

/-- Sweeps the limiter; tells how many buckets went. -/
def State.sweep (st : State R S) : Nat × State R S :=
  let (removed, limiter) := st.limiter.sweep st.instant
  (removed, { st with limiter })

def State.start (now : Timestamp) (store : Store) (limiter : Limiter R) (source : S) :
    State R S :=
  ⟨now, 0, store, .empty, true, limiter, .empty, source⟩

theorem handle_of_exceedsLimit {site : Site} {r : Request} (h : exceedsLimit site r = true)
    (st : State R S) :
    handle site st r = (framed (Route.of site.credentials.path r.uri.path) r tooLarge, st) := by
  simp [handle, answer, h]

/-- On the trap an answer stays as it is. -/
theorem framed_trap (r : Request) (answer : Response) : framed .trap r answer = answer := rfl

/-- A request below the operator's path changes nothing. -/
theorem handle_of_not_trap {site : Site} {r : Request}
    (h : Route.of site.credentials.path r.uri.path ≠ .trap) (st : State R S) :
    (handle site st r).2 = st := by
  simp only [handle]
  generalize Route.of site.credentials.path r.uri.path = route at h
  by_cases hlimit : exceedsLimit site r = true
  · simp [answer, hlimit]
  · cases route with
    | trap => exact absurd rfl h
    | overview | charts | metrics | login | unknown => simp [answer, hlimit]

end Tarpit.Web
