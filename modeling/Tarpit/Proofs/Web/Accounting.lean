import Tarpit.Proofs.Net.ClientKey
import Tarpit.Proofs.Store.Recorded
import Tarpit.Rate.Exact
import Tarpit.Web.Server

/-!
# Accounts of a server

The counters of a server and the visits in its store, against the requests that
it answered since all of them were empty.
-/

namespace Tarpit.Web

open Tarpit.Random (SplitMix Source)
open Tarpit.Rate (Level Limiter)
open Tarpit.Traffic (Ledger Store Visit namedAgent? recordedAgent)

variable {R S : Type} [Level R] [Source S] {site : Site} {st : State R S}

/-! ## Runs -/

inductive Occurrence where
  | request (r : Request)
  /-- The time of day and the clock of the limiter move, each in its own way. -/
  | clock (day steady : Int)
  | sweep
  /-- From now on the store answers, or does not. -/
  | reach (up : Bool)

/-- A request with the state that it met. -/
structure Exchange (R S : Type) where
  state : State R S
  request : Request

def State.after (site : Site) (st : State R S) : Occurrence → State R S
  | .request r => (handle site st r).2
  | .clock day steady => st.moveClocks day steady
  | .sweep => st.sweep.2
  | .reach up => { st with reachable := up }

def State.exchange? (st : State R S) : Occurrence → Option (Exchange R S)
  | .request r => some ⟨st, r⟩
  | .clock _ _ | .sweep | .reach _ => none

def State.afterAll (site : Site) (st : State R S) (run : List Occurrence) : State R S :=
  run.foldl (State.after site) st

def State.history (site : Site) (st : State R S) : List Occurrence → List (Exchange R S)
  | [] => []
  | o :: rest => (st.exchange? o).toList ++ (st.after site o).history site rest

/-- The visit can be recorded: the clock can be told, and the store answers and takes it. -/
def State.takes (st : State R S) (v : Visit) : Bool :=
  st.reachable && st.now.isReadable && (st.store.record st.volume .waiting v).isOk

/-- The client asked too often. -/
def Response.isLimited (answer : Response) : Bool :=
  answer.status == 429

namespace Exchange

def answer (site : Site) (x : Exchange R S) : Response :=
  (handle site x.state x.request).1

def after (site : Site) (x : Exchange R S) : State R S :=
  (handle site x.state x.request).2

/-- The request comes to the trap: it is not too large and leads to no page of the operator. -/
def isTrapped (site : Site) (x : Exchange R S) : Bool :=
  !exceedsLimit site x.request && Route.of site.credentials.path x.request.uri.path == .trap

def isServed (site : Site) (x : Exchange R S) : Bool :=
  x.isTrapped site && (x.answer site).status == 200

def isLimited (site : Site) (x : Exchange R S) : Bool :=
  (x.answer site).isLimited

def visit (site : Site) (x : Exchange R S) : Visit :=
  .arriving site.trustProxy x.request.headers x.request.peer x.request.uri.path x.state.now

def fails (site : Site) (x : Exchange R S) : Bool :=
  x.isServed site && !x.state.takes (x.visit site)

/-- The visit that is recorded of the request, if there is one. -/
def recorded? (site : Site) (x : Exchange R S) : Option Visit :=
  if x.isServed site && x.state.takes (x.visit site) then some (x.visit site) else none

end Exchange

/-! ## One request -/

@[simp] theorem status_framed (route : Route) (r : Request) (answer : Response) :
    (framed route r answer).status = answer.status := by
  unfold framed
  simp only
  split
  · rw [Response.status_withoutBody]
    split
    · rfl
    · rfl
  · split
    · rfl
    · rfl

omit [Level R] [Source S] in
theorem isLimited_behind (site : Site) (st : State R S) (route : Route) :
    (behind site st route).isLimited = false := by
  cases route with
  | overview =>
      show (overview site st).isLimited = false
      unfold overview
      split
      · rfl
      · rfl
  | charts =>
      show (charts site st).isLimited = false
      unfold charts
      split
      · rfl
      · rfl
  | metrics | login | unknown | trap => rfl

theorem isLimited_login (c : Admin.Credentials) (uri : Net.Uri) :
    (login c uri).isLimited = false := by
  unfold login
  split
  · split
    · rfl
    · rfl
  · rfl

omit [Level R] [Source S] in
/-- Below the operator's path no client is turned away for asking too often. -/
theorem isLimited_operator (site : Site) (st : State R S) (route : Route) (r : Request) :
    (operator site st route r).isLimited = false := by
  unfold operator
  simp only [Response.isLimited, Response.status_withHeaders]
  split
  · split
    · rfl
    · exact isLimited_login _ _
  · split
    · split
      · rfl
      · exact isLimited_behind site st route
    · rfl

theorem handle_of_trapped {r : Request} (h : Exchange.isTrapped site ⟨st, r⟩ = true) :
    handle site st r = trap site st r := by
  simp only [Exchange.isTrapped, Bool.and_eq_true, Bool.not_eq_true', beq_iff_eq] at h
  simp only [handle, h.2, answer, h.1, framed_trap, Bool.false_eq_true, if_false]

theorem handle_of_not_trapped {r : Request} (h : Exchange.isTrapped site ⟨st, r⟩ = false) :
    (handle site st r).2 = st ∧ Exchange.isLimited site ⟨st, r⟩ = false := by
  cases hlimit : exceedsLimit site r with
  | true =>
      have hhandle := handle_of_exceedsLimit hlimit st
      refine ⟨by rw [hhandle], ?_⟩
      rw [Exchange.isLimited, Exchange.answer, hhandle, Response.isLimited, status_framed]
      rfl
  | false =>
      have hroute : Route.of site.credentials.path r.uri.path ≠ .trap := by
        simpa [Exchange.isTrapped, hlimit] using h
      refine ⟨handle_of_not_trap hroute st, ?_⟩
      have hanswer : answer site st (Route.of site.credentials.path r.uri.path) r =
          (operator site st (Route.of site.credentials.path r.uri.path) r, st) := by
        unfold answer
        rw [if_neg (by simp [hlimit])]
        split
        · next htrap => exact absurd htrap hroute
        · rfl
      rw [Exchange.isLimited, Exchange.answer, handle, hanswer, Response.isLimited, status_framed]
      exact isLimited_operator site st _ r

/-- What the limiter says to the client of a request, and the limiter after it was asked. -/
def State.charge (site : Site) (st : State R S) (r : Request) : Bool × Limiter R :=
  st.limiter.allow (Net.clientKey site.trustProxy r.headers r.peer) st.instant

def State.charged (site : Site) (st : State R S) (r : Request) : State R S :=
  let limiter := (st.charge site r).2
  { st with limiter, metrics := { st.metrics with tracked := (limiter.tracked : Int) } }

theorem trap_of_refused {r : Request} (h : (st.charge site r).1 = false) :
    trap site st r = (tooManyRequests, (st.charged site r).turnAway) := by
  unfold State.charge at h
  unfold trap
  simp only [h, Bool.false_eq_true, if_false]
  rfl

theorem trap_of_admitted {r : Request} (h : (st.charge site r).1 = true) :
    trap site st r = serve site (st.charged site r) (Exchange.visit site ⟨st, r⟩) := by
  unfold State.charge at h
  unfold trap
  simp only [h, if_true]
  rfl

omit [Level R] in
/-- What serving a page changes of the numbers, of the limiter and of the store. -/
theorem serve_eq (site : Site) (st : State R S) (v : Visit) :
    (serve site st v).1.status = 200 ∧ (serve site st v).2.limiter = st.limiter ∧
      (serve site st v).2.metrics = { st.metrics with
        served := st.metrics.served + 1
        responses := st.metrics.responses.observe 0
        recordFailures := st.metrics.recordFailures + (if st.takes v then 0 else 1) } ∧
      ∀ visits, st.store.Recorded visits →
        (serve site st v).2.store.Recorded (visits ++ if st.takes v then [v] else []) := by
  unfold serve State.record State.takes
  cases hready : st.reachable && st.now.isReadable with
  | false => exact ⟨rfl, rfl, rfl, fun visits h => by simpa using h⟩
  | true =>
      cases hrecord : st.store.record st.volume .waiting v with
      | error e =>
          exact ⟨rfl, rfl, rfl, fun visits h => by simpa [Except.isOk, Except.toBool] using h⟩
      | ok changed => exact ⟨rfl, rfl, rfl, fun visits h => h.record hrecord⟩

/-- What one request changes of the numbers and of the store. -/
structure Exchange.Entered (site : Site) (x : Exchange R S) : Prop where
  served : (x.after site).metrics.served = x.state.metrics.served + (x.isServed site).toNat
  observed : (x.after site).metrics.responses.total =
    x.state.metrics.responses.total + (x.isServed site).toNat
  limited : (x.after site).metrics.limited = x.state.metrics.limited + (x.isLimited site).toNat
  failures : (x.after site).metrics.recordFailures =
    x.state.metrics.recordFailures + (x.fails site).toNat
  store : ∀ visits, x.state.store.Recorded visits →
    (x.after site).store.Recorded (visits ++ (x.recorded? site).toList)

namespace Exchange.Entered

variable {r : Request}

theorem of_not_trapped (h : Exchange.isTrapped site ⟨st, r⟩ = false) :
    Exchange.Entered site ⟨st, r⟩ := by
  obtain ⟨hsame, hlimited⟩ := handle_of_not_trapped h
  have hserved : Exchange.isServed site ⟨st, r⟩ = false := by
    rw [Exchange.isServed, h, Bool.false_and]
  constructor
  all_goals
    simp only [Exchange.after, hsame, Exchange.fails, Exchange.recorded?, hserved, hlimited]
  · rfl
  · rfl
  · rfl
  · rfl
  · exact fun visits h => by simpa using h

theorem of_refused (h : Exchange.isTrapped site ⟨st, r⟩ = true)
    (hcharge : (st.charge site r).1 = false) : Exchange.Entered site ⟨st, r⟩ := by
  have hhandle := (handle_of_trapped h).trans (trap_of_refused hcharge)
  have hserved : Exchange.isServed site ⟨st, r⟩ = false := by
    rw [Exchange.isServed, Exchange.answer, hhandle, h]
    rfl
  have hlimited : Exchange.isLimited site ⟨st, r⟩ = true := by
    rw [Exchange.isLimited, Exchange.answer, hhandle]
    rfl
  constructor
  all_goals
    simp only [Exchange.after, hhandle, Exchange.fails, Exchange.recorded?, hserved, hlimited]
  · rfl
  · rfl
  · rfl
  · rfl
  · intro visits hrecorded
    rw [if_neg (by simp), Option.toList_none, List.append_nil]
    exact hrecorded

theorem of_admitted (h : Exchange.isTrapped site ⟨st, r⟩ = true)
    (hcharge : (st.charge site r).1 = true) : Exchange.Entered site ⟨st, r⟩ := by
  have hhandle := (handle_of_trapped h).trans (trap_of_admitted hcharge)
  obtain ⟨hstatus, -, hmetrics, hstore⟩ :=
    serve_eq site (st.charged site r) (Exchange.visit site ⟨st, r⟩)
  have hserved : Exchange.isServed site ⟨st, r⟩ = true := by
    rw [Exchange.isServed, Exchange.answer, hhandle, h, hstatus]
    rfl
  have hlimited : Exchange.isLimited site ⟨st, r⟩ = false := by
    rw [Exchange.isLimited, Exchange.answer, hhandle, Response.isLimited, hstatus]
    rfl
  -- Charging the client leaves alone what decides whether the visit is taken.
  have htakes : (st.charged site r).takes (Exchange.visit site ⟨st, r⟩) =
      st.takes (Exchange.visit site ⟨st, r⟩) := rfl
  rw [htakes] at hmetrics hstore
  constructor
  all_goals
    simp only [Exchange.after, hhandle, hmetrics, Exchange.fails, Exchange.recorded?, hserved,
      hlimited]
  · rfl
  · rfl
  · rfl
  · cases st.takes (Exchange.visit site ⟨st, r⟩) with
    | true => rfl
    | false => rfl
  · intro visits hbefore
    have hrecorded := hstore visits hbefore
    cases htaken : st.takes (Exchange.visit site ⟨st, r⟩) with
    | true => simpa [htaken] using hrecorded
    | false => simpa [htaken] using hrecorded

end Exchange.Entered

theorem Exchange.entered (site : Site) (x : Exchange R S) : x.Entered site := by
  obtain ⟨st, r⟩ := x
  cases htrapped : Exchange.isTrapped site ⟨st, r⟩ with
  | false => exact .of_not_trapped htrapped
  | true =>
      cases hcharge : (st.charge site r).1 with
      | false => exact .of_refused htrapped hcharge
      | true => exact .of_admitted htrapped hcharge

/-- Every page served is recorded or counted as a failure. -/
theorem Exchange.length_entries (site : Site) (past : List (Exchange R S)) :
    (past.filterMap (recorded? site)).length + past.countP (fails site) =
      past.countP (isServed site) := by
  induction past with
  | nil => rfl
  | cons x rest ih =>
      cases hserved : x.isServed site with
      | false =>
          have hrecorded : x.recorded? site = none := by simp [recorded?, hserved]
          rw [List.filterMap_cons_none hrecorded,
            List.countP_cons_of_neg (by simp [fails, hserved]),
            List.countP_cons_of_neg (by simp [hserved]), ih]
      | true =>
          cases htaken : x.state.takes (x.visit site) with
          | true =>
              have hrecorded : x.recorded? site = some (x.visit site) := by
                simp [recorded?, hserved, htaken]
              rw [List.filterMap_cons_some hrecorded,
                List.countP_cons_of_neg (by simp [fails, htaken]),
                List.countP_cons_of_pos hserved, List.length_cons]
              omega
          | false =>
              have hrecorded : x.recorded? site = none := by simp [recorded?, htaken]
              rw [List.filterMap_cons_none hrecorded,
                List.countP_cons_of_pos (by simp [fails, hserved, htaken]),
                List.countP_cons_of_pos hserved]
              omega

/-! ## Accounts -/

/-- The numbers and the store of the state are those of the requests that were answered. -/
structure State.Accounts (site : Site) (st : State R S) (past : List (Exchange R S)) : Prop where
  served : st.metrics.served = past.countP (Exchange.isServed site)
  observed : st.metrics.responses.total = past.countP (Exchange.isServed site)
  limited : st.metrics.limited = past.countP (Exchange.isLimited site)
  failures : st.metrics.recordFailures = past.countP (Exchange.fails site)
  store : st.store.Recorded (past.filterMap (Exchange.recorded? site))

theorem countP_concat {α : Type} (p : α → Bool) (xs : List α) (x : α) :
    (xs ++ [x]).countP p = xs.countP p + (p x).toNat := by
  rw [List.countP_append, List.countP_singleton]
  cases p x with
  | true => rfl
  | false => rfl

theorem filterMap_concat {α β : Type} (f : α → Option β) (xs : List α) (x : α) :
    (xs ++ [x]).filterMap f = xs.filterMap f ++ (f x).toList := by
  rw [List.filterMap_append]
  cases h : f x with
  | none => rw [List.filterMap_cons_none h]; rfl
  | some y => rw [List.filterMap_cons_some h]; rfl

namespace State.Accounts

variable {past : List (Exchange R S)}

theorem exchange (h : st.Accounts site past) (r : Request) :
    (handle site st r).2.Accounts site (past ++ [⟨st, r⟩]) := by
  have hentered := Exchange.entered site ⟨st, r⟩
  refine ⟨?_, ?_, ?_, ?_, ?_⟩
  · rw [countP_concat, ← h.served]
    exact hentered.served
  · rw [countP_concat, ← h.observed]
    exact hentered.observed
  · rw [countP_concat, ← h.limited]
    exact hentered.limited
  · rw [countP_concat, ← h.failures]
    exact hentered.failures
  · rw [filterMap_concat]
    exact hentered.store _ h.store

theorem of_same {st' : State R S} (h : st.Accounts site past)
    (hmetrics : st'.metrics = st.metrics) (hstore : st'.store = st.store) :
    st'.Accounts site past := by
  obtain ⟨hserved, hobserved, hlimited, hfailures, hrecorded⟩ := h
  exact ⟨hmetrics ▸ hserved, hmetrics ▸ hobserved, hmetrics ▸ hlimited, hmetrics ▸ hfailures,
    hstore ▸ hrecorded⟩

theorem after (h : st.Accounts site past) (o : Occurrence) :
    (st.after site o).Accounts site (past ++ (st.exchange? o).toList) := by
  cases o with
  | request r => exact h.exchange r
  | clock day steady =>
      rw [State.exchange?, Option.toList_none, List.append_nil]
      exact h.of_same rfl rfl
  | sweep =>
      rw [State.exchange?, Option.toList_none, List.append_nil]
      exact h.of_same rfl rfl
  | reach up =>
      rw [State.exchange?, Option.toList_none, List.append_nil]
      exact h.of_same rfl rfl

theorem afterAll (h : st.Accounts site past) (run : List Occurrence) :
    (st.afterAll site run).Accounts site (past ++ st.history site run) := by
  induction run generalizing st past with
  | nil =>
      rw [State.history, List.append_nil]
      exact h
  | cons o rest ih =>
      rw [State.history, ← List.append_assoc]
      exact ih (h.after o)

/-- The store shows every page that was served, but for those that are counted as failures. -/
theorem total (h : st.Accounts site past) :
    st.metrics.recordFailures ≤ st.metrics.served ∧
    ∃ summary, st.store.summary .waiting = .ok summary ∧
      summary.totalRequests =
        st.store.shownTotal (st.metrics.served - st.metrics.recordFailures) := by
  obtain ⟨summary, hsummary, htotal⟩ := h.store.summary
  have hentries := Exchange.length_entries site past
  rw [← h.failures, ← h.served] at hentries
  refine ⟨by omega, summary, hsummary, ?_⟩
  rw [htotal, ← hentries, Nat.add_sub_cancel]

end State.Accounts

theorem accounts_empty (hmetrics : st.metrics = .empty) (hstore : st.store.Recorded []) :
    st.Accounts site [] := by
  constructor
  all_goals first | exact hstore | (rw [hmetrics]; rfl)

/-- The visit of a request has the key that the limiter charged when it let the request through. -/
theorem Exchange.recorded?_charged {x : Exchange R S} {v : Visit} (h : x.recorded? site = some v) :
    x.state.limiter.allow v.clientKey x.state.instant = (true, (x.after site).limiter) ∧
      (Ledger.clamped v).clientKey = v.clientKey ∧ v.path = x.request.uri.path ∧
      v.userAgent = recordedAgent (namedAgent? x.request.headers) := by
  obtain ⟨st, r⟩ := x
  unfold recorded? at h
  split at h
  · next hentered =>
      cases h
      rw [Bool.and_eq_true, isServed, Bool.and_eq_true] at hentered
      obtain ⟨⟨htrapped, hstatus⟩, -⟩ := hentered
      refine ⟨?_, Net.clamp_clientKey _ _ _, by rw [visit, Visit.arriving, Visit.of],
        by rw [visit, Visit.arriving, Visit.of]⟩
      cases hallowed : (st.charge site r).1 with
      | false =>
          rw [answer, handle_of_trapped htrapped, trap_of_refused hallowed] at hstatus
          have hrefused : (429 == 200) = true := hstatus
          exact absurd hrefused (by decide)
      | true =>
          obtain ⟨-, hlimiter, -, -⟩ := serve_eq site (st.charged site r) (visit site ⟨st, r⟩)
          rw [after, handle_of_trapped htrapped, trap_of_admitted hallowed, hlimiter, ← hallowed]
          rfl
  · cases h

theorem Exchange.tracked_after {x : Exchange R S} (h : x.isTrapped site = true) :
    (x.after site).metrics.tracked = ((x.after site).limiter.tracked : Int) := by
  obtain ⟨st, r⟩ := x
  rw [after, handle_of_trapped h]
  cases hallowed : (st.charge site r).1 with
  | false =>
      rw [trap_of_refused hallowed]
      rfl
  | true =>
      obtain ⟨-, hlimiter, hmetrics, -⟩ := serve_eq site (st.charged site r) (visit site ⟨st, r⟩)
      rw [trap_of_admitted hallowed, hlimiter, hmetrics]
      rfl

/--
Over a server whose numbers and store were empty the numbers count the answers, the store shows how
many of the pages served it took and has what it keeps of their visits, and each of these visits
has the key that was charged for its request.  A request that does not come to the trap changes nothing.
-/
theorem accounted (site : Site) (hmetrics : st.metrics = .empty)
    (hstore : st.store.Recorded []) (run : List Occurrence) :
    (st.afterAll site run).Accounts site (st.history site run) ∧
    ((st.afterAll site run).metrics.recordFailures ≤ (st.afterAll site run).metrics.served ∧
      ∃ summary, (st.afterAll site run).store.summary .waiting = .ok summary ∧
        summary.totalRequests = (st.afterAll site run).store.shownTotal
          ((st.afterAll site run).metrics.served -
            (st.afterAll site run).metrics.recordFailures)) ∧
    (st.afterAll site run).store.log =
      (st.afterAll site run).store.kept
        ((st.history site run).filterMap (Exchange.recorded? site)) ∧
    ∀ x ∈ st.history site run,
      (∀ v, x.recorded? site = some v →
        x.state.limiter.allow v.clientKey x.state.instant = (true, (x.after site).limiter) ∧
          (Ledger.clamped v).clientKey = v.clientKey ∧ v.path = x.request.uri.path ∧
          v.userAgent = recordedAgent (namedAgent? x.request.headers)) ∧
      (x.isTrapped site = true →
        (x.after site).metrics.tracked = ((x.after site).limiter.tracked : Int)) ∧
      (x.isTrapped site = false → x.after site = x.state) := by
  have hempty : st.Accounts site [] := accounts_empty hmetrics hstore
  have haccounts := hempty.afterAll run
  rw [List.nil_append] at haccounts
  refine ⟨haccounts, haccounts.total, haccounts.store.log, ?_⟩
  intro x _
  exact ⟨fun v hv => Exchange.recorded?_charged hv, Exchange.tracked_after,
    fun hx => (handle_of_not_trapped hx).1⟩

def crawledSite : Site :=
  ⟨.of "/admin" "token" false, ⟨["a"], none⟩, false, 10, 50, 50, 1048576⟩

/-- A server with room for one visit in its window. -/
def crawledState : State Rat SplitMix :=
  .start ⟨0, 0⟩ (.memory (.empty ⟨10, 10, 1⟩ ⟨0, 0⟩)) (.new ⟨1, 2, 5⟩) ⟨0⟩

/-- A request for a path with a query and a blank before the user agent. -/
def crawl : Request :=
  ⟨"GET", ⟨"/a", some "b"⟩, [⟨"user-agent", [0x20, 0x61]⟩], ⟨.v4 ⟨192, 0, 2, 9⟩, 0, 5555⟩⟩

/--
Two pages are served, one of them unrecorded, a third is refused, and a page of the operator, after
the time of day was set back.
-/
def crawledRun : List Occurrence :=
  [.request crawl, .reach false, .request crawl, .request crawl, .clock (-5) 2000000000, .sweep,
    .request { crawl with uri := ⟨"/admin", none⟩ }]

theorem accounted_crawledRun :
    (crawledState.afterAll crawledSite crawledRun).metrics.served = 2 ∧
    (crawledState.afterAll crawledSite crawledRun).metrics.limited = 1 ∧
    (crawledState.afterAll crawledSite crawledRun).metrics.recordFailures = 1 ∧
    (crawledState.afterAll crawledSite crawledRun).store.log =
      [⟨"192.0.2.9", "a", "/a", ⟨0, 0⟩⟩] := by
  have hmetrics : crawledState.metrics = .empty := rfl
  obtain ⟨haccounts, -, hlog, -⟩ := accounted crawledSite hmetrics rfl crawledRun
  refine ⟨haccounts.served.trans ?_, haccounts.limited.trans ?_, haccounts.failures.trans ?_,
    hlog.trans ?_⟩
  · decide +kernel
  · decide +kernel
  · decide +kernel
  · decide +kernel

/-- Of two visits that it took such a server has one, with the user agent in its recorded form. -/
theorem log_crawledTwice :
    (crawledState.history crawledSite [.request crawl, .request crawl]).countP
        (Exchange.isServed crawledSite) = 2 ∧
    (crawledState.history crawledSite [.request crawl, .request crawl]).countP
        (Exchange.fails crawledSite) = 0 ∧
    (crawledState.afterAll crawledSite [.request crawl, .request crawl]).store.log.length = 1 ∧
    ∀ v ∈ (crawledState.afterAll crawledSite [.request crawl, .request crawl]).store.log,
      namedAgent? crawl.headers ≠ some v.userAgent := by
  decide +kernel

end Tarpit.Web
