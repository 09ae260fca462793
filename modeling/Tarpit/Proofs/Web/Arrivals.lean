import Tarpit.Proofs.Visit.Arriving
import Tarpit.Proofs.Web.Accounting
import Tarpit.Traffic.Session

/-!
# Requests that a durable store records

A durable store records every request that is brought to it, by hand or by a
server that lets the request through: no header, peer or path makes it fail.
-/

namespace Tarpit.Traffic

/-- A store that made a change can be read from its journal. -/
theorem DurableStore.isLost_commit (d : DurableStore) (vol vol' : Volume) (tables : Ledger) :
    (d.commit vol tables).1.isLost vol' = false := by
  have hjournal : (d.commit vol tables).1.journal = d.journal.extended := by
    unfold commit
    split
    · rfl
    · rfl
  have hextended : (d.journal.extended == .nothing) = false := by
    cases d.journal with
    | _ => rfl
  rw [isLost, hjournal, hextended, Bool.false_and]

/-! ## Requests brought by hand -/

/-- A request that arrives at a time that the clock can tell. -/
structure TimedArrival extends Arrival where
  readable : time.isReadable = true

namespace Session

/-- The session is asked to record a request at the time at which it arrives. -/
def receive (s : Session) (a : TimedArrival) : Except Refusal String × Session :=
  { s with now := ⟨a.time, a.readable⟩ }.request a.trusted a.headers a.peer a.path .waiting

/-- Several requests, each with its answer, and the session after them. -/
def receiveAll (s : Session) : List TimedArrival → List (Except Refusal String) × Session
  | [] => ([], s)
  | a :: rest =>
      let (answer, s) := s.receive a
      let (answers, s) := s.receiveAll rest
      (answer :: answers, s)

variable {s : Session} {d : DurableStore}

theorem record_durable (hstore : s.store? = some (.durable d)) (hkept : d.isLost s.volume = false)
    {v : Visit} (h : Ledger.accepts v = true) :
    s.record .waiting v = (.ok (), { s with
      volume := (d.commit s.volume (Ledger.recorded v d.tables)).2
      store? := some (.durable (d.commit s.volume (Ledger.recorded v d.tables)).1) }) := by
  simp only [record, hstore, Store.record_durable h, Store.isLost, hkept, Bool.false_eq_true,
    if_false]

/-- One request gets its key for an answer, and a row in the log. -/
theorem receive_durable (hstore : s.store? = some (.durable d)) (hkept : d.isLost s.volume = false)
    (a : TimedArrival) :
    ∃ d', (s.receive a).1 = .ok a.key ∧ (s.receive a).2.store? = some (.durable d') ∧
      d'.isLost (s.receive a).2.volume = false ∧
      d'.tables = Ledger.recorded a.visit d.tables := by
  have hrecord := record_durable (s := { s with now := ⟨a.time, a.readable⟩ }) hstore hkept
    a.accepts_visit
  unfold Arrival.visit at hrecord
  simp only [receive, request, hrecord]
  exact ⟨_, rfl, rfl, d.isLost_commit _ _ _, d.tables_commit _ _⟩

/-- However many requests come, each gets its key for an answer, and the log a row for each. -/
theorem receiveAll_durable (hstore : s.store? = some (.durable d))
    (hkept : d.isLost s.volume = false) (arrivals : List TimedArrival) :
    (s.receiveAll arrivals).1 = arrivals.map (fun a => .ok a.key) ∧
    ∃ d' rows, (s.receiveAll arrivals).2.store? = some (.durable d') ∧
      List.Forall₂ (fun a row => a.toArrival.EnteredAs row) arrivals rows ∧
      d'.tables.log = d.tables.log ++ rows := by
  induction arrivals generalizing s d with
  | nil => exact ⟨rfl, d, [], hstore, .nil, (List.append_nil _).symm⟩
  | cons a rest ih =>
      obtain ⟨next, hanswer, hstore', hkept', htables⟩ := receive_durable hstore hkept a
      obtain ⟨hanswers, d', rows, hlast, hrows, hlog⟩ := ih hstore' hkept'
      refine ⟨?_, d', Ledger.clamped a.visit :: rows, hlast, .cons a.enteredAs_clamped hrows, ?_⟩
      · rw [List.map_cons, ← hanswers, ← hanswer]
        rfl
      · rw [hlog, htables, ← List.singleton_append, ← List.append_assoc]
        rfl

end Session

end Tarpit.Traffic

namespace Tarpit.Web

open Tarpit.Random (SplitMix Source)
open Tarpit.Rate (Level)
open Tarpit.Traffic (Arrival DurableStore Ledger Session Store TimedArrival Visit)

variable {R S : Type} {site : Site} {st : State R S}

/-! ## Requests that a server lets through -/

namespace State

variable {d : DurableStore}

/-- Only the store, its volume and the clock decide what becomes of a visit. -/
theorem store_record_congr {st' : State R S} (hstore : st'.store = st.store)
    (hvolume : st'.volume = st.volume) (hnow : st'.now = st.now)
    (hreachable : st'.reachable = st.reachable) (v : Visit) :
    (st'.record v).store = (st.record v).store := by
  unfold record
  rw [hstore, hvolume, hnow, hreachable]
  cases st.reachable && st.now.isReadable with
  | false => rfl
  | true =>
      cases st.store.record st.volume .waiting v with
      | ok changed => rfl
      | error e => rfl

/-- A visit that arrives is recorded unless the store cannot be reached. -/
theorem store_record (hstore : st.store = .durable d) (a : Arrival) :
    (st.record a.visit).store =
      if st.reachable && st.now.isReadable then
        .durable (d.commit st.volume (Ledger.recorded a.visit d.tables)).1
      else .durable d := by
  unfold record
  rw [hstore, Store.record_durable a.accepts_visit]
  split
  · rfl
  · rfl

theorem takes_of_durable (hstore : st.store = .durable d) (a : Arrival) :
    st.takes a.visit = (st.reachable && st.now.isReadable) := by
  rw [takes, hstore, Store.record_durable a.accepts_visit]
  exact Bool.and_true _

theorem state_of_exchange? {o : Occurrence} {x : Exchange R S}
    (h : st.exchange? o = some x) : x.state = st := by
  cases o with
  | request r =>
      cases h
      rfl
  | clock | sweep | reach => cases h

end State

/-- The request of an exchange, as it arrives at the store. -/
def Exchange.arrival (site : Site) (x : Exchange R S) : Arrival :=
  ⟨site.trustProxy, x.request.headers, x.request.peer, x.request.uri.path, x.state.now⟩

variable [Level R] [Source S]

namespace Exchange

/-- What an exchange makes of the store: one that is served brings its visit, another one nothing. -/
theorem store_after (site : Site) (x : Exchange R S) :
    (x.after site).store =
      if x.isServed site then (x.state.record (x.arrival site).visit).store else x.state.store := by
  obtain ⟨st, r⟩ := x
  cases htrapped : isTrapped site ⟨st, r⟩ with
  | false =>
      have hserved : isServed site ⟨st, r⟩ = false := by rw [isServed, htrapped, Bool.false_and]
      rw [after, (handle_of_not_trapped htrapped).1, hserved]
      rfl
  | true =>
      cases hcharge : (st.charge site r).1 with
      | false =>
          have hhandle := (handle_of_trapped htrapped).trans (trap_of_refused hcharge)
          have hserved : isServed site ⟨st, r⟩ = false := by
            rw [isServed, answer, hhandle, htrapped]
            rfl
          rw [after, hhandle, hserved]
          rfl
      | true =>
          have hhandle := (handle_of_trapped htrapped).trans (trap_of_admitted hcharge)
          have hserved : isServed site ⟨st, r⟩ = true := by
            rw [isServed, answer, hhandle, htrapped, (serve_eq site _ _).1]
            rfl
          rw [after, hhandle, hserved, if_pos rfl]
          -- The bucket was charged before, which the store does not see.
          have hsame : ((st.charged site r).record (visit site ⟨st, r⟩)).store =
              (st.record (visit site ⟨st, r⟩)).store := by
            apply State.store_record_congr
            all_goals rfl
          exact hsame

variable {d : DurableStore}

/-- A durable store stays one. -/
theorem store_after_durable (site : Site) {x : Exchange R S} (hstore : x.state.store = .durable d) :
    ∃ d', (x.after site).store = .durable d' := by
  rw [x.store_after, State.store_record hstore]
  split
  · split
    · exact ⟨_, rfl⟩
    · exact ⟨d, rfl⟩
  · exact ⟨d, hstore⟩

/-- A request that is let through while the store can be reached is in the log afterwards. -/
theorem entered_of_durable {x : Exchange R S} (hstore : x.state.store = .durable d)
    (hserved : x.isServed site = true)
    (hreached : (x.state.reachable && x.state.now.isReadable) = true) :
    x.fails site = false ∧ ∃ d' row, (x.after site).store = .durable d' ∧
      (x.arrival site).EnteredAs row ∧ d'.tables.log = d.tables.log ++ [row] := by
  have htakes := State.takes_of_durable hstore (x.arrival site)
  have hafter := x.store_after site
  rw [hserved, if_pos rfl, State.store_record hstore, hreached, if_pos rfl] at hafter
  refine ⟨?_, _, _, hafter, (x.arrival site).enteredAs_clamped, ?_⟩
  · rw [fails, hserved, Bool.true_and, show x.visit site = (x.arrival site).visit from rfl, htakes,
      hreached]
    rfl
  · rw [DurableStore.tables_commit]
    rfl

end Exchange

theorem State.after_durable {d : DurableStore} (site : Site) (hstore : st.store = .durable d)
    (o : Occurrence) : ∃ d', (st.after site o).store = .durable d' := by
  cases o with
  | request r => exact Exchange.store_after_durable site (x := ⟨st, r⟩) hstore
  | clock | sweep | reach => exact ⟨d, hstore⟩

/-- In every exchange of a server with a durable store the store is a durable one. -/
theorem durable_history {d : DurableStore} (hstore : st.store = .durable d)
    (run : List Occurrence) :
    ∀ x ∈ st.history site run, ∃ d', x.state.store = .durable d' := by
  induction run generalizing st d with
  | nil => exact fun x hx => absurd hx List.not_mem_nil
  | cons o rest ih =>
      intro x hx
      rw [State.history, List.mem_append, Option.mem_toList] at hx
      rcases hx with hx | hx
      · rw [State.state_of_exchange? hx]
        exact ⟨d, hstore⟩
      · obtain ⟨d', hafter⟩ := st.after_durable site hstore o
        exact ih hafter x hx

/--
A durable store whose file was not taken away refuses no request.  Whatever requests come, each is
answered with its key and has a row in the log, with the key as it is and the user agent cut to its
column; and over a server each request that is let through has one, while the store can be reached
at a time that the clock can tell.
-/
theorem arrivals_recorded {d : DurableStore} {s : Session}
    (hsession : s.store? = some (.durable d)) (hkept : d.isLost s.volume = false)
    (hserver : st.store = .durable d) (site : Site) :
    (∀ arrivals : List TimedArrival,
      (s.receiveAll arrivals).1 = arrivals.map (fun a => .ok a.key) ∧
      ∃ d' rows, (s.receiveAll arrivals).2.store? = some (.durable d') ∧
        List.Forall₂ (fun a row => a.toArrival.EnteredAs row) arrivals rows ∧
        d'.tables.log = d.tables.log ++ rows) ∧
    ∀ run, ∀ x ∈ st.history site run, x.isServed site = true →
      (x.state.reachable && x.state.now.isReadable) = true →
      x.fails site = false ∧ ∃ before after row, x.state.store = .durable before ∧
        (x.after site).store = .durable after ∧ (x.arrival site).EnteredAs row ∧
        after.tables.log = before.tables.log ++ [row] := by
  refine ⟨Session.receiveAll_durable hsession hkept, ?_⟩
  intro run x hx hserved hreached
  obtain ⟨before, hbefore⟩ := durable_history hserver run x hx
  obtain ⟨hfails, after, row, hafter, hrow, hlog⟩ :=
    Exchange.entered_of_durable hbefore hserved hreached
  exact ⟨hfails, before, after, row, hbefore, hafter, hrow, hlog⟩

/-- Forwarded addresses that are no text and not the first, a real one, and an agent with a NUL. -/
def forgedHeaders : Net.Headers :=
  [⟨"X-Forwarded-For", [0xFF]⟩, ⟨"X-Forwarded-For", Text.Utf8.encode "10.0.0.1".toList⟩,
    ⟨"X-Real-IP", Text.Utf8.encode " FE80:0::1 ".toList⟩, ⟨"User-Agent", [0x61, 0x00]⟩]

/-- The same headers with trust, for a path with a NUL, and without trust. -/
def forgedArrivals : List TimedArrival :=
  [⟨⟨true, forgedHeaders, crawl.peer, "\x00", ⟨0, 0⟩⟩, rfl⟩,
    ⟨⟨false, forgedHeaders, crawl.peer, "", ⟨1, 0⟩⟩, rfl⟩]

def durableSession : Session :=
  { Session.start ⟨⟨0, 0⟩, rfl⟩ with store? := some (.durable (.inMemory ⟨0, 0⟩)) }

def durableState : State Rat SplitMix :=
  { crawledState with store := .durable (.inMemory ⟨0, 0⟩) }

theorem arrivals_recorded_forged :
    (durableSession.receiveAll forgedArrivals).1 = [.ok "fe80::1", .ok "192.0.2.9"] ∧
    ∃ d row, (Exchange.after crawledSite ⟨durableState, crawl⟩).store = .durable d ∧
      (Exchange.arrival crawledSite ⟨durableState, crawl⟩).EnteredAs row ∧
      d.tables.log = [row] := by
  obtain ⟨hsession, hserver⟩ := arrivals_recorded (s := durableSession) rfl rfl
    (show durableState.store = .durable (.inMemory ⟨0, 0⟩) from rfl) crawledSite
  constructor
  · rw [(hsession forgedArrivals).1]
    have hforged : forgedArrivals.map (fun a => a.key) = ["fe80::1", "192.0.2.9"] := by decide +kernel
    have hanswers := congrArg
      (List.map fun key => (.ok key : Except Traffic.Refusal String)) hforged
    rwa [List.map_map] at hanswers
  · have hserved : Exchange.isServed crawledSite ⟨durableState, crawl⟩ = true := by decide +kernel
    obtain ⟨-, before, after, row, hbefore, hafter, hrow, hlog⟩ := hserver [.request crawl]
      ⟨durableState, crawl⟩ (List.mem_singleton_self _) hserved (by decide)
    cases hbefore
    exact ⟨after, row, hafter, hrow, hlog⟩

end Tarpit.Web
