import Tarpit.Proofs.Store.Calls
import Tarpit.Proofs.Tally.Top
import Tarpit.Proofs.Web.Operator

/-!
# The overview of a history

What the operator reads off a server that holds its statistics in memory: the
numbers, the charts and the latest visits are those of the pages that it served
while its clock could be told, and nothing else that it was asked leaves a trace.
-/

namespace Tarpit.Traffic

open Tarpit.Time (Timestamp)

/-! ## Charts -/

/-- The series shows the labels that rank first, and how often each of them came, as a word. -/
structure Series.Shows (s : Series) (shown : String → String) (labels : List String)
    (limit places : Nat) : Prop where
  ranked : ∃ ranking, Ranks limit labels ranking ∧
    s.labels = (ranking.take places).map shown ∧
    s.data = (ranking.take places).map fun label => Number.wrapped (labels.count label)
  length_labels : s.labels.length = min places (min limit labels.eraseDups.length)
  length_data : s.data.length = min places (min limit labels.eraseDups.length)
  decreasing : s.data.Pairwise fun m n => n ≤ m

theorem Ranks.length_eq {limit : Nat} {labels ranking : List String}
    (h : Ranks limit labels ranking) : ranking.length = min limit labels.eraseDups.length := by
  rw [h.perm.length_eq, length_firstLabels]

theorem Ranks.decreasing {limit : Nat} {labels ranking : List String}
    (h : Ranks limit labels ranking) :
    ranking.Pairwise fun a b =>
      Number.wrapped (labels.count b) ≤ Number.wrapped (labels.count a) := by
  refine h.ordered.imp fun hab => ?_
  rcases hab with hlt | ⟨heq, -⟩
  · exact Nat.le_of_lt hlt
  · exact Nat.le_of_eq heq.symm

theorem Tally.Reflects.series {t : Tally} {limit : Nat} {labels : List String}
    (h : t.Reflects limit labels) (places : Nat) (max? : Option Nat) :
    (Series.of (t.top places) max?).Shows
      (fun label => match max? with
        | some n => truncatedLabel label n
        | none => label) labels limit places := by
  obtain ⟨ranking, hranks, htop⟩ := h.top_eq
  have hlabels : (Series.of (t.top places) max?).labels =
      (ranking.take places).map fun label => match max? with
        | some n => truncatedLabel label n
        | none => label := by
    simp only [Series.of, htop, List.map_map]
    rfl
  have hdata : (Series.of (t.top places) max?).data =
      (ranking.take places).map fun label => Number.wrapped (labels.count label) := by
    simp only [Series.of, htop, List.map_map]
    rfl
  have hlength : (Series.of (t.top places) max?).data.length =
      min places (min limit labels.eraseDups.length) := by
    rw [hdata, List.length_map, List.length_take, hranks.length_eq]
  refine ⟨⟨ranking, hranks, hlabels, hdata⟩, (length_labels_of _ _).trans hlength, hlength, ?_⟩
  rw [hdata, List.pairwise_map]
  exact hranks.decreasing.sublist (List.take_sublist _ _)

/-- The chart shows how often the keys and the agents of some visits came. -/
structure Chart.Shows (c : Chart) (limits : Limits) (places max : Nat) (visits : List Visit) :
    Prop where
  keys : c.topKeys.Shows (fun key => key) (visits.map Visit.clientKey) limits.keys places
  agents : c.topAgents.Shows (fun agent => truncatedLabel agent max)
    (visits.map Visit.userAgent) limits.agents places

theorem MemoryStats.Reflects.chart {m : MemoryStore} {limits : Limits} {now : Timestamp}
    {visits : List Visit} (h : m.stats.Reflects limits now visits) (places max : Nat) :
    ∃ chart, Chart.of (.memory m) .waiting places max = .ok chart ∧
      chart.Shows limits places max visits :=
  ⟨_, rfl, h.keys.series places none, h.agents.series places (some max)⟩

end Tarpit.Traffic

namespace Tarpit.Web

open Tarpit.Random (Source)
open Tarpit.Rate (Level)
open Tarpit.Json (Value)
open Tarpit.Time (Timestamp)
open Tarpit.Traffic

variable {R S : Type} {site : Site} {st : State R S} {limits : Limits} {start : Timestamp}

/-! ## A server with its statistics in memory -/

/-- The store is one in memory, with these limits and this start, and it answers. -/
structure State.InMemory (st : State R S) (limits : Limits) (start : Timestamp) : Prop where
  reachable : st.reachable = true
  store : ∃ m, st.store = .memory m ∧ m.limits = limits ∧ m.stats.startTime = start

namespace State.InMemory

theorem of_same {st' : State R S} (h : st.InMemory limits start)
    (hreachable : st'.reachable = st.reachable) (hstore : st'.store = st.store) :
    st'.InMemory limits start :=
  ⟨hreachable.trans h.reachable, hstore ▸ h.store⟩

theorem takes_eq (h : st.InMemory limits start) (v : Visit) : st.takes v = st.now.isReadable := by
  obtain ⟨m, hstore, -, -⟩ := h.store
  rw [State.takes, h.reachable, hstore, Store.record_memory, Bool.true_and]
  exact Bool.and_true _

theorem record (h : st.InMemory limits start) (v : Visit) :
    (st.record v).InMemory limits start := by
  obtain ⟨m, hstore, hlimits, hstart⟩ := h.store
  unfold State.record
  simp only
  split
  · rw [hstore, Store.record_memory]
    exact ⟨h.reachable, _, rfl, hlimits, hstart⟩
  · exact h.of_same rfl rfl

variable [Level R] [Source S]

theorem handle (h : st.InMemory limits start) (site : Site) (r : Request) :
    (handle site st r).2.InMemory limits start := by
  cases htrapped : Exchange.isTrapped site ⟨st, r⟩ with
  | false => rwa [(handle_of_not_trapped htrapped).1]
  | true =>
      have hcharged : (st.charged site r).InMemory limits start := h.of_same rfl rfl
      rw [handle_of_trapped htrapped]
      cases hcharge : (st.charge site r).1 with
      | false =>
          rw [trap_of_refused hcharge]
          exact hcharged.of_same rfl rfl
      | true =>
          rw [trap_of_admitted hcharge]
          exact (hcharged.record (Exchange.visit site ⟨st, r⟩)).of_same rfl rfl

theorem after (h : st.InMemory limits start) (site : Site) {o : Occurrence}
    (ho : ∀ up, o ≠ .reach up) : (st.after site o).InMemory limits start := by
  cases o with
  | request r => exact h.handle site r
  | clock => exact h.of_same rfl rfl
  | sweep => exact h.of_same rfl rfl
  | reach up => exact absurd rfl (ho up)

theorem afterAll (h : st.InMemory limits start) (site : Site) {run : List Occurrence}
    (hrun : ∀ up, Occurrence.reach up ∉ run) :
    (st.afterAll site run).InMemory limits start ∧
      ∀ x ∈ st.history site run, x.state.InMemory limits start := by
  induction run generalizing st with
  | nil => exact ⟨h, fun x hx => absurd hx List.not_mem_nil⟩
  | cons o rest ih =>
      have ho : ∀ up, o ≠ .reach up := fun up heq => hrun up (heq ▸ List.mem_cons_self)
      obtain ⟨hend, hpast⟩ := ih (h.after site ho)
        fun up hmem => hrun up (List.mem_cons_of_mem _ hmem)
      refine ⟨hend, fun x hx => ?_⟩
      rcases List.mem_append.1 hx with hx | hx
      · cases o with
        | request r =>
            rw [List.mem_singleton.1 hx]
            exact h
        | clock => cases hx
        | sweep => cases hx
        | reach up => cases hx
      · exact hpast x hx

end State.InMemory

/-! ## What is counted -/

variable [Level R] [Source S]

/-- The request was served a page at a time that the clock could tell. -/
def Exchange.isCounted (site : Site) (x : Exchange R S) : Bool :=
  x.isServed site && x.state.now.isReadable

/-- The visits of the requests that were served, as far as they count. -/
def State.counted (site : Site) (st : State R S) (run : List Occurrence) : List Visit :=
  ((st.history site run).filter (Exchange.isCounted site)).map (Exchange.visit site)

theorem Exchange.recorded?_eq {x : Exchange R S} (h : x.state.InMemory limits start)
    (site : Site) :
    x.recorded? site = if x.isCounted site then some (x.visit site) else none := by
  rw [recorded?, h.takes_eq, isCounted]

theorem State.InMemory.filterMap_recorded? (h : st.InMemory limits start) {run : List Occurrence}
    (hrun : ∀ up, Occurrence.reach up ∉ run) :
    (st.history site run).filterMap (Exchange.recorded? site) = st.counted site run := by
  have hpast := (h.afterAll site hrun).2
  unfold State.counted
  generalize st.history site run = past at hpast
  induction past with
  | nil => rfl
  | cons x rest ih =>
      have hrest := ih fun y hy => hpast y (List.mem_cons_of_mem _ hy)
      have hx := Exchange.recorded?_eq (hpast x List.mem_cons_self) site
      cases hcounted : x.isCounted site with
      | true =>
          rw [hcounted, if_pos rfl] at hx
          rw [List.filterMap_cons_some hx, List.filter_cons_of_pos hcounted, List.map_cons, hrest]
      | false =>
          rw [hcounted, if_neg Bool.false_ne_true] at hx
          rw [List.filterMap_cons_none hx, List.filter_cons_of_neg (by simp [hcounted]), hrest]

theorem State.recorded_afterAll {visits : List Visit} (h : st.store.Recorded visits)
    (site : Site) (run : List Occurrence) :
    (st.afterAll site run).store.Recorded
      (visits ++ (st.history site run).filterMap (Exchange.recorded? site)) := by
  induction run generalizing st visits with
  | nil =>
      rw [State.history, List.filterMap_nil, List.append_nil]
      exact h
  | cons o rest ih =>
      rw [State.history, List.filterMap_append, ← List.append_assoc]
      apply ih
      cases o with
      | request r =>
          have hone := filterMap_concat (Exchange.recorded? site) [] ⟨st, r⟩
          rw [State.exchange?, Option.toList_some, show [_] = [] ++ [_] from rfl, hone]
          exact (Exchange.entered site ⟨st, r⟩).store visits h
      | clock | sweep | reach =>
          rw [State.exchange?, Option.toList_none, List.filterMap_nil, List.append_nil]
          exact h

/-- After a run the statistics are those of the visits that count. -/
theorem State.InMemory.reflects (h : st.InMemory limits start) (hfresh : st.store.Recorded [])
    (site : Site) {run : List Occurrence} (hrun : ∀ up, Occurrence.reach up ∉ run) :
    ∃ m, (st.afterAll site run).store = .memory m ∧
      m.stats.Reflects limits start (st.counted site run) := by
  obtain ⟨m, hstore, rfl, rfl⟩ := (h.afterAll site hrun).1.store
  have hrecorded := State.recorded_afterAll hfresh site run
  rw [hstore, List.nil_append, h.filterMap_recorded? hrun] at hrecorded
  have hstats : m.stats = .recordAll m.limits (st.counted site run)
      (.empty m.limits m.stats.startTime) := hrecorded
  have hreflects :=
    (MemoryStats.reflects_empty m.limits m.stats.startTime).recordAll (st.counted site run)
  rw [← hstats] at hreflects
  exact ⟨m, hstore, hreflects⟩

/-! ## What the operator sees -/

/-- A page of the operator that is asked for with the token. -/
theorem handle_page {r : Request} {route : Route} (hlimit : exceedsLimit site r = false)
    (hmethod : r.method = "GET") (hauthorize : site.credentials.authorize r.headers r.uri = true)
    (hroute : Route.of site.credentials.path r.uri.path = route) (htrap : route ≠ .trap)
    (hlogin : route ≠ .login) (st : State R S) :
    handle site st r = ((behind site st route).withHeaders hardening, st) := by
  have hreads : isRefused route r = false := by simp [isRefused, Request.reads, hmethod]
  have hbody : r.isHead = false := by simp [Request.isHead, hmethod]
  have hoperator : operator site st route r = (behind site st route).withHeaders hardening := by
    simp only [operator, if_neg hlogin, hauthorize, hreads, if_true, Bool.false_eq_true, if_false]
  rw [handle_eq_operator hlimit hroute htrap, hoperator]
  simp only [framed, hreads, hbody, Bool.and_false, Bool.false_eq_true, if_false]

/-- The overview of some visits: the numbers, the charts and the latest visits. -/
def overviewOf (site : Site) (limits : Limits) (start now : Timestamp) (visits : List Visit)
    (chart : Chart) : Response :=
  .json (Value.ofMembers
    [("stats", summaryValue ⟨start, Number.wrapped visits.length,
        min limits.keys (visits.map Visit.clientKey).eraseDups.length,
        min limits.agents (visits.map Visit.userAgent).eraseDups.length⟩ now),
      ("charts", chart.toJson),
      ("recent_requests", .array
        ((lastN (min site.recentDisplay limits.recent) visits).reverse.map Visit.toJson))])

omit [Level R] [Source S] in
theorem overview_eq {m : MemoryStore} {visits : List Visit} {chart : Chart}
    (hstore : st.store = .memory m) (hreachable : st.reachable = true)
    (hclock : st.now.isReadable = true) (h : m.stats.Reflects limits start visits)
    (hchart : Chart.of (.memory m) .waiting site.topItems site.maxLabelLength = .ok chart) :
    overview site st = overviewOf site limits start st.now visits chart := by
  have hsummary : st.summary? = some m.stats.summary := by
    simp only [State.summary?, State.ask?, hclock, hreachable, hstore, if_true]
    rfl
  have hrecent : (st.ask? fun store => store.recent .waiting site.recentDisplay) =
      some (m.stats.recentVisits site.recentDisplay) := by
    simp only [State.ask?, hreachable, hstore, if_true]
    rfl
  have hcharted : (st.ask? fun store =>
      Chart.of store .waiting site.topItems site.maxLabelLength) = some chart := by
    simp only [State.ask?, hreachable, hstore, hchart, if_true]
  rw [overview, hsummary, hrecent, hcharted, h.summary, h.recentVisits]
  rfl

omit [Level R] [Source S] in
theorem charts_eq {m : MemoryStore} {chart : Chart} (hstore : st.store = .memory m)
    (hreachable : st.reachable = true)
    (hchart : Chart.of (.memory m) .waiting site.topItems site.maxLabelLength = .ok chart) :
    charts site st = .json chart.toJson := by
  simp only [charts, State.ask?, hreachable, hstore, hchart, if_true]

/-- The path of the charts below an operator's path. -/
def chartsPath (base : String) : String :=
  String.ofList (Route.mount base.toList ++ "data".toList)

/-- What a request to read the operator's pages gets of some visits; it changes nothing. -/
structure ShowsVisits (site : Site) (limits : Limits) (start : Timestamp) (visits : List Visit)
    (chart : Chart) (st : State R S) (r : Request) : Prop where
  overview : r.uri.path = site.credentials.path → st.now.isReadable = true →
    handle site st r =
      ((overviewOf site limits start st.now visits chart).withHeaders hardening, st)
  charts : r.uri.path = chartsPath site.credentials.path →
    handle site st r = ((Response.json chart.toJson).withHeaders hardening, st)

/--
After any requests to a server that holds its statistics in memory, the operator is shown the pages
that were served at times that the clock could tell: how many there were, to which clients and user
agents they went, and the latest of them.  The numbers are words (`Number.wrapped_of_lt`).
-/
theorem operator_shown_counted (site : Site) {store : MemoryStore}
    (hstore : st.store = .memory store) (hfresh : store.stats = .empty store.limits start)
    (hreachable : st.reachable = true) {run : List Occurrence}
    (hrun : ∀ up, Occurrence.reach up ∉ run) :
    ∃ chart : Chart,
      chart.Shows store.limits site.topItems site.maxLabelLength (st.counted site run) ∧
      ∀ r : Request, r.method = "GET" → site.credentials.authorize r.headers r.uri = true →
        exceedsLimit site r = false →
          ShowsVisits site store.limits start (st.counted site run) chart
            (st.afterAll site run) r := by
  have hmemory : st.InMemory store.limits start :=
    ⟨hreachable, store, hstore, rfl, congrArg MemoryStats.startTime hfresh⟩
  have hrecorded : st.store.Recorded [] := by
    rw [hstore]
    show store.stats = .recordAll store.limits [] (.empty store.limits store.stats.startTime)
    rw [hfresh]
    rfl
  have hreached := (hmemory.afterAll site hrun).1.reachable
  obtain ⟨m, hend, hreflects⟩ := hmemory.reflects hrecorded site hrun
  obtain ⟨chart, hchart, hshows⟩ := hreflects.chart site.topItems site.maxLabelLength
  refine ⟨chart, hshows, fun r hmethod hauthorize hlimit => ⟨?overview, ?charts⟩⟩
  case overview =>
    intro hpath hclock
    have hroute : Route.of site.credentials.path r.uri.path = .overview :=
      hpath ▸ Route.of_base site.credentials.path
    rw [handle_page hlimit hmethod hauthorize hroute Route.noConfusion Route.noConfusion, behind,
      overview_eq hend hreached hclock hreflects hchart]
  case charts =>
    intro hpath
    have hroute : Route.of site.credentials.path r.uri.path = .charts := by
      rw [hpath, chartsPath, Route.of_mount_append _ (by decide)]
      rfl
    rw [handle_page hlimit hmethod hauthorize hroute Route.noConfusion Route.noConfusion, behind,
      charts_eq hend hreached hchart]

/-- A request for the overview with the token. -/
def survey : Request :=
  { crawl with uri := ⟨"/admin", some "token=token"⟩ }

/-- Two pages are served, a third is refused, and the operator looks on. -/
def surveyedRun : List Occurrence :=
  [.request crawl, .request survey, .request crawl, .request crawl]

theorem authorize_survey : crawledSite.credentials.authorize survey.headers survey.uri = true := by
  have hquery : crawledSite.credentials.accepts (Admin.Credentials.queryToken? survey.uri) = true :=
    crawledSite.credentials.verify_token
  rw [Admin.Credentials.authorize, hquery, Bool.or_true]

theorem operator_shown_surveyedRun :
    (∀ up, Occurrence.reach up ∉ surveyedRun) ∧
    crawledState.counted crawledSite surveyedRun =
      [⟨"192.0.2.9", "a", "/a", ⟨0, 0⟩⟩, ⟨"192.0.2.9", "a", "/a", ⟨0, 0⟩⟩] ∧
    ∃ chart : Chart, chart.topKeys.data.length = 1 ∧
      (handle crawledSite (crawledState.afterAll crawledSite surveyedRun) survey).1.body =
        (overviewOf crawledSite ⟨10, 10, 1⟩ ⟨0, 0⟩ ⟨0, 0⟩
          (crawledState.counted crawledSite surveyedRun) chart).body ∧
      (handle crawledSite (crawledState.afterAll crawledSite surveyedRun) look).1.body =
        chart.toJson.compact := by
  have hrun : ∀ up, Occurrence.reach up ∉ surveyedRun := by
    intro up h
    simp [surveyedRun] at h
  have hcounted : crawledState.counted crawledSite surveyedRun =
      [⟨"192.0.2.9", "a", "/a", ⟨0, 0⟩⟩, ⟨"192.0.2.9", "a", "/a", ⟨0, 0⟩⟩] := by
    decide +kernel
  have hlook : crawledSite.credentials.authorize look.headers look.uri = true := authorize_survey
  have hstore : crawledState.store = .memory (.empty ⟨10, 10, 1⟩ ⟨0, 0⟩) := rfl
  obtain ⟨chart, hshows, hanswers⟩ := operator_shown_counted crawledSite hstore rfl rfl hrun
  have hlength := hshows.keys.length_data
  rw [hcounted] at hlength
  have hnow : (crawledState.afterAll crawledSite surveyedRun).now = ⟨0, 0⟩ := by decide +kernel
  refine ⟨hrun, hcounted, chart, hlength.trans (by decide), ?_, ?_⟩
  · have hclock : (crawledState.afterAll crawledSite surveyedRun).now.isReadable = true := by
      rw [hnow]
      decide
    rw [(hanswers survey rfl authorize_survey (by decide)).overview rfl hclock, hnow]
    rfl
  · rw [(hanswers look rfl hlook (by decide)).charts (by decide)]
    rfl

/-- The same server with a slash at the end of the operator's path. -/
def slashedSite : Site :=
  { crawledSite with credentials := .of "/admin/" "token" false }

def strayed : Request :=
  { survey with uri := ⟨"/admin//data", some "token=token"⟩ }

/-- A page is served while the clock stands before the epoch. -/
def earlyRun : List Occurrence :=
  [.clock (-1000000000) 0, .request crawl, .clock 1000000000 0]

/-- Two pages are served to user agents that differ in blanks only. -/
def paddedRun : List Occurrence :=
  [.request crawl, .request { crawl with headers := [⟨"user-agent", [0x61]⟩] }]

/--
The operator is shown nothing with a body that is announced as too large, or while the clock stands
before the epoch; a page that was served then does not count, user agents that differ in blanks
only are one, and behind a path that ends in a slash another slash leads nowhere.
-/
theorem operator_shown_less :
    (handle crawledSite crawledState
      { survey with headers := [⟨"content-length", Text.Utf8.bytes "1048577"⟩] }).1.status = 413 ∧
    (handle crawledSite (crawledState.moveClocks (-1000000000) 0) survey).1.status = 503 ∧
    (crawledState.history crawledSite earlyRun).countP (Exchange.isServed crawledSite) = 1 ∧
    ((crawledState.afterAll crawledSite earlyRun).store.summary .waiting).map
      Summary.totalRequests = .ok 0 ∧
    (crawledState.history crawledSite paddedRun).map
      (fun x => (x.isServed crawledSite, namedAgent? x.request.headers)) =
        [(true, some " a"), (true, some "a")] ∧
    ((crawledState.afterAll crawledSite paddedRun).store.summary .waiting).map
      Summary.uniqueAgents = .ok 1 ∧
    (handle slashedSite crawledState strayed).1.status = 404 := by
  have hdark :
      (handle crawledSite (crawledState.moveClocks (-1000000000) 0) survey).1.status = 503 := by
    rw [handle_page (by decide) rfl authorize_survey (Route.of_base "/admin") Route.noConfusion
      Route.noConfusion]
    decide +kernel
  have hslashed : (handle slashedSite crawledState strayed).1.status = 404 := by
    have haccepts : slashedSite.credentials.authorize strayed.headers strayed.uri = true :=
      authorize_survey
    have hroute : Route.of slashedSite.credentials.path strayed.uri.path = .unknown := by decide
    rw [handle_page (by decide) rfl haccepts hroute Route.noConfusion Route.noConfusion]
    rfl
  refine ⟨?_, hdark, ?_, ?_, ?_, ?_, hslashed⟩
  · decide +kernel
  · decide +kernel
  · decide +kernel
  · decide +kernel
  · decide +kernel

end Tarpit.Web
