import Tarpit.Text.Blank
import Tarpit.Text.Lines
import Tarpit.Text.Utf8
import Tarpit.Text.Markup
import Tarpit.Text.Quoted
import Tarpit.Number.Double
import Tarpit.Time.Rfc3339
import Tarpit.Time.Ticker
import Tarpit.Json.Builder
import Tarpit.Json.Printer
import Tarpit.Net.Uri
import Tarpit.Net.ClientKey
import Tarpit.Traffic.MemoryStats
import Tarpit.Traffic.Failure
import Tarpit.Traffic.Volume
import Tarpit.Traffic.Chart
import Tarpit.Traffic.Session
import Tarpit.Rate.Exact
import Tarpit.Rate.Sweeper
import Tarpit.Page.Generator
import Tarpit.Page.Wordlist
import Tarpit.Admin.Credentials
import Tarpit.Config
import Tarpit.Metrics
import Tarpit.Web.Server
import Tarpit.Proofs.Database.Balance
import Tarpit.Proofs.History.Carried
import Tarpit.Proofs.Rate.Admission
import Tarpit.Proofs.Rate.Isolation
import Tarpit.Proofs.Web.Accounting
import Tarpit.Proofs.History.Restarts
import Tarpit.Proofs.Store.Agreement
import Tarpit.Proofs.Database.Atomicity
import Tarpit.Proofs.Import.Appended
import Tarpit.Proofs.Web.Operator
import Tarpit.Proofs.Import.Replay
import Tarpit.Proofs.Store.Calls
import Tarpit.Proofs.Web.Overview
import Tarpit.Proofs.Time.Read
import Tarpit.Proofs.Snapshot.Decoded
import Tarpit.Proofs.Snapshot.Reload
import Tarpit.Proofs.Rate.Denial
import Tarpit.Proofs.Rate.Recovery
import Tarpit.Proofs.Import.Abandoned
import Tarpit.Proofs.Rate.Unswept
import Tarpit.Proofs.Rate.Ceiling
import Tarpit.Proofs.Rate.Background
import Tarpit.Proofs.Database.Dates
import Tarpit.Proofs.Database.Recent
import Tarpit.Proofs.Web.Arrivals
import Tarpit.Proofs.Net.KnownAs
import Tarpit.Proofs.Snapshot.Filled
import Tarpit.Proofs.Tally.Standing
import Tarpit.Proofs.Web.Session
import Tarpit.Proofs.Snapshot.Presentation
import Tarpit.Proofs.Web.Authorization
import Tarpit.Proofs.History.Untouched
import Tarpit.Proofs.Page.Layout
import Tarpit.Proofs.Chart.Labels
import Tarpit.Proofs.Page.Listing
import Tarpit.Proofs.Text.Strict
import Tarpit.Proofs.Number.Normal
import Tarpit.Proofs.Rate.Opening
import Tarpit.Proofs.Config.Settings
