import LeaseQueue.CommandLine.Run
import LeaseQueue.Config.Load
import LeaseQueue.Engine.Http
import LeaseQueue.Main
import LeaseQueue.Metrics.Router
import LeaseQueue.Poller.Worker
import LeaseQueue.Proofs.Config.Loading
import LeaseQueue.Proofs.Config.Reading
import LeaseQueue.Proofs.Grouping.Encoding
import LeaseQueue.Proofs.Grouping.Inverse
import LeaseQueue.Proofs.Grouping.Recency
import LeaseQueue.Proofs.Grouping.Resolving
import LeaseQueue.Proofs.Grouping.Sharing
import LeaseQueue.Proofs.Json.Members
import LeaseQueue.Proofs.Json.Objects
import LeaseQueue.Proofs.Poller.BackOff
import LeaseQueue.Proofs.Poller.Drain
import LeaseQueue.Proofs.Poller.Due
import LeaseQueue.Proofs.Poller.Errand
import LeaseQueue.Proofs.Poller.Lockstep
import LeaseQueue.Proofs.Poller.Runs
import LeaseQueue.Proofs.Poller.Shutdown
import LeaseQueue.Proofs.Poller.Turns
import LeaseQueue.Proofs.Poller.Waking
import LeaseQueue.Proofs.Postgres.Conflicts
import LeaseQueue.Proofs.Postgres.Exchanges
import LeaseQueue.Proofs.Postgres.Reports
import LeaseQueue.Proofs.Postgres.Transactions
import LeaseQueue.Proofs.Schema.Interruption
import LeaseQueue.Proofs.Store.Agreement
import LeaseQueue.Proofs.Store.Columns
import LeaseQueue.Proofs.Store.Drift
import LeaseQueue.Proofs.Store.Failures
import LeaseQueue.Proofs.Store.Healing
import LeaseQueue.Proofs.Store.Legible
import LeaseQueue.Proofs.Store.Oldest
import LeaseQueue.Proofs.Store.Readings
import LeaseQueue.Proofs.Store.Refinement
import LeaseQueue.Proofs.Store.Retries
import LeaseQueue.Proofs.Store.Winnings
import LeaseQueue.Proofs.Time.Deadlines
import LeaseQueue.Proofs.Work.Completion
import LeaseQueue.Proofs.Work.Exclusion
import LeaseQueue.Proofs.Work.Race
import LeaseQueue.Proofs.Work.Succession
import LeaseQueue.Proofs.Work.Uploads
import LeaseQueue.Schema.Migration
import LeaseQueue.Store.Backend
import LeaseQueue.Store.Call
import LeaseQueue.Store.Opening
import LeaseQueue.Store.Retry
