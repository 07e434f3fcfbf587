import PostCall.Library.Table
import PostCall.Library.Related
import PostCall.Library.Position
import PostCall.Library.Run
import PostCall.Library.Select
import PostCall.Library.Separated
import PostCall.Library.Program
import PostCall.Library.Coupled
import PostCall.Library.Waiting
import PostCall.Library.Overwrite
import PostCall.Library.Occurrence
import PostCall.Library.Registers
import PostCall.Library.Lapse
import PostCall.Library.Serial
import PostCall.Library.Process
import PostCall.Python.Number
import PostCall.Python.Json
import PostCall.Python.Uuid
import PostCall.Python.Hmac
import PostCall.Model.Config
import PostCall.Model.Workflow
import PostCall.Model.Jobs
import PostCall.Model.Budget
import PostCall.Model.Database
import PostCall.Model.Interactions
import PostCall.Model.Retry
import PostCall.Model.Classifier
import PostCall.Model.Orchestrator
import PostCall.Model.LlmWorker
import PostCall.Model.RecordingWorker
import PostCall.Model.ResultWorker
import PostCall.Model.Entry
import PostCall.Model.Pii
import PostCall.Model.Metrics
import PostCall.Model.CircuitBreaker
import PostCall.Model.World
import PostCall.Model.Endpoint
import PostCall.Model.Tasks
import PostCall.Model.LlmClient
import PostCall.Machine.Move
import PostCall.Machine.Life
import PostCall.Machine.Transactions
import PostCall.Machine.Frame
import PostCall.Machine.Successors
import PostCall.Machine.Workers
import PostCall.Machine.Simulation
import PostCall.Machine.Executions
import PostCall.Machine.Fence
import PostCall.Machine.Regular
import PostCall.Machine.Keys
import PostCall.Machine.Ledger
import PostCall.Machine.Totals
import PostCall.Machine.Leads
import PostCall.Machine.Roots
import PostCall.Machine.Analyses
import PostCall.Machine.Recordings
import PostCall.Machine.Erasure
import PostCall.Machine.Sessions
import PostCall.Machine.Overlaps
import PostCall.Machine.Locking
import PostCall.Machine.Reports
import PostCall.Machine.Supersession
import PostCall.Machine.Fleet
import PostCall.Machine.Accounts
import PostCall.Machine.Envelope
import PostCall.Machine.Shift
import PostCall.Machine.Webhooks
import PostCall.Machine.Bookings
import PostCall.Machine.Journal
import PostCall.Machine.Findings
import PostCall.Machine.Notes
import PostCall.Machine.Crew
import PostCall.Properties.Terminal
import PostCall.Properties.Shape
import PostCall.Properties.Conservation
import PostCall.Properties.Admission
import PostCall.Properties.Deferrals
import PostCall.Properties.Attempts
import PostCall.Properties.Handoff
import PostCall.Properties.Recoverability
import PostCall.Properties.Retries
import PostCall.Properties.Fencing
import PostCall.Properties.ProviderLimit
import PostCall.Properties.LeadStage
import PostCall.Properties.Batch
import PostCall.Properties.Independence
import PostCall.Properties.Claims
import PostCall.Properties.Uniqueness
import PostCall.Properties.Duplicates
import PostCall.Properties.Replay
import PostCall.Properties.Isolation
import PostCall.Properties.Overflow
import PostCall.Properties.Headroom
import PostCall.Properties.Recoveries
import PostCall.Properties.Lease
import PostCall.Properties.Deadlock
import PostCall.Properties.ErrorLog
import PostCall.Properties.Finality
import PostCall.Properties.Billing
import PostCall.Properties.ChargedWindow
import PostCall.Properties.RowBudget
import PostCall.Properties.Analysed
import PostCall.Properties.Reservation
import PostCall.Properties.Starvation
import PostCall.Properties.Inversion
import PostCall.Properties.Windows
import PostCall.Properties.Redaction
import PostCall.Properties.Keywords
import PostCall.Properties.ShortCalls
import PostCall.Properties.QueueDepth
import PostCall.Properties.Signal
import PostCall.Properties.AuditTrail
import PostCall.Properties.SharedRow
import PostCall.Properties.Reconciliation
import PostCall.Properties.Serialisable
import PostCall.Properties.Endpoint
import PostCall.Properties.Drain
import PostCall.Properties.Tasks
import PostCall.Properties.Metering
import PostCall.Properties.RetryAfter
import PostCall.Properties.HotCache
