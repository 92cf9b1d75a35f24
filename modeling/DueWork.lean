import DueWork.Actor.Actor
import DueWork.Actor.Cycle
import DueWork.Actor.Metrics
import DueWork.Actor.Outcome
import DueWork.Actor.Report
import DueWork.Config.EnvFile
import DueWork.Config.Partition
import DueWork.Config.Record
import DueWork.Config.Scheduler
import DueWork.Config.Source
import DueWork.Error
import DueWork.Job.Attributes
import DueWork.Job.Instance
import DueWork.Job.Record
import DueWork.Job.State
import DueWork.Json.Node
import DueWork.Json.Printer
import DueWork.Json.Reader
import DueWork.Json.Record
import DueWork.Json.Relaxed
import DueWork.Json.Value
import DueWork.Logging.Filter
import DueWork.Logging.Retention
import DueWork.Logging.Subscriber
import DueWork.Main
import DueWork.Manager.Processors
import DueWork.Manager.Startup
import DueWork.Manager.System
import DueWork.Notification.Channel
import DueWork.Notification.Status
import DueWork.Notification.Url
import DueWork.Notification.Webhook
import DueWork.Number.Double
import DueWork.Number.Numeral
import DueWork.Number.Shortest
import DueWork.Partition.Key
import DueWork.Partition.Predicate
import DueWork.Partition.Record
import DueWork.Pool.WorkerPool
import DueWork.Proofs.Actor.Attempts
import DueWork.Proofs.Actor.Books
import DueWork.Proofs.Actor.Crew
import DueWork.Proofs.Actor.Cycle
import DueWork.Proofs.Actor.Drain
import DueWork.Proofs.Actor.DrainBound
import DueWork.Proofs.Actor.DueOrder
import DueWork.Proofs.Actor.Edge
import DueWork.Proofs.Actor.FailureEvents
import DueWork.Proofs.Actor.Fleet
import DueWork.Proofs.Actor.Handover
import DueWork.Proofs.Actor.LocalFailures
import DueWork.Proofs.Actor.Passage
import DueWork.Proofs.Actor.RetryBudget
import DueWork.Proofs.Actor.RetryCourse
import DueWork.Proofs.Actor.Samples
import DueWork.Proofs.Actor.SortedPass
import DueWork.Proofs.Actor.Stopping
import DueWork.Proofs.Actor.StoreFailures
import DueWork.Proofs.Actor.Suspension
import DueWork.Proofs.Backoffs
import DueWork.Proofs.Config.Accepted
import DueWork.Proofs.Config.Arithmetic
import DueWork.Proofs.Job.Attributes
import DueWork.Proofs.Json.Leaves
import DueWork.Proofs.Json.Nesting
import DueWork.Proofs.Json.RoundTrip
import DueWork.Proofs.Lookup
import DueWork.Proofs.Manager.Actors
import DueWork.Proofs.Manager.Claims
import DueWork.Proofs.Manager.Enrolment
import DueWork.Proofs.Manager.FanOut
import DueWork.Proofs.Manager.Firing
import DueWork.Proofs.Manager.Posts
import DueWork.Proofs.Manager.LateRegistration
import DueWork.Proofs.Manager.Ledger
import DueWork.Proofs.Manager.Registration
import DueWork.Proofs.Manager.Run
import DueWork.Proofs.Manager.Signals
import DueWork.Proofs.Manager.SingleFlight
import DueWork.Proofs.Manager.Slots
import DueWork.Proofs.Manager.Start
import DueWork.Proofs.Manager.Step
import DueWork.Proofs.Manager.Tasks
import DueWork.Proofs.Manager.Wakes
import DueWork.Proofs.Partition.Clauses
import DueWork.Proofs.Partition.Derivation
import DueWork.Proofs.Partition.Disjoint
import DueWork.Proofs.Partition.Grammar
import DueWork.Proofs.Partition.Overlap
import DueWork.Proofs.Pool.Life
import DueWork.Proofs.Pool.WorkerPool
import DueWork.Proofs.Schedule.Dispatcher
import DueWork.Proofs.Schedule.Heap
import DueWork.Proofs.Schedule.Loop
import DueWork.Proofs.Schedule.Setbacks
import DueWork.Proofs.Schedule.WakeMap
import DueWork.Proofs.Schedule.WakeQueue
import DueWork.Proofs.Store.Agreement
import DueWork.Proofs.Store.ById
import DueWork.Proofs.Store.Custody
import DueWork.Proofs.Store.Entry
import DueWork.Proofs.Store.Lawful
import DueWork.Proofs.Store.Lifecycle
import DueWork.Proofs.Store.Lives
import DueWork.Proofs.Store.Memory
import DueWork.Proofs.Store.Queries
import DueWork.Proofs.Store.ReadBack
import DueWork.Proofs.Store.Ready
import DueWork.Proofs.Store.Recorded
import DueWork.Proofs.Store.Recovery
import DueWork.Proofs.Store.Refinement
import DueWork.Proofs.Store.Standing
import DueWork.Proofs.Store.Statements
import DueWork.Proofs.Store.Written
import DueWork.Proofs.Text.Blank
import DueWork.Proofs.Text.Identifier
import DueWork.Proofs.Time.Backoff
import DueWork.Proofs.Time.Delays
import DueWork.Proofs.Time.DueTimes
import DueWork.Proofs.Time.Millis
import DueWork.Retry.Policy
import DueWork.Retry.Record
import DueWork.Schedule.Dispatcher
import DueWork.Schedule.Heap
import DueWork.Schedule.WakeQueue
import DueWork.Service
import DueWork.Signal.Broadcast
import DueWork.Signal.Event
import DueWork.Signal.Listener
import DueWork.Simulation.PoolRun
import DueWork.Simulation.Record
import DueWork.Simulation.Run
import DueWork.Simulation.Script
import DueWork.Simulation.ScriptedStore
import DueWork.Store.Busy
import DueWork.Store.Call
import DueWork.Store.Contract
import DueWork.Store.Database
import DueWork.Store.Memory
import DueWork.Store.StoredJob
import DueWork.Store.Table
import DueWork.Text.Blank
import DueWork.Text.Identifier
import DueWork.Text.Printable
import DueWork.Text.Quoted
import DueWork.Time.Calendar
import DueWork.Time.Duration
import DueWork.Time.Instant
import DueWork.Time.Rfc3339
