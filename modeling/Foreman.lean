import Foreman.Assessment
import Foreman.Binary64.Basic
import Foreman.Binary64.Decimal
import Foreman.ChangeSet
import Foreman.Delegation.Delegator
import Foreman.Delegation.Task
import Foreman.Digest.Sha256
import Foreman.Duration
import Foreman.Failure
import Foreman.Finding.Basic
import Foreman.Finding.Ledger
import Foreman.Finding.Severity
import Foreman.Guard.Breaker
import Foreman.Guard.Bulkhead
import Foreman.Guard.Crowd
import Foreman.Guard.Limiter
import Foreman.Guard.Retry
import Foreman.Guard.Slots
import Foreman.Guard.Stack
import Foreman.Ident
import Foreman.Json.Canonical
import Foreman.Json.Fields
import Foreman.Json.Node
import Foreman.Json.Number
import Foreman.Json.Value
import Foreman.LogFilter
import Foreman.Loop.Basic
import Foreman.Loop.Review
import Foreman.Loop.Work
import Foreman.Machine.Basic
import Foreman.Machine.Children
import Foreman.Machine.Definition
import Foreman.Machine.Station
import Foreman.Machine.Surroundings
import Foreman.Names
import Foreman.Proofs.Assessment
import Foreman.Proofs.Assessment.RollUp
import Foreman.Proofs.Assessment.Threshold
import Foreman.Proofs.Binary64
import Foreman.Proofs.Breaker
import Foreman.Proofs.Breaker.Count
import Foreman.Proofs.Breaker.History
import Foreman.Proofs.Breaker.Stale
import Foreman.Proofs.Delegation.Accounts
import Foreman.Proofs.Delegation.InFlight
import Foreman.Proofs.Delegation.Life
import Foreman.Proofs.Guard.Backoff
import Foreman.Proofs.Guard.Bucket
import Foreman.Proofs.Guard.Call
import Foreman.Proofs.Guard.Clock
import Foreman.Proofs.Guard.Isolation
import Foreman.Proofs.Guard.Rest
import Foreman.Proofs.Guard.Safety
import Foreman.Proofs.Keyed
import Foreman.Proofs.Ledger.Batch
import Foreman.Proofs.Ledger.Index
import Foreman.Proofs.Ledger.Offer
import Foreman.Proofs.Ledger.Order
import Foreman.Proofs.Ledger.Replay
import Foreman.Proofs.Ledger.Retained
import Foreman.Proofs.Ledger.Risk
import Foreman.Proofs.Ledger.Scope
import Foreman.Proofs.Ledger.Standing
import Foreman.Proofs.Ledger.Succession
import Foreman.Proofs.Ledger.Vetted
import Foreman.Proofs.Loop.Agreement
import Foreman.Proofs.Loop.AtMostOnce
import Foreman.Proofs.Loop.Boundary
import Foreman.Proofs.Loop.CallBudget
import Foreman.Proofs.Loop.Dependencies
import Foreman.Proofs.Loop.Drive
import Foreman.Proofs.Loop.FindingIds
import Foreman.Proofs.Loop.FollowUps
import Foreman.Proofs.Loop.Frame
import Foreman.Proofs.Loop.Harvest
import Foreman.Proofs.Loop.Links
import Foreman.Proofs.Loop.Listing
import Foreman.Proofs.Loop.Reported
import Foreman.Proofs.Loop.ReviewLinks
import Foreman.Proofs.Loop.ReviewRounds
import Foreman.Proofs.Loop.ReviewSteps
import Foreman.Proofs.Loop.Rounds
import Foreman.Proofs.Loop.Settle
import Foreman.Proofs.Loop.Stagnation
import Foreman.Proofs.Loop.StopGate
import Foreman.Proofs.Loop.Verdict
import Foreman.Proofs.Loop.WorkLinks
import Foreman.Proofs.Loop.WorkSteps
import Foreman.Proofs.Machine.Audit
import Foreman.Proofs.Machine.Children
import Foreman.Proofs.Machine.Draft
import Foreman.Proofs.Machine.Moves
import Foreman.Proofs.Machine.Restart
import Foreman.Proofs.Machine.Resume
import Foreman.Proofs.Machine.Trail
import Foreman.Proofs.Routing
import Foreman.Proofs.Settings.Ranges
import Foreman.Proofs.Sorting
import Foreman.Proofs.Todo.Completion
import Foreman.Proofs.Todo.Conjunctions
import Foreman.Proofs.Todo.Cuts
import Foreman.Proofs.Todo.Dependencies
import Foreman.Proofs.Todo.FindingIds
import Foreman.Proofs.Todo.ListItems
import Foreman.Proofs.Todo.Operations
import Foreman.Proofs.Todo.Plans
import Foreman.Proofs.Todo.Readiness
import Foreman.Proofs.Todo.Repointing
import Foreman.Proofs.Todo.Status
import Foreman.Record.Assessment
import Foreman.Record.Failure
import Foreman.Record.Finding
import Foreman.Record.Loop
import Foreman.Record.Machine
import Foreman.Record.Task
import Foreman.Record.Todo
import Foreman.Routing
import Foreman.Settings.Basic
import Foreman.Settings.Read
import Foreman.Simulation.Basic
import Foreman.Simulation.Behaviour
import Foreman.Simulation.Callers
import Foreman.Simulation.Crew
import Foreman.Simulation.Rehearsal
import Foreman.Simulation.Script
import Foreman.Simulation.Staff
import Foreman.Text.Blank
import Foreman.Text.Case
import Foreman.Text.CaseTable
import Foreman.Text.Letter
import Foreman.Text.Search
import Foreman.Timestamp
import Foreman.Todo.Basic
import Foreman.Todo.List
import Foreman.Todo.Plan
import Foreman.Toml.Reader
import Foreman.Toml.Scalar
import Foreman.Toml.Tree
