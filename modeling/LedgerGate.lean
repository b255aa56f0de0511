import LedgerGate.Bag
import LedgerGate.Brand
import LedgerGate.Config.Basic
import LedgerGate.Config.Format
import LedgerGate.Crypto.Ed25519
import LedgerGate.Crypto.Key
import LedgerGate.Crypto.Secrets
import LedgerGate.Crypto.Sha512
import LedgerGate.Daemon.Host
import LedgerGate.Daemon.Invocation
import LedgerGate.Daemon.Service
import LedgerGate.Daemon.World
import LedgerGate.Delegate.Basic
import LedgerGate.Delegate.Standard
import LedgerGate.Delivery
import LedgerGate.Desk
import LedgerGate.Diagnostics.Failure
import LedgerGate.Diagnostics.State
import LedgerGate.Dialogue
import LedgerGate.Double
import LedgerGate.Entries
import LedgerGate.Escrow.Bootstrap
import LedgerGate.Escrow.Fleet
import LedgerGate.Escrow.Lease
import LedgerGate.Escrow.Record
import LedgerGate.Fault
import LedgerGate.Gateway.Basic
import LedgerGate.Gateway.Build
import LedgerGate.Gateway.Escrows
import LedgerGate.Gateway.Receipts
import LedgerGate.Gateway.Requests
import LedgerGate.Gateway.Run
import LedgerGate.Json.Access
import LedgerGate.Json.Basic
import LedgerGate.Json.Number
import LedgerGate.Json.Reader
import LedgerGate.Json.Record
import LedgerGate.Ledger.BlockSearch
import LedgerGate.Ledger.Chain
import LedgerGate.Ledger.Confirmation
import LedgerGate.Ledger.Error
import LedgerGate.Ledger.Query
import LedgerGate.Ledger.RecentBlock
import LedgerGate.Ledger.Rehearsal
import LedgerGate.Ledger.Revert
import LedgerGate.Main
import LedgerGate.Message.Envelope
import LedgerGate.Message.Input
import LedgerGate.Message.Output
import LedgerGate.Metrics
import LedgerGate.Outside
import LedgerGate.Proofs.Delegate.Decided
import LedgerGate.Proofs.Entries.Keys
import LedgerGate.Proofs.Escrow.Claim
import LedgerGate.Proofs.Escrow.Contest
import LedgerGate.Proofs.Escrow.Process
import LedgerGate.Proofs.Escrow.Record
import LedgerGate.Proofs.Escrow.Restart
import LedgerGate.Proofs.Escrow.Rollback
import LedgerGate.Proofs.Escrow.Stranded
import LedgerGate.Proofs.Gateway.Company
import LedgerGate.Proofs.Gateway.Deliveries
import LedgerGate.Proofs.Gateway.Escrows
import LedgerGate.Proofs.Gateway.Seats
import LedgerGate.Proofs.Gateway.Stop
import LedgerGate.Proofs.Gateway.Trackers
import LedgerGate.Proofs.Ledger.BlockSearch
import LedgerGate.Proofs.Receipt.Dispatch
import LedgerGate.Proofs.Receipt.History
import LedgerGate.Proofs.Receipt.Holding
import LedgerGate.Proofs.Receipt.Keeping
import LedgerGate.Proofs.Receipt.Memory
import LedgerGate.Proofs.Receipt.Outcome
import LedgerGate.Proofs.Store.Contract
import LedgerGate.Proofs.Text.Hex
import LedgerGate.Proofs.Transport.Serving
import LedgerGate.Receipt.Recent
import LedgerGate.Receipt.Tracker
import LedgerGate.Reply
import LedgerGate.Routing.Assignments
import LedgerGate.Routing.Ledgers
import LedgerGate.Routing.Plan
import LedgerGate.Routing.Principal
import LedgerGate.Rpc.Client
import LedgerGate.Rpc.Quantity
import LedgerGate.Rpc.Settings
import LedgerGate.Rpc.Wire
import LedgerGate.Script.Failure
import LedgerGate.Script.Reply
import LedgerGate.Script.Setting
import LedgerGate.Script.Step
import LedgerGate.Shutdown
import LedgerGate.Stage
import LedgerGate.Store.Directory
import LedgerGate.Store.Durable
import LedgerGate.Store.Error
import LedgerGate.Store.Format
import LedgerGate.Store.Memory
import LedgerGate.Store.Query
import LedgerGate.Store.Records
import LedgerGate.Text.Blank
import LedgerGate.Text.Duration
import LedgerGate.Text.Hex
import LedgerGate.Text.Integer
import LedgerGate.Time
import LedgerGate.Timers
import LedgerGate.Toml.Moment
import LedgerGate.Toml.Printer
import LedgerGate.Toml.Reader
import LedgerGate.Toml.Scalar
import LedgerGate.Toml.Value
import LedgerGate.Transport
import LedgerGate.Work
import LedgerGate.Workers
import LedgerGate.Proofs.Gateway.Gauges
import LedgerGate.Proofs.Delegate.Submission
import LedgerGate.Proofs.Receipt.Award
import LedgerGate.Proofs.Gateway.Floor
import LedgerGate.Proofs.Gateway.Keeping
import LedgerGate.Proofs.Gateway.Awaiting
import LedgerGate.Proofs.Gateway.Bookkeeping
import LedgerGate.Proofs.Gateway.TwoPhase
import LedgerGate.Proofs.Gateway.Routine
import LedgerGate.Proofs.Gateway.Accounts
import LedgerGate.Proofs.Receipt.Attendance
import LedgerGate.Proofs.Delivery.Telling
import LedgerGate.Proofs.Gateway.Authority
import LedgerGate.Proofs.Shutdown.Signal
import LedgerGate.Proofs.Gateway.Rhythm
import LedgerGate.Proofs.Gateway.Silence
import LedgerGate.Proofs.Escrow.Career
import LedgerGate.Proofs.Json.Integers
import LedgerGate.Proofs.Json.Numbers
import LedgerGate.Proofs.Json.Cutting
import LedgerGate.Proofs.Json.Documents
import LedgerGate.Proofs.Json.Doubles
import LedgerGate.Proofs.Json.Writing
import LedgerGate.Proofs.Json.Plain
import LedgerGate.Proofs.Json.RoundTrip
import LedgerGate.Proofs.Bag.Kinds
import LedgerGate.Proofs.Json.Records
import LedgerGate.Proofs.Message.Responses
import LedgerGate.Proofs.Receipt.Contents
import LedgerGate.Proofs.Delegate.Provenance
import LedgerGate.Proofs.Gateway.Custody
import LedgerGate.Proofs.Gateway.Mirror
import LedgerGate.Proofs.Gateway.Provenance
import LedgerGate.Proofs.Store.Agreement
import LedgerGate.Proofs.Ledger.Bracket
import LedgerGate.Proofs.Receipt.Order
import LedgerGate.Proofs.Delivery.Replies
import LedgerGate.Proofs.Transport.Framing
import LedgerGate.Proofs.Transport.Pipeline
import LedgerGate.Proofs.Delegate.Made
import LedgerGate.Proofs.Gateway.Docket
import LedgerGate.Proofs.Transport.Answering
import LedgerGate.Proofs.Text.Spelling
import LedgerGate.Proofs.Ledger.Revert
import LedgerGate.Proofs.Routing.Decision
import LedgerGate.Proofs.Message.Faults
import LedgerGate.Proofs.Delivery.Agreement
import LedgerGate.Proofs.Gateway.Commitment
import LedgerGate.Proofs.Text.Numeral
import LedgerGate.Proofs.Ledger.Panics
import LedgerGate.Proofs.Rpc.Quantities
import LedgerGate.Proofs.Bag.Places
import LedgerGate.Proofs.Bag.Survival
import LedgerGate.Proofs.Bag.Integers
import LedgerGate.Proofs.Text.Blanks
import LedgerGate.Proofs.Escrow.Reading
import LedgerGate.Proofs.Escrow.Leases
import LedgerGate.Proofs.Ledger.Reports
import LedgerGate.Proofs.Gateway.Building
import LedgerGate.Proofs.Gateway.Assembly
import LedgerGate.Proofs.Routing.Matching
import LedgerGate.Proofs.Receipt.Eviction
