import VoiceRoom.Text.Symbol
import VoiceRoom.Text.Blank
import VoiceRoom.Text.Numeral
import VoiceRoom.Number.Binary64
import VoiceRoom.Number.Word
import VoiceRoom.Json.Reader
import VoiceRoom.Json.Writer
import VoiceRoom.Json.Record
import VoiceRoom.Mapping
import VoiceRoom.Mode
import VoiceRoom.JoinRequest
import VoiceRoom.Reply
import VoiceRoom.Error
import VoiceRoom.SessionId
import VoiceRoom.Store.Memory
import VoiceRoom.Event
import VoiceRoom.Metrics
import VoiceRoom.Config
import VoiceRoom.Workflow.Create
import VoiceRoom.Workflow.Join
import VoiceRoom.Http.Service
import VoiceRoom.Store.Shared
import VoiceRoom.Provider.Client
import VoiceRoom.Simulation.Scenario
import VoiceRoom.Proofs.Concurrency.FirstJoins
import VoiceRoom.Proofs.Concurrency.Guarantees
import VoiceRoom.Proofs.Concurrency.Linearizability
import VoiceRoom.Proofs.Concurrency.Newcomers
import VoiceRoom.Proofs.Concurrency.Ownership
import VoiceRoom.Proofs.Concurrency.Recovery
import VoiceRoom.Proofs.Records
import VoiceRoom.Proofs.Rooms.Isolation
import VoiceRoom.Proofs.Store.Refinement
import VoiceRoom.Proofs.Conduct.Candour
import VoiceRoom.Proofs.Conduct.Overtaking
import VoiceRoom.Proofs.Conduct.Provider
import VoiceRoom.Proofs.Twins.Logic
import VoiceRoom.Proofs.Twins.Workflow
import VoiceRoom.Proofs.Twins.Runs
import VoiceRoom.Proofs.Twins.Upgrade
import VoiceRoom.Proofs.Twins.Discretion
import VoiceRoom.Proofs.Store.Clients
import VoiceRoom.Proofs.Store.FailedWrites
import VoiceRoom.Proofs.Http.Deadline
import VoiceRoom.Proofs.Accounting.Totals
import VoiceRoom.Proofs.Reconciliation
import VoiceRoom.Proofs.Concurrency.Rejoin
import VoiceRoom.Proofs.Concurrency.Chronology
import VoiceRoom.Proofs.Conduct.Orphans
import VoiceRoom.Proofs.Concurrency.Orphans
import VoiceRoom.Proofs.Store.Comparison
import VoiceRoom.Proofs.Formats
import VoiceRoom.Proofs.ForeignRecords
import VoiceRoom.Proofs.Configuration
import VoiceRoom.Proofs.Http.Cardinality
import VoiceRoom.Proofs.Conduct.Admission
