import Katherine.Lib.Text
import Katherine.Lib.Json
import Katherine.Lib.JsonRoundTrip
import Katherine.Lib.JsonSize
import Katherine.Lib.JsonObject
import Katherine.Lib.IsoTime
import Katherine.Lib.IsoOrder
import Katherine.Lib.Number
import Katherine.Lib.FloatOfInt
import Katherine.Lib.Table
import Katherine.Lib.Jsonb
import Katherine.Lib.Transact
import Katherine.Lib.Runs
import Katherine.Lib.Window
import Katherine.Lib.Mutex
import Katherine.Lib.Hex
import Katherine.Lib.IpAddress
import Katherine.Lib.Percent
import Katherine.Lib.Utf8
import Katherine.Lib.Scale
import Katherine.Lib.Nesting
import Katherine.Lib.Ledger
import Katherine.Lib.Best
import Katherine.Domain
import Katherine.Local.Contracts
import Katherine.Local.Schema
import Katherine.Local.Storage
import Katherine.Local.LegacyImport
import Katherine.Local.Calls
import Katherine.Local.Invariant
import Katherine.Local.Revision
import Katherine.Local.Atomic
import Katherine.Local.Fence
import Katherine.Local.Replay
import Katherine.Local.Payloads
import Katherine.Local.Refusals
import Katherine.Local.Reimport
import Katherine.Local.Preflight
import Katherine.Local.Outbox
import Katherine.Local.Storable
import Katherine.Local.Statements
import Katherine.Local.Migrations
import Katherine.Local.Opening
import Katherine.Local.Threads
import Katherine.Presentation
import Katherine.Transition
import Katherine.ProviderEnvelope
import Katherine.Context
import Katherine.Envelope
import Katherine.Envelope.Budget
import Katherine.Envelope.Layout
import Katherine.Envelope.Greedy
import Katherine.Envelope.Report
import Katherine.Envelope.Chronology
import Katherine.Envelope.Fit
import Katherine.Envelope.FitTruncated
import Katherine.Envelope.Truncate
import Katherine.Runtime.Turns
import Katherine.Runtime.Updates
import Katherine.Runtime.Answers
import Katherine.Runtime.Snapshots
import Katherine.Runtime.Limits
import Katherine.Runtime.Context
import Katherine.Runtime.Imported
import Katherine.Runtime.Send
import Katherine.Runtime.Memories
import Katherine.Runtime.Retention
import Katherine.Runtime.Lifecycle
import Katherine.Cloud.Schema
import Katherine.Cloud.Contracts
import Katherine.Cloud.Commit
import Katherine.Cloud.Privacy
import Katherine.Cloud.Admission
import Katherine.Cloud.Deletion
import Katherine.Cloud.Calls
import Katherine.Cloud.Atomic
import Katherine.Cloud.Replay
import Katherine.Cloud.Fence
import Katherine.Cloud.Moves
import Katherine.Cloud.Jobs
import Katherine.Cloud.Worker
import Katherine.Cloud.Batch
import Katherine.Cloud.Quota
import Katherine.Cloud.Frontier
import Katherine.Cloud.Service
import Katherine.Cloud.Erasure
import Katherine.Cloud.Attempts
import Katherine.Cloud.Clock
import Katherine.Cloud.ProcessTurn
import Katherine.Cloud.Chat
import Katherine.Cloud.BlockingWrite
import Katherine.Cloud.NetworkIdentity
import Katherine.Cloud.Identifiers
import Katherine.Cloud.Retention
import Katherine.Cloud.UserLocks
import Katherine.Cloud.Archival
import Katherine.Cloud.ArchivalFacts
import Katherine.Cloud.Readiness
import Katherine.Cloud.ReplyReading
import Katherine.Cloud.TurnReading
import Katherine.Desktop.ChatScreen
import Katherine.Desktop.Navigation
import Katherine.Desktop.LocalPages
import Katherine.Desktop.Geometry
import Katherine.Desktop.Presence
import Katherine.Desktop.Reconcile
import Katherine.Desktop.FaceState
import Katherine.Desktop.FaceClock
import Katherine.Desktop.Bridge
import Katherine.Desktop.Conversation
import Katherine.Desktop.Grounded
import Katherine.Provider.KeyPool
import Katherine.Provider.Discipline
import Katherine.Provider.Completion
import Katherine.Provider.RetryPolicy
import Katherine.Emotion.AppraisalParser
import Katherine.Emotion.AppraisalGrammar
import Katherine.Emotion.Transition
import Katherine.Emotion.Influence
import Katherine.Emotion.PublicState
import Katherine.Emotion.Relationship
import Katherine.Emotion.Migration
