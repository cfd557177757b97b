import AppPilotKit.Lib.Bytes
import AppPilotKit.Lib.Cbor
import AppPilotKit.Lib.Runs
import AppPilotKit.Lib.Table
import AppPilotKit.Transport.Basic
import AppPilotKit.Transport.Outer
import AppPilotKit.Transport.Record
import AppPilotKit.Transport.Noise
import AppPilotKit.Transport.NonceNoise
import AppPilotKit.Transport.Session
import AppPilotKit.Transport.Calls
import AppPilotKit.Transport.Failure
import AppPilotKit.Transport.Budget
import AppPilotKit.Transport.BudgetRuns
import AppPilotKit.Transport.Endpoint
import AppPilotKit.Transport.Refinement
import AppPilotKit.Transport.Delivery
import AppPilotKit.Transport.Lease
import AppPilotKit.Target.Descriptor
import AppPilotKit.Target.Supervisor
import AppPilotKit.Target.Drive
import AppPilotKit.Target.Clockwork
import AppPilotKit.Target.Children
import AppPilotKit.Target.Registry
import AppPilotKit.Target.Lifetimes
import AppPilotKit.Target.LimitRounds
import AppPilotKit.Target.ChildContract
import AppPilotKit.Host.Desk
import AppPilotKit.Host.Kotlin
import AppPilotKit.Host.Swift
import AppPilotKit.Host.KotlinRuns
import AppPilotKit.Host.SwiftRuns
import AppPilotKit.Host.Finished
import AppPilotKit.Lib.Patterns
import AppPilotKit.Snapshot.Capture
import AppPilotKit.Lib.Weighted
import AppPilotKit.Snapshot.Store
import AppPilotKit.Snapshot.Runtime
import AppPilotKit.Snapshot.Runs
import AppPilotKit.Snapshot.Retention
import AppPilotKit.Lib.Binary64
import AppPilotKit.Lib.Json
import AppPilotKit.Semantic.Value
import AppPilotKit.Lib.Checks
import AppPilotKit.Semantic.Schema
import AppPilotKit.Semantic.SchemaAgreement
import AppPilotKit.Lib.JsonText
import AppPilotKit.Semantic.Canonical
import AppPilotKit.Lib.Sorting
import AppPilotKit.Semantic.CanonicalAgreement
import AppPilotKit.Semantic.Disclosure
import AppPilotKit.Target.Ageing
import AppPilotKit.Target.LeaseTimers
import AppPilotKit.Target.Timers
import AppPilotKit.Target.Deadlines
import AppPilotKit.Target.Rejection
import AppPilotKit.Target.Ticks
import AppPilotKit.Ffi.Entry
import AppPilotKit.Ffi.Arbitration
import AppPilotKit.Ffi.Publishing
import AppPilotKit.Ffi.Requests
import AppPilotKit.Transport.Absorbing
import AppPilotKit.Transport.LeaseActs
import AppPilotKit.Transport.Heartbeats
import AppPilotKit.Lib.Dict
import AppPilotKit.Lib.Programs
import AppPilotKit.Broker.Basic
import AppPilotKit.Broker.Core
import AppPilotKit.Broker.Calls
import AppPilotKit.Broker.Sections
import AppPilotKit.Broker.Interleaving
import AppPilotKit.Broker.OwnedOp
import AppPilotKit.Semantic.Builder
import AppPilotKit.Target.Conclusion
import AppPilotKit.Target.Announcing
import AppPilotKit.Target.Announced
import AppPilotKit.Target.Writes
import AppPilotKit.Target.OneWrite
import AppPilotKit.Transport.Framing
import AppPilotKit.Target.Lines
import AppPilotKit.Target.FrameTimers
import AppPilotKit.Raw.Reader
import AppPilotKit.Raw.FrameDeadlines
import AppPilotKit.Raw.Launch
import AppPilotKit.Lib.Threads
import AppPilotKit.Lib.Keyed
import AppPilotKit.Transport.BrokerLease
import AppPilotKit.Lib.JsonSchema
import AppPilotKit.Semantic.AndroidValidation
import AppPilotKit.Semantic.IosValidation
import AppPilotKit.Lib.Numeral
import AppPilotKit.Semantic.Binding
import AppPilotKit.Lib.Shortening
import AppPilotKit.Semantic.Listing
import AppPilotKit.Semantic.ListProgress
import AppPilotKit.Semantic.ListCursors
import AppPilotKit.Lib.Scripts
import AppPilotKit.Lib.Pools
import AppPilotKit.Adapter.Common
import AppPilotKit.Adapter.Android
import AppPilotKit.Adapter.AndroidDevice
import AppPilotKit.Adapter.AndroidLaunch
import AppPilotKit.Adapter.Ledger
import AppPilotKit.Adapter.AppleTools
import AppPilotKit.Adapter.Apple
import AppPilotKit.Adapter.AppleHistory
import AppPilotKit.Adapter.AppleGuards
import AppPilotKit.Adapter.AppleDevice
import AppPilotKit.Adapter.AppleLaunch
import AppPilotKit.Adapter.AppleFailures
import AppPilotKit.Adapter.AppleOwned
import AppPilotKit.Adapter.ApplePool
import AppPilotKit.Transport.Framed
import AppPilotKit.Transport.Assembly
import AppPilotKit.Transport.Fragments
import AppPilotKit.Transport.Payloads
import AppPilotKit.Ffi.Registry
import AppPilotKit.Host.ReadPump
import AppPilotKit.Lib.Preorder
import AppPilotKit.Lib.Scan
import AppPilotKit.Snapshot.Trees
import AppPilotKit.Snapshot.References
import AppPilotKit.Raw.Exchange
import AppPilotKit.Raw.Handoff
import AppPilotKit.Lib.CborTokens
import AppPilotKit.Lib.Utf8
import AppPilotKit.Control.Packets
import AppPilotKit.Control.Encoding
import AppPilotKit.Control.Items
import AppPilotKit.Control.Fields
import AppPilotKit.Control.Incremental
import AppPilotKit.Control.RoundTrip
import AppPilotKit.Control.LegalRequests
import AppPilotKit.Control.Results
import AppPilotKit.Control.LegalResults
import AppPilotKit.Ffi.Owned
import AppPilotKit.Raw.Progress
import AppPilotKit.Control.Bounded
import AppPilotKit.Snapshot.UIKit
import AppPilotKit.Semantic.JsNumbers
import AppPilotKit.Cli.DuplicateKeys
import AppPilotKit.Adapter.ArtifactIdentity
import AppPilotKit.Adapter.ApkBounds
import AppPilotKit.Adapter.ApkTree
import AppPilotKit.Host.KotlinClose
import AppPilotKit.Adapter.AppleAnswers
