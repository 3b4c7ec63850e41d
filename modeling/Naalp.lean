import Naalp.Authorization.ApprovalGates
import Naalp.Authorization.BoundTerms
import Naalp.Authorization.ChargeExpiry
import Naalp.Authorization.DelegationChains
import Naalp.Authorization.Freshness
import Naalp.Authorization.GateAgreement
import Naalp.Authorization.GrantBodies
import Naalp.Authorization.GrantHolders
import Naalp.Authorization.GrantIssuers
import Naalp.Authorization.GrantNarrowing
import Naalp.Authorization.HazardContainment
import Naalp.Authorization.HumanApproval
import Naalp.Authorization.MixedRequests
import Naalp.Authorization.NamedRefusals
import Naalp.Authorization.WalkerAgreement
import Naalp.Bodies.EvidenceKeys
import Naalp.Bodies.FlatBodies
import Naalp.Bodies.Hazards
import Naalp.Bodies.LenientParsers
import Naalp.Bodies.Slots
import Naalp.Bodies.SpelledEvidence
import Naalp.Bodies.ToolCalls
import Naalp.CanonicalEncoding.Decoding
import Naalp.CanonicalEncoding.Encodings
import Naalp.CanonicalEncoding.Heads
import Naalp.CanonicalEncoding.Rejections
import Naalp.CanonicalEncoding.RoundTrip
import Naalp.Consent.ShownChains
import Naalp.ConsumeLedger.AcceptedLogs
import Naalp.ConsumeLedger.Authorities
import Naalp.ConsumeLedger.Faults
import Naalp.ConsumeLedger.Replay
import Naalp.ConsumeLedger.Runs
import Naalp.Envelope.Acceptance
import Naalp.Envelope.BodyMap
import Naalp.Envelope.Fidelity
import Naalp.Envelope.Nesting
import Naalp.Envelope.PinnedIdentities
import Naalp.Envelope.Resigning
import Naalp.Envelope.RotationObjects
import Naalp.Envelope.SignVerify
import Naalp.Flows.Continuations
import Naalp.Foundation.Bytes
import Naalp.Foundation.CausalGraph
import Naalp.Foundation.CheckedLog
import Naalp.Foundation.Checks
import Naalp.Foundation.CycleCheck
import Naalp.Foundation.PrefixReader
import Naalp.Foundation.Grouping
import Naalp.Foundation.HashChain
import Naalp.Foundation.HighWater
import Naalp.Foundation.Intervals
import Naalp.Foundation.Journal
import Naalp.Foundation.KahnAgreement
import Naalp.Foundation.KahnLoop
import Naalp.Foundation.KahnOrder
import Naalp.Foundation.LoggedStore
import Naalp.Foundation.MerkleClimb
import Naalp.Foundation.MerkleTree
import Naalp.Foundation.Methods
import Naalp.Foundation.Multibase
import Naalp.Foundation.Reachability
import Naalp.Foundation.ReadyQueue
import Naalp.Foundation.Runs
import Naalp.Foundation.Sha2
import Naalp.Go.Approval
import Naalp.Go.Cbor
import Naalp.Go.Cose
import Naalp.Native.Delegation
import Naalp.Go.Delivery
import Naalp.Go.Envelope
import Naalp.Native.Federation
import Naalp.Go.Hazard
import Naalp.Native.MerkleProofs
import Naalp.Go.MixedMode
import Naalp.Go.Naming
import Naalp.Go.Negotiation
import Naalp.Go.Payment
import Naalp.Go.Orchestrators
import Naalp.Go.WorkflowGate
import Naalp.Implementations.Allocation
import Naalp.Implementations.Bodies
import Naalp.Implementations.Codec
import Naalp.Implementations.EvidenceReadings
import Naalp.Implementations.HazardClaims
import Naalp.Implementations.Headers
import Naalp.Implementations.NativeVerifiers
import Naalp.Implementations.Verifiers
import Naalp.Names.Bodies
import Naalp.Names.Equivocation
import Naalp.Names.TaskRuns
import Naalp.Names.TaskChains
import Naalp.Native.Cbor
import Naalp.Native.NamedLedgers
import Naalp.Negotiation.Acceptance
import Naalp.Python.Agui
import Naalp.Python.Approval
import Naalp.Python.Audit
import Naalp.Python.Bundle
import Naalp.Python.MixedMode
import Naalp.Python.Cbor
import Naalp.Python.Channels
import Naalp.Python.Continuation
import Naalp.Python.Cose
import Naalp.Python.Delegation
import Naalp.Python.Delivery
import Naalp.Python.Description
import Naalp.Python.Envelope
import Naalp.Python.Exceptions
import Naalp.Python.Federation
import Naalp.Python.FingerprintCache
import Naalp.Python.Gates
import Naalp.Python.Gateway
import Naalp.Python.Governance
import Naalp.Python.GrantObjects
import Naalp.Python.Hazard
import Naalp.Python.Hitl
import Naalp.Python.Mcp
import Naalp.Python.MerkleProofs
import Naalp.Python.Naming
import Naalp.Python.Negotiation
import Naalp.Python.Plan
import Naalp.Python.RawRecords
import Naalp.Python.Rooms
import Naalp.Python.Streaming
import Naalp.Python.WorkflowGate
import Naalp.Receipts.BundleEncodings
import Naalp.Receipts.Chains
import Naalp.Receipts.DoubleSpends
import Naalp.Receipts.Equivocation
import Naalp.Receipts.ProofBundles
import Naalp.Reconcile.Agreement
import Naalp.Reconcile.Canonical
import Naalp.Reconcile.Overlaps
import Naalp.Rooms.Membership
import Naalp.Rooms.Principals
import Naalp.Rust.Envelope
import Naalp.Rust.EvidenceRecords
import Naalp.Rust.Gates
import Naalp.Rust.Stores
import Naalp.Signatures.HeaderCoverage
import Naalp.Signatures.Parsing
import Naalp.Signatures.Productions
import Naalp.Signatures.ProfileFloor
import Naalp.Signatures.RawRecords
import Naalp.Signatures.SampleObjects
import Naalp.Signatures.Wrapper
import Naalp.Stores.FailedWrites
import Naalp.Stores.StageRuns
import Naalp.Stores.StageVocabulary
import Naalp.Stores.TornLogs
import Naalp.Streams.Commitments
import Naalp.Streams.DeliveryOrder
import Naalp.Streams.StateTable
import Naalp.Streams.Switchboard
import Naalp.Transparency.Checkpoints
import Naalp.Transparency.GoAgreement
import Naalp.Transparency.GovernanceChains
import Naalp.Transparency.RustAgreement
import Naalp.Workflow.DurablePrefix
import Naalp.Workflow.GateFaults
import Naalp.Workflow.GoGate
import Naalp.Workflow.PlanRuns
import Naalp.Workflow.PythonGate
import Naalp.Workflow.Reopening
import Naalp.Workflow.TaskGate
import Naalp.Authorization.TrustMonotonicity
import Naalp.Reconcile.FanOuts
import Naalp.Authorization.GatedCalls
import Naalp.Names.ChainWalks
import Naalp.Negotiation.Descents
import Naalp.Envelope.SignerDuplicates
import Naalp.CanonicalEncoding.DepthBounds
import Naalp.Envelope.ExtensionSetters
import Naalp.Workflow.Pipelines
import Naalp.Implementations.FrameTrees
import Naalp.Signatures.CompositeIds
import Naalp.Authorization.GuardReceipts
import Naalp.Authorization.ReceiptFiles
import Naalp.ConsumeLedger.Specification
import Naalp.Receipts.Partitions
import Naalp.Authorization.Attenuation
import Naalp.Rooms.SignedOps
import Naalp.Names.Activities
import Naalp.Authorization.UseTime
import Naalp.Signatures.IdentityThreads
import Naalp.Names.DirectoryForks
