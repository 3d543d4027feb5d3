import VitrialSync.Program.Raise
import VitrialSync.Python.Decimal
import VitrialSync.Python.Json
import VitrialSync.Python.Hash
import VitrialSync.Python.Calendar
import VitrialSync.Server.Lifecycle
import VitrialSync.Server.Ownership
import VitrialSync.Server.Delivery.Production
import VitrialSync.Server.Delivery.Installation
import VitrialSync.Server.Delivery.Execution
import VitrialSync.Server.Push
import VitrialSync.Server.Hierarchy
import VitrialSync.Server.Atomicity
import VitrialSync.Server.Reconfiguration
import VitrialSync.Server.DeliveryFreeze
import VitrialSync.Server.Replay
import VitrialSync.Server.PullPages
import VitrialSync.Server.PullProgress
import VitrialSync.Server.Revisions
import VitrialSync.Server.ConcurrentPull
import VitrialSync.Server.Replicas
import VitrialSync.Server.EvidencePointers
import VitrialSync.Server.QuotationAgreement
import VitrialSync.Server.QuotationRuns
import VitrialSync.Server.PlanRevisions
import VitrialSync.Server.OwnershipLinks
import VitrialSync.Server.ScopeConfinement
import VitrialSync.Server.SidecarReferences
import VitrialSync.Server.SyncV2
import VitrialSync.Server.PullCeiling
import VitrialSync.Server.Cursors
import VitrialSync.Server.RateLimit
import VitrialSync.Server.RequestSize
import VitrialSync.Server.RenderMirror
import VitrialSync.Server.Publications
import VitrialSync.Server.PublicationHistory
import VitrialSync.Beam.Terms
import VitrialSync.Beam.Canonical
import VitrialSync.Beam.Lifecycle
import VitrialSync.Beam.Parity
import VitrialSync.Beam.QuotationParity
import VitrialSync.Beam.BlockerParity
import VitrialSync.Beam.Decimal
import VitrialSync.Beam.Handoff
import VitrialSync.Beam.Delivery
import VitrialSync.Beam.Ownership
import VitrialSync.Beam.Json
import VitrialSync.Beam.Fingerprint
import VitrialSync.Beam.FingerprintParity
import VitrialSync.Beam.Admission
import VitrialSync.Beam.Batch
import VitrialSync.Beam.Steps
import VitrialSync.Beam.Bookkeeping
import VitrialSync.Beam.Runs
import VitrialSync.Beam.Hierarchy
import VitrialSync.Beam.DeliveryHistory
import VitrialSync.Beam.DesignBinding
import VitrialSync.Beam.Replays
import VitrialSync.Program.Index
import VitrialSync.Beam.Prefetch
import VitrialSync.Beam.Interleaving
import VitrialSync.Beam.PullService
import VitrialSync.Beam.Tenants
import VitrialSync.Beam.PushReply
import VitrialSync.Beam.RateLimit
import VitrialSync.Beam.Pool
import VitrialSync.Beam.PoolMoves
import VitrialSync.Beam.PoolRuns
import VitrialSync.Beam.PoolClosed
import VitrialSync.Beam.PoolOwners
import VitrialSync.Beam.DecimalValues
import VitrialSync.Beam.Comparison
import VitrialSync.Python.JsonNesting
import VitrialSync.Beam.JsonTexts
import VitrialSync.Beam.JsonExact
import VitrialSync.Beam.Cursor
import VitrialSync.Program.Wire
import VitrialSync.Beam.Runtime
import VitrialSync.Beam.JsonEncoder
import VitrialSync.Beam.DbCodec
import VitrialSync.Beam.PageSizes
import VitrialSync.Beam.Frames
import VitrialSync.Beam.Authentication
import VitrialSync.Beam.Exchange
import VitrialSync.Beam.CanonicalText
import VitrialSync.Beam.PayloadParity
