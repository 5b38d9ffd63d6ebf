import WorkerPool.Lib.Calendar
import WorkerPool.Lib.PyText
import WorkerPool.Lib.Table
import WorkerPool.Lib.Transaction
import WorkerPool.Lib.Transition
import WorkerPool.Lib.Json
import WorkerPool.Lib.Sha256
import WorkerPool.Schema
import WorkerPool.Naming
import WorkerPool.Effects
import WorkerPool.Store
import WorkerPool.System
import WorkerPool.Ledger
import WorkerPool.LifeCycle
import WorkerPool.Fencing
import WorkerPool.Containment
import WorkerPool.Capacity
import WorkerPool.EffectLedger
import WorkerPool.Reconciliation
import WorkerPool.Declaration
import WorkerPool.Attempts
import WorkerPool.Lib.Program
import WorkerPool.Lib.Threads
import WorkerPool.WorkRuns
import WorkerPool.Merges
import WorkerPool.Sweeps
import WorkerPool.Failures
import WorkerPool.CheckpointLog
import WorkerPool.Admission
import WorkerPool.Expiry
import WorkerPool.Cycle
import WorkerPool.Governance
import WorkerPool.EvidenceChain
import WorkerPool.Agreement
import WorkerPool.Manifest
import WorkerPool.Recovery
import WorkerPool.Executor
import WorkerPool.ExactClaims
import WorkerPool.Aside
import WorkerPool.Progress
import WorkerPool.Fairness
import WorkerPool.Guards
import WorkerPool.Lib.Float64
import WorkerPool.Lib.JsonDict
import WorkerPool.Lib.JsonSize
import WorkerPool.Lib.JsonText
import WorkerPool.Artifact
import WorkerPool.Envelopes
import WorkerPool.ArtifactBinding
import WorkerPool.Claimable
import WorkerPool.Diagnostics
import WorkerPool.Workspaces
import WorkerPool.Lib.Search
import WorkerPool.Lib.Service
import WorkerPool.Download
import WorkerPool.BundleHeader
import WorkerPool.ArtifactStore
import WorkerPool.GovernedMerge
import WorkerPool.IssueBinding
import WorkerPool.PoolApi
import WorkerPool.IssueAdmission
import WorkerPool.Lasting
import WorkerPool.Lib.Sha1
import WorkerPool.Lib.Base64
import WorkerPool.GitHubPort
import WorkerPool.GitHubCas
import WorkerPool.RagHandoff
import WorkerPool.RagReceipt
import WorkerPool.RagPublish
import WorkerPool.ManifestPaths
import WorkerPool.ContinuityIdentity
import WorkerPool.ArtifactRefusals
import WorkerPool.Lib.JsonSame
import WorkerPool.Lib.JsonSpaced
import WorkerPool.StructuredTask
import WorkerPool.StructuredReport
import WorkerPool.StructuredFeedback
import WorkerPool.StructuredPipe
import WorkerPool.Lib.Edits
import WorkerPool.Lib.Lines
import WorkerPool.StructuredRender
import WorkerPool.StructuredEdits
import WorkerPool.StructuredAnchors
import WorkerPool.Lib.Subst
import WorkerPool.Redaction
import WorkerPool.ExecutorOrder
import WorkerPool.Redacted
