import SplitChain.Library.Dict
import SplitChain.Library.Raise
import SplitChain.Library.Sha256
import SplitChain.Library.Transition
import SplitChain.Python.Number
import SplitChain.Python.Json
import SplitChain.Model.Genesis
import SplitChain.Model.Ledger
import SplitChain.Model.Steps
import SplitChain.Model.Invariant
import SplitChain.Model.Runs
import SplitChain.Model.Snapshot
import SplitChain.Model.Records
import SplitChain.Model.Restore
import SplitChain.Library.Proc
import SplitChain.Model.Request
import SplitChain.Model.Alike
import SplitChain.Model.Auth
import SplitChain.Model.Failover
import SplitChain.Model.Replica
import SplitChain.Model.ReferenceNode
import SplitChain.Model.Dispatch
import SplitChain.Model.JsonAmounts
import SplitChain.Model.Signing
import SplitChain.Model.JsonRequests
import SplitChain.Model.Rejection
import SplitChain.Model.ReplicaSteps
import SplitChain.Model.NodeRuns
import SplitChain.Model.Amounts
import SplitChain.Model.Reloading
import SplitChain.Model.TwoPaths
import SplitChain.Model.ExactlyOnce
import SplitChain.Library.Utf16
import SplitChain.Python.Canonical
import SplitChain.Formal.MultiBranch
import SplitChain.Model.AuditLog
import SplitChain.Model.Lifecycle
import SplitChain.Model.Refinement
import SplitChain.Model.SignedBytes
import SplitChain.Model.WalletEncoders
import SplitChain.Model.Standalone
import SplitChain.Model.Standby
import SplitChain.Model.Twins
import SplitChain.Model.Continuation
import SplitChain.Model.Prepared
import SplitChain.Library.Quorum
import SplitChain.Python.Values
import SplitChain.Model.Identity
import SplitChain.Model.Finality
import SplitChain.Model.Recovery
import SplitChain.Model.Counterproofs
import SplitChain.Model.Distributor
import SplitChain.Model.Funding
import SplitChain.Model.Membership
import SplitChain.Model.OlcGateway
import SplitChain.Model.OlcLifecycle
import SplitChain.Model.OlcReceipts
import SplitChain.Model.OlcPublisher
import SplitChain.Model.Election
import SplitChain.Model.RawReplica
import SplitChain.Model.Authorship
import SplitChain.Model.SavedCluster
import SplitChain.Model.Conflicts
import SplitChain.Python.Loads
import SplitChain.Model.Adoption
import SplitChain.Model.LedgerDocument
import SplitChain.Model.LedgerObject
import SplitChain.Model.LedgerStore
import SplitChain.Model.TrustBoundary
import SplitChain.Library.Routine
import SplitChain.Model.AccountFiles
import SplitChain.Model.Enrollment
import SplitChain.Model.EnrollmentStore
import SplitChain.Model.Challenge
import SplitChain.Model.ProbeLimiter
import SplitChain.Model.ContainerRuntime
import SplitChain.Model.DistOps
import SplitChain.Model.EnrollmentQueue
import SplitChain.Model.Gossip
import SplitChain.Model.Preparation
import SplitChain.Model.PublicRpc
import SplitChain.Python.Base64
import SplitChain.Model.ValidatorCandidate
import SplitChain.Model.CatchUp
import SplitChain.Model.NodeRecords
import SplitChain.Model.LiveCluster
import SplitChain.Model.ClusterInvariant
import SplitChain.Model.ClusterWork
import SplitChain.Model.ClusterRuns
import SplitChain.Model.ClusterOrigins
import SplitChain.Model.ClusterLogs
import SplitChain.Model.ClusterVotes
import SplitChain.Model.NodeInvariants
import SplitChain.Model.Credentials
import SplitChain.Model.Warrants
import SplitChain.Model.ClusterLedgers
import SplitChain.Model.Rejoining
import SplitChain.Model.Takeover
import SplitChain.Model.Exchanges
import SplitChain.Model.Candidacies
