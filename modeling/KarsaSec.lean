import KarsaSec.Ai.BucketBound
import KarsaSec.Ai.Budget
import KarsaSec.Ai.BudgetInvariant
import KarsaSec.Ai.CircuitBreaker
import KarsaSec.Ai.CircuitHistory
import KarsaSec.Ai.CircuitRepository
import KarsaSec.Ai.Conservation
import KarsaSec.Ai.Execution
import KarsaSec.Ai.ExecutionOutcome
import KarsaSec.Ai.ProbeSlots
import KarsaSec.Ai.RateLimiter
import KarsaSec.Ai.Request
import KarsaSec.Ai.Router
import KarsaSec.Ai.SelectionFrame
import KarsaSec.Analysis.AttackGraph
import KarsaSec.Analysis.FindingClusters
import KarsaSec.Analysis.RegressionIdentity
import KarsaSec.Analysis.RegressionReport
import KarsaSec.Analysis.ReleaseAuditLedger
import KarsaSec.Analysis.ReleaseStateMachine
import KarsaSec.Analysis.SecurityGate
import KarsaSec.Analysis.SemanticCorrelator
import KarsaSec.Analysis.UrlAgreement
import KarsaSec.Analysis.UrlSecurity
import KarsaSec.Cfg.Builder
import KarsaSec.Cfg.Dominators
import KarsaSec.Cfg.Execution
import KarsaSec.Cfg.Placement
import KarsaSec.Correlation.CrossBatch
import KarsaSec.Correlation.Model
import KarsaSec.Correlation.SecurityDecision
import KarsaSec.Correlation.SecurityProof
import KarsaSec.Cpg.Builder
import KarsaSec.Cpg.Diff
import KarsaSec.Cpg.Merge
import KarsaSec.Cpg.Traversal
import KarsaSec.Dataflow.AbstractState
import KarsaSec.Dataflow.Analyzer
import KarsaSec.Dataflow.Assignments
import KarsaSec.Dataflow.CallComponents
import KarsaSec.Dataflow.CallGraph
import KarsaSec.Dataflow.Conditions
import KarsaSec.Dataflow.EnvironmentJoin
import KarsaSec.Dataflow.FunctionSummary
import KarsaSec.Dataflow.GuardPropagation
import KarsaSec.Dataflow.GuardRegistry
import KarsaSec.Dataflow.InterproceduralGuard
import KarsaSec.Dataflow.InterproceduralSolver
import KarsaSec.Dataflow.ProvenanceGraph
import KarsaSec.Dataflow.Registries
import KarsaSec.Dataflow.ResourceGraph
import KarsaSec.Distributed.Healing
import KarsaSec.Events.AuditLedger
import KarsaSec.Events.ChainOrder
import KarsaSec.Events.DeliveryOrder
import KarsaSec.Events.Publisher
import KarsaSec.Findings.LossFree
import KarsaSec.Found.Asking
import KarsaSec.Found.Circle
import KarsaSec.Found.Collect
import KarsaSec.Found.Components
import KarsaSec.Found.Copies
import KarsaSec.Found.DepthSearch
import KarsaSec.Found.Dict
import KarsaSec.Found.Dominators
import KarsaSec.Found.HashChain
import KarsaSec.Found.Joined
import KarsaSec.Found.JsonText
import KarsaSec.Found.KeyedDiff
import KarsaSec.Found.Leases
import KarsaSec.Found.Meeting
import KarsaSec.Found.Numeral
import KarsaSec.Found.OrderFree
import KarsaSec.Found.Overwriting
import KarsaSec.Found.PercentText
import KarsaSec.Found.Precedes
import KarsaSec.Found.Ranking
import KarsaSec.Found.Reach
import KarsaSec.Found.Regex
import KarsaSec.Found.RegexMatch
import KarsaSec.Found.Saturation
import KarsaSec.Found.Shared
import KarsaSec.Found.ShortestWalk
import KarsaSec.Found.SimplePaths
import KarsaSec.Found.Sorting
import KarsaSec.Found.Splicing
import KarsaSec.Found.Sweep
import KarsaSec.Found.Text
import KarsaSec.Found.Topo
import KarsaSec.Found.Tree
import KarsaSec.Found.TreeWalk
import KarsaSec.Found.Worklist
import KarsaSec.Graph.ConstantResolver
import KarsaSec.Graph.Returning
import KarsaSec.Interprocedural.CallFlows
import KarsaSec.Interprocedural.Engine
import KarsaSec.Parser.Faithful
import KarsaSec.Parser.PythonParser
import KarsaSec.Parser.WalkOrder
import KarsaSec.Persistence.Agreement
import KarsaSec.Persistence.Alignment
import KarsaSec.Persistence.Arguments
import KarsaSec.Persistence.AuditPath
import KarsaSec.Persistence.Changes
import KarsaSec.Persistence.Columns
import KarsaSec.Persistence.Lifetimes
import KarsaSec.Persistence.OutboxPublisher
import KarsaSec.Persistence.SideBySide
import KarsaSec.Persistence.TaskRepository
import KarsaSec.Query.Executor
import KarsaSec.Query.Index
import KarsaSec.Query.IndexPushdown
import KarsaSec.Query.Model
import KarsaSec.Query.Optimizer
import KarsaSec.Query.Planner
import KarsaSec.Query.Predicates
import KarsaSec.Query.TraversalAgreement
import KarsaSec.Query.TraversalEngine
import KarsaSec.Recovery.CanonicalText
import KarsaSec.Recovery.OutboxRebuild
import KarsaSec.Recovery.PointInTime
import KarsaSec.Recovery.Replay
import KarsaSec.Recovery.Restoration
import KarsaSec.Recovery.Snapshot
import KarsaSec.Recovery.SnapshotDocument
import KarsaSec.Remediation.Audit
import KarsaSec.Remediation.HunkPlacement
import KarsaSec.Remediation.Ledger
import KarsaSec.Remediation.LedgerRoundTrip
import KarsaSec.Remediation.Lifecycle
import KarsaSec.Remediation.LifecycleHistory
import KarsaSec.Remediation.LifecycleOutcome
import KarsaSec.Remediation.PackageExchange
import KarsaSec.Remediation.PreImages
import KarsaSec.Remediation.Provenance
import KarsaSec.Remediation.ProvenanceLoading
import KarsaSec.Remediation.RollbackSafety
import KarsaSec.Remediation.SharedApplier
import KarsaSec.Remediation.SingleUse
import KarsaSec.Remediation.StateMachine
import KarsaSec.Remediation.Tampering
import KarsaSec.Remediation.TransactionPackage
import KarsaSec.Remediation.WriteFailures
import KarsaSec.Ssa.Builder
import KarsaSec.Ssa.DominatorAnalysis
import KarsaSec.Ssa.Faithful
import KarsaSec.Ssa.IRBuilder
import KarsaSec.Ssa.Model
import KarsaSec.Ssa.Program
import KarsaSec.Ssa.Reaching
import KarsaSec.Ssa.ReachingDefinitions
import KarsaSec.Taint.Engine
import KarsaSec.Taint.Model
import KarsaSec.Taint.Propagator
import KarsaSec.Taint.Registries
import KarsaSec.Workers.ClusterRecovery
import KarsaSec.Workers.ConsistentHashing
import KarsaSec.Workers.Drain
import KarsaSec.Workers.Fencing
import KarsaSec.Workers.OrphanedTasks
import KarsaSec.Workers.RecoveryLocks
import KarsaSec.Workers.Repository
import KarsaSec.Workers.Runtime
import KarsaSec.Workers.Task
import KarsaSec.Workers.TaskQueues
