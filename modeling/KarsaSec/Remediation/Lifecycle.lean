import KarsaSec.Remediation.Ledger
import KarsaSec.Remediation.ProvenanceNodes
import KarsaSec.Remediation.StateMachine

/-!
# The remediation lifecycle

`RemediationLifecycleEngine.execute`: one finding from detection to its end, with a state machine, a
provenance graph and an audit ledger kept along the way.

* `Progress` is what a run keeps; `record`, `addNode` and `advance` are the three things a stage does to it.
* The stages are those of the source; a stage that raises ends the run with its message.
* `execute` gives the result, or the exception, and the disk. The planner, the approval and the application
  agent with its surroundings are parameters.
-/

namespace KarsaSec.Remediation

open KarsaSec.Found KarsaSec.Findings

variable {F : Type}

/-- Who approves a proposal; a callback may change the disk before it answers.
Source: `lifecycle.py`, `approval_provider`
Kind: D -/
inductive ApprovalProvider
  | absent
  | token (token : PatchApprovalToken)
  | callback (ask : PatchProposal → SourceSnapshot → FileSystem →
      Except String (Option PatchApprovalToken) × FileSystem)

/-- The token that a provider gives. Source: `lifecycle.py`, `execute`, stage 3. Kind: D -/
def ApprovalProvider.resolve (provider : ApprovalProvider) (proposal : PatchProposal)
    (snapshot : SourceSnapshot) (fs : FileSystem) :
    Except String (Option PatchApprovalToken) × FileSystem :=
  match provider with
  | absent => (.ok none, fs)
  | token t => (.ok (some t), fs)
  | callback ask => ask proposal snapshot fs

/-- The engine of one repository with what the clock shows; the planner stands for the remediation agent with
the verdict, the context and the knowledge it is given.
Source: `lifecycle.py`, `RemediationLifecycleEngine`
Kind: D -/
structure RemediationLifecycleEngine where
  repositoryRoot : String
  planAndPropose : Finding → Option RootCauseAnalysis → Option Text →
    Except String (FingerprintedStrategy × PatchProposal)
  applicationAgent : RemediationApplicationAgent
  environment : Environment
  nowIso : String
  now : ℤ

/-- What a run is asked to do. Source: `lifecycle.py`, parameters of `execute`. Kind: D -/
structure LifecycleRequest where
  finding : Finding
  rca : Option RootCauseAnalysis := none
  sourceCode : Option Text := none
  approvalProvider : ApprovalProvider
  actor : String := "lifecycle_orchestrator"

/-- Source: `lifecycle.py`, `RemediationLifecycleResult`. Kind: D -/
structure RemediationLifecycleResult (host : Host) (w : Wording F) where
  findingId : String
  currentState : RemediationLifecycleState
  repositoryIdentity : String
  finding : Finding
  rca : Option RootCauseAnalysis
  strategy : FingerprintedStrategy
  proposal : PatchProposal
  approvalToken : Option PatchApprovalToken
  sourceSnapshot : SourceSnapshot
  applicationResult : Option ApplicationResult
  verificationResult : Option VerificationResult
  provenanceGraph : RemediationProvenanceGraph host
  ledger : RemediationLedger host w
  stateHistory : List LifecycleEvent
  failureReason : Option String

/-- What a run keeps along the way. Source: `lifecycle.py`, `execute`, `sm`, `graph`, `ledger`. Kind: D -/
structure Progress (host : Host) (w : Wording F) where
  sm : LifecycleStateMachine
  graph : RemediationProvenanceGraph host
  ledger : RemediationLedger host w

/-- What an audit event is bound to beside the state. Source: `lifecycle.py`, `_append_audit`. Kind: D -/
structure AuditArgs where
  proposalFingerprint : Option String := none
  sourceSnapshotHash : Option String := none
  postApplySnapshotHash : Option String := none
  verificationRunId : Option String := none
  verificationFingerprint : Option String := none
  metadata : List (String × String) := []

/-- An optional text as a value. Kind: D -/
def textOrNull : Option String → Json F
  | some s => .str s
  | none => .null

namespace RemediationLifecycleEngine

variable (host : Host) (w : Wording F) (engine : RemediationLifecycleEngine)
  (request : LifecycleRequest)

/-! ## What a stage does -/

/-- Source: `lifecycle.py`, `_append_audit`. Kind: D -/
def appendAudit (ledger : RemediationLedger host w) (eventType : AuditEventType)
    (lifecycleState provenanceFingerprint : String) (args : AuditArgs) :
    Except String (RemediationLedger host w) := do
  let last := ledger.events.getLast?
  let evtId := "aud_evt_" ++ toString (ledger.events.length + 1) ++ "_" ++ eventType.value
  let event ← LifecycleAuditEvent.create host w
    { eventId := evtId
      findingId := request.finding.findingId
      lifecycleState := .str lifecycleState
      actor := .str request.actor
      timestamp := .str engine.nowIso
      repositoryIdentity := engine.repositoryRoot
      predecessorEventId := textOrNull (last.map (·.eventId))
      predecessorEventFingerprint := textOrNull (last.map (·.eventFingerprint))
      proposalFingerprint := textOrNull args.proposalFingerprint
      sourceSnapshotHash := textOrNull args.sourceSnapshotHash
      postApplySnapshotHash := textOrNull args.postApplySnapshotHash
      verificationRunId := textOrNull args.verificationRunId
      verificationFingerprint := textOrNull args.verificationFingerprint
      provenanceFingerprint := .str provenanceFingerprint }
    (.str eventType.value) (.obj (args.metadata.map fun m => (m.1, .str m.2)))
  ledger.append event

/-- The state of the run is written into the ledger. Kind: D -/
def record (p : Progress host w) (eventType : AuditEventType) (args : AuditArgs) :
    Except String (Progress host w) := do
  let ledger ← engine.appendAudit host w request p.ledger eventType p.sm.currentState.value
    p.graph.graphFingerprint args
  .ok { p with ledger }

/-- A node is added to the graph. Kind: D -/
def addNode (p : Progress host w) (node : ProvenanceNode host) : Except String (Progress host w) := do
  let graph ← p.graph.addNode node
  .ok { p with graph }

/-- What a stage notes about a transition. Kind: D -/
def note (reason : String) : Note :=
  { actor := request.actor, reason, timestamp := some engine.nowIso, now := engine.nowIso }

/-- A transition of the state machine and the audit event that follows it. Kind: D -/
def advance (p : Progress host w) (target : RemediationLifecycleState) (reason : String)
    (eventType : AuditEventType) (args : AuditArgs) : Except String (Progress host w) :=
  match p.sm.transition host target (engine.note request reason) [] with
  | (_, .error e) => .error e.message
  | (sm, .ok _) => engine.record host w request { p with sm } eventType args

/-! ## The stages -/

/-- Stage 1: the run, and the identity of the finding node.
Source: `lifecycle.py`, `execute`, stage 1
Kind: D -/
def detect : Except String (Progress host w × String) := do
  let finding := request.finding
  let sm ← LifecycleStateMachine.create host finding.findingId .detected request.actor
    (some engine.nowIso) none engine.nowIso
  let findingNode ← ProvenanceNode.createFindingNode host finding none
  let p ← addNode host w ⟨sm, .empty, .empty⟩ findingNode
  let p ← engine.record host w request p .findingDetected
    { metadata := [("rule_id", finding.ruleId), ("file_path", finding.filePath)] }
  let p ← engine.advance host w request p .evidenceVerified "Evidence verified for finding"
    .evidenceVerified {}
  .ok (p, findingNode.nodeId)

/-- Stage 2, the analysis: the run, and the identity of the node that the strategy follows.
Source: `lifecycle.py`, `execute`, stage 2
Kind: D -/
def establish (p : Progress host w) (prevNodeId : String) :
    Except String (Progress host w × String) :=
  match request.rca with
  | some rca => do
      let rcaNode ← ProvenanceNode.createRcaNode host rca prevNodeId none
      let p ← addNode host w p rcaNode
      let p ← engine.advance host w request p .rcaEstablished "Root cause analysis established"
        .rcaEstablished {}
      .ok (p, rcaNode.nodeId)
  | none => do
      let p ← engine.advance host w request p .rcaEstablished "RCA step completed" .rcaEstablished {}
      .ok (p, prevNodeId)

/-- The source that the planner sees. Source: `lifecycle.py`, `execute`, `source_code`. Kind: D -/
def sourceOf (fs : FileSystem) : Option Text :=
  match request.sourceCode with
  | some source => some source
  | none =>
    match fs.content (fs.resolve request.finding.filePath) with
    | some raw => RemediationApplicationAgent.readText raw
    | none => none

/-- What is known when the approval is asked for. Kind: D -/
structure Prepared {F : Type} (host : Host) (w : Wording F) where
  progress : Progress host w
  strategy : FingerprintedStrategy
  proposal : PatchProposal
  snapshot : SourceSnapshot
  snapNodeId : String

/-- Stages 2 and 3 up to the approval: the proposal and the snapshot of its files.
Source: `lifecycle.py`, `execute`, stages 2 and 3
Kind: D -/
def propose (p : Progress host w) (prevNodeId : String) (fs : FileSystem) :
    Except String (Prepared host w) := do
  let (strategy, proposal) ←
    engine.planAndPropose request.finding request.rca (sourceOf request fs)
  let stratNode ← ProvenanceNode.createStrategyNode host strategy prevNodeId none
  let p ← addNode host w p stratNode
  let propNode ← ProvenanceNode.createProposalNode host proposal stratNode.nodeId none
  let p ← addNode host w p propNode
  let fingerprint := some proposal.proposalFingerprint
  let p ← engine.advance host w request p .remediationProposed
    "Patch proposal generated and validated" .remediationProposed { proposalFingerprint := fingerprint }
  let p ← engine.advance host w request p .awaitingApproval
    "Patch proposal awaiting review and approval" .approvalGranted
    { proposalFingerprint := fingerprint, metadata := [("status", "AWAITING_APPROVAL")] }
  let snapshot ← SourceSnapshot.capture host engine.repositoryRoot fs proposal.targetFiles engine.nowIso
  let snapNode ← ProvenanceNode.createSourceSnapshotNode host snapshot propNode.nodeId none
  let p ← addNode host w p snapNode
  .ok ⟨p, strategy, proposal, snapshot, snapNode.nodeId⟩

/-- What a run gives back. Source: `lifecycle.py`, `execute`, `RemediationLifecycleResult(…)`. Kind: D -/
def finish (prepared : Prepared host w) (p : Progress host w) (token : Option PatchApprovalToken)
    (appRes : Option ApplicationResult) (verRes : Option VerificationResult)
    (failureReason : Option String) : RemediationLifecycleResult host w :=
  { findingId := request.finding.findingId
    currentState := p.sm.currentState
    repositoryIdentity := engine.repositoryRoot
    finding := request.finding
    rca := request.rca
    strategy := prepared.strategy
    proposal := prepared.proposal
    approvalToken := token
    sourceSnapshot := prepared.snapshot
    applicationResult := appRes
    verificationResult := verRes
    provenanceGraph := p.graph
    ledger := p.ledger
    stateHistory := p.sm.history
    failureReason }

/-- The end of a run without an approval; `reason` stands in the history, `code` in the ledger.
Source: `lifecycle.py`, `execute`, both `REJECTED` ends of stage 3
Kind: D -/
def reject (prepared : Prepared host w) (token : Option PatchApprovalToken)
    (reason code failureReason : String) : Except String (RemediationLifecycleResult host w) := do
  let p ← engine.advance host w request prepared.progress .rejected reason .approvalGranted
    { proposalFingerprint := some prepared.proposal.proposalFingerprint
      sourceSnapshotHash := some prepared.snapshot.aggregateHash
      metadata := [("status", "REJECTED"), ("reason", code)] }
  .ok (engine.finish host w request prepared p token none none (some failureReason))

/-- Stages 3 and 4 after the approval: the run, and the identity of the token node.
Source: `lifecycle.py`, `execute`, end of stage 3 and stage 4
Kind: D -/
def approve (prepared : Prepared host w) (token : PatchApprovalToken) :
    Except String (Progress host w × String) := do
  let args : AuditArgs :=
    { proposalFingerprint := some prepared.proposal.proposalFingerprint
      sourceSnapshotHash := some prepared.snapshot.aggregateHash }
  let tokNode ← ProvenanceNode.createApprovalTokenNode host token prepared.snapNodeId none
  let p ← addNode host w prepared.progress tokNode
  let p ← engine.advance host w request p .approved ("Patch proposal approved by " ++ token.approvedBy)
    .approvalGranted { args with metadata := [("status", "APPROVED"), ("approver", token.approvedBy)] }
  let p ← engine.advance host w request p .snapshotVerified "Pre-apply snapshot verified"
    .snapshotCaptured args
  let p ← engine.advance host w request p .applying "Executing controlled patch application"
    .patchApplied { args with metadata := [("status", "APPLYING")] }
  .ok (p, tokNode.nodeId)

/-- The node of a verification, if there is one. Kind: D -/
def addVerification (prepared : Prepared host w) (p : Progress host w) (appNodeId : String)
    (appRes : ApplicationResult) : Option VerificationResult → Except String (Progress host w)
  | none => .ok p
  | some verRes => do
      let verNode ← ProvenanceNode.createVerificationNode host verRes appNodeId
        prepared.proposal.proposalFingerprint appRes.preApplySnapshotHash appRes.postApplySnapshotHash
        (verRes.verificationFingerprint host) none
      addNode host w p verNode

/-- The end of a run whose application failed.
Source: `lifecycle.py`, `execute`, stage 5, `app_res.status != APPLIED`
Kind: D -/
def applyFailed (prepared : Prepared host w) (p : Progress host w) (appNodeId : String)
    (appRes : ApplicationResult) (verRes : Option VerificationResult)
    (updatedToken : PatchApprovalToken) : Except String (RemediationLifecycleResult host w) := do
  let p ← addVerification host w prepared p appNodeId appRes verRes
  let args : AuditArgs :=
    { proposalFingerprint := some prepared.proposal.proposalFingerprint
      sourceSnapshotHash := some appRes.preApplySnapshotHash }
  let failure := appRes.failureReason.getD "None"
  let p ← engine.advance host w request p .applyFailed ("Patch application failed: " ++ failure)
    .rollbackStarted args
  let critical : Bool := appRes.rollbackStatus = "CRITICAL_FAILURE"
  let p ← engine.advance host w request p (if critical then .criticalRecoveryFailure else .rolledBack)
    ("Rollback completed: " ++ failure)
    (if critical then .criticalRecoveryFailure else .rollbackCompleted) args
  .ok (engine.finish host w request prepared p (some updatedToken) (some appRes) verRes
    (some ("Application failed: " ++ failure)))

/-- The transition on a verified fix. Source: `lifecycle.py`, `execute`, stage 6. Kind: D -/
def confirmFixed (prepared : Prepared host w) (p : Progress host w) (appRes : ApplicationResult)
    (verRes : VerificationResult) : Except String (Progress host w) := do
  let fingerprint := verRes.verificationFingerprint host
  let evidence ← VerificationEvidenceContract.ofVerificationResult verRes
    prepared.proposal.proposalFingerprint appRes.preApplySnapshotHash appRes.postApplySnapshotHash
    fingerprint .deterministicSast
  match p.sm.transitionVerifiedFixed host evidence
      (engine.note request "Deterministic SAST rescan confirmed vulnerability fix") with
  | (_, .error e) => .error e.message
  | (sm, .ok _) =>
    engine.record host w request { p with sm } .verifiedFixed
      { proposalFingerprint := some prepared.proposal.proposalFingerprint
        sourceSnapshotHash := some appRes.preApplySnapshotHash
        postApplySnapshotHash := some appRes.postApplySnapshotHash
        verificationRunId := some verRes.verificationId
        verificationFingerprint := some fingerprint }

/-- The transitions after a verification that is no fix.
Source: `lifecycle.py`, `execute`, end of stage 6
Kind: D -/
def rollBackUnfixed (prepared : Prepared host w) (p : Progress host w) (appRes : ApplicationResult)
    (verRes : Option VerificationResult) (failedState : RemediationLifecycleState)
    (evType : AuditEventType) : Except String (Progress host w) := do
  let args : AuditArgs :=
    { proposalFingerprint := some prepared.proposal.proposalFingerprint
      sourceSnapshotHash := some appRes.preApplySnapshotHash }
  let details := (verRes.map (·.details)).getD "No verification result"
  let p ← engine.advance host w request p failedState ("Security verification failed: " ++ details)
    evType
    { args with
      postApplySnapshotHash := some appRes.postApplySnapshotHash
      verificationRunId := verRes.map (·.verificationId)
      verificationFingerprint := verRes.map (·.verificationFingerprint host) }
  engine.advance host w request p .rolledBack
    "Atomic rollback executed following verification failure" .rollbackCompleted args

/-- Stage 6: the rescan and what follows from it.
Source: `lifecycle.py`, `execute`, stage 6
Kind: D -/
def rescan (prepared : Prepared host w) (p : Progress host w) (appNodeId : String)
    (appRes : ApplicationResult) (verRes : Option VerificationResult)
    (updatedToken : PatchApprovalToken) : Except String (RemediationLifecycleResult host w) := do
  let args : AuditArgs :=
    { proposalFingerprint := some prepared.proposal.proposalFingerprint
      sourceSnapshotHash := some appRes.preApplySnapshotHash
      postApplySnapshotHash := some appRes.postApplySnapshotHash }
  let p ← engine.advance host w request p .appliedUnverified
    "Patch applied successfully; awaiting verification" .patchApplied
    { args with metadata := [("status", "APPLIED_UNVERIFIED")] }
  let p ← engine.advance host w request p .securityRescan "Executing post-apply security rescan"
    .verificationStarted args
  let p ← addVerification host w prepared p appNodeId appRes verRes
  let ended (p : Progress host w) (failureReason : Option String) :=
    engine.finish host w request prepared p (some updatedToken) (some appRes) verRes failureReason
  match verRes with
  | some v =>
    if v.status = .verifiedFixed then
      let p ← engine.confirmFixed host w request prepared p appRes v
      .ok (ended p none)
    else
      let failedState := if v.status = .unknown then .unknown else .stillVulnerable
      let evType := if v.status = .unknown then .criticalRecoveryFailure else .stillVulnerable
      let p ← engine.rollBackUnfixed host w request prepared p appRes (some v) failedState evType
      .ok (ended p (some ("Verification failed with state '" ++ failedState.value ++ "'")))
  | none =>
    let p ← engine.rollBackUnfixed host w request prepared p appRes none .unknown
      .criticalRecoveryFailure
    .ok (ended p (some "Verification failed with state 'UNKNOWN'"))

/-- Stages 5 and 6, after the transaction.
Source: `lifecycle.py`, `execute`, stages 5 and 6
Kind: D -/
def conclude (prepared : Prepared host w) (p : Progress host w) (tokNodeId : String)
    (appRes : ApplicationResult) (verRes : Option VerificationResult)
    (updatedToken : PatchApprovalToken) : Except String (RemediationLifecycleResult host w) := do
  let appNode ← ProvenanceNode.createApplicationNode host appRes [tokNodeId] none
  let p ← addNode host w p appNode
  if appRes.status ≠ .applied then
    engine.applyFailed host w request prepared p appNode.nodeId appRes verRes updatedToken
  else
    engine.rescan host w request prepared p appNode.nodeId appRes verRes updatedToken

/-- Stages 1 to 3, up to the approval. Source: `lifecycle.py`, `execute`. Kind: D -/
def prepare (fs : FileSystem) : Except String (Prepared host w) := do
  let (p, findingNodeId) ← engine.detect host w request
  let (p, prevNodeId) ← engine.establish host w request p findingNodeId
  engine.propose host w request p prevNodeId fs

/-- The transaction of an approved proposal. Kind: D -/
def transact (prepared : Prepared host w) (token : PatchApprovalToken) (fs : FileSystem) :
    TransactionEnd :=
  RemediationApplicationAgent.executeTransaction host engine.applicationAgent engine.environment
    prepared.proposal token request.finding fs

/-- One run: the result or the exception, and the disk.
Source: `lifecycle.py`, `RemediationLifecycleEngine.execute`
Kind: D -/
def execute (fs : FileSystem) :
    Except String (RemediationLifecycleResult host w) × FileSystem :=
  match engine.prepare host w request fs with
  | .error message => (.error message, fs)
  | .ok prepared =>
    match request.approvalProvider.resolve prepared.proposal prepared.snapshot fs with
    | (.error message, fs') => (.error message, fs')
    | (.ok none, fs') =>
      (engine.reject host w request prepared none
        "Approval rejected: No approval token provided" "NO_TOKEN"
        "Approval token missing or rejected.", fs')
    | (.ok (some token), fs') =>
      match token.verifyValid host engine.now request.finding.findingId
          prepared.proposal.proposalFingerprint prepared.snapshot.aggregateHash
          engine.repositoryRoot with
      | .error message => (.error message, fs')
      | .ok (false, valErr) =>
        (engine.reject host w request prepared (some token)
          ("Approval token validation failed: " ++ valErr) valErr
          ("Approval token invalid: " ++ valErr), fs')
      | .ok (true, _) =>
        match engine.approve host w request prepared token with
        | .error message => (.error message, fs')
        | .ok (p, tokNodeId) =>
          let e := engine.transact host w request prepared token fs'
          match e.result with
          | .error message => (.error message, e.disk)
          | .ok (appRes, verRes, updatedToken) =>
            (engine.conclude host w request prepared p tokNodeId appRes verRes updatedToken,
              e.disk)

end RemediationLifecycleEngine

end KarsaSec.Remediation
