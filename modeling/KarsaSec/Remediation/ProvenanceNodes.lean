import KarsaSec.Remediation.ApplicationAgent
import KarsaSec.Remediation.Provenance

/-!
# The nodes of a remediation

The factories of `ProvenanceNode`: each binds one artifact of a remediation to a node by its fingerprints.

* `ProvenanceNode.make` is what they share; `RootCauseAnalysis` has the fields that a node binds.
-/

namespace KarsaSec.Remediation

open KarsaSec.Found KarsaSec.Findings

/-! ## Artifacts -/

/-- Source: `rca/models.py`, `RootCauseCategory`. Kind: D -/
inductive RootCauseCategory
  | directUserInput
  | unsafeAssignment
  | missingValidation
  | missingSanitization
  | incompatibleSanitization
  | unsafeTransformation
  | interproceduralPropagation
  | crossFilePropagation
  | controlFlowGuardFailure
  | returnPathMixing
  | ssaReassignment
  | unknownRootCause
  | contradictoryEvidence
  deriving DecidableEq, Repr

/-- The string value of a category. Source: `rca/models.py`, `RootCauseCategory`. Kind: D -/
def RootCauseCategory.value : RootCauseCategory → String
  | directUserInput => "DIRECT_USER_INPUT"
  | unsafeAssignment => "UNSAFE_ASSIGNMENT"
  | missingValidation => "MISSING_VALIDATION"
  | missingSanitization => "MISSING_SANITIZATION"
  | incompatibleSanitization => "INCOMPATIBLE_SANITIZATION"
  | unsafeTransformation => "UNSAFE_TRANSFORMATION"
  | interproceduralPropagation => "INTERPROCEDURAL_PROPAGATION"
  | crossFilePropagation => "CROSS_FILE_PROPAGATION"
  | controlFlowGuardFailure => "CONTROL_FLOW_GUARD_FAILURE"
  | returnPathMixing => "RETURN_PATH_MIXING"
  | ssaReassignment => "SSA_REASSIGNMENT"
  | unknownRootCause => "UNKNOWN_ROOT_CAUSE"
  | contradictoryEvidence => "CONTRADICTORY_EVIDENCE"

/-- Source: `rca/models.py`, `FalsePositiveAssessment`. Kind: D -/
inductive FalsePositiveAssessment
  | lowRisk
  | mediumRisk
  | highRisk
  | notProven
  deriving DecidableEq, Repr

/-- The string value of a rating. Source: `rca/models.py`, `FalsePositiveAssessment`. Kind: D -/
def FalsePositiveAssessment.value : FalsePositiveAssessment → String
  | lowRisk => "LOW_RISK"
  | mediumRisk => "MEDIUM_RISK"
  | highRisk => "HIGH_RISK"
  | notProven => "NOT_PROVEN"

/-- Source: `rca/models.py`, `ReflectionStatus`. Kind: D -/
inductive ReflectionStatus
  | proven
  | notProven
  | unknown
  | contradictory
  deriving DecidableEq, Repr

/-- The string value of a status. Source: `rca/models.py`, `ReflectionStatus`. Kind: D -/
def ReflectionStatus.value : ReflectionStatus → String
  | proven => "PROVEN"
  | notProven => "NOT_PROVEN"
  | unknown => "UNKNOWN"
  | contradictory => "CONTRADICTORY"

/-- Source: `rca/models.py`, `RootCauseAnalysis`. Kind: D -/
structure RootCauseAnalysis where
  findingId : String
  rootCauseCategory : RootCauseCategory
  falsePositiveRisk : FalsePositiveAssessment
  reflectionStatus : ReflectionStatus
  rcaFingerprint : String
  deriving DecidableEq

/-- A strategy with its fingerprint. Source: `models.py`, `RemediationStrategy`. Kind: D -/
structure FingerprintedStrategy extends RemediationStrategy where
  strategyFingerprint : String

/-- The string value of a status. Source: `applier.py`, `ApplicationStatus`. Kind: D -/
def ApplicationStatus.value : ApplicationStatus → String
  | ready => "READY"
  | applied => "APPLIED"
  | rejected => "REJECTED"
  | failed => "FAILED"
  | rolledBack => "ROLLED_BACK"
  | criticalRecoveryFailure => "CRITICAL_RECOVERY_FAILURE"

/-- Source: `verification.py`, `VerificationResult.verification_fingerprint`. Kind: D -/
def VerificationResult.verificationFingerprint (host : Host) (v : VerificationResult) : String :=
  host.sha256Text (joinStr "|" [v.verificationId, v.findingId, v.status.value, v.preApplyVerdictStatus,
    v.postApplyVerdictStatus, toString v.matchingFindingsCount, v.contract.evidenceFingerprint])

/-! ## Factories -/

namespace ProvenanceNode

variable {host : Host}

/-- A node with sorted metadata and its computed fingerprint.
Source: `provenance.py`, the factories of `ProvenanceNode`
Kind: D -/
def make (host : Host) (nid : String) (nodeType : ProvenanceNodeType) (preds : List String)
    (meta' : List (String × String)) : Except String (ProvenanceNode host) :=
  let sortedMeta := sortPairs meta'
  create host
    { nodeId := nid, nodeType, predecessorNodeIds := preds, metadata := sortedMeta
      fingerprint := NodeFields.computeFingerprint host nid nodeType preds sortedMeta }

/-- Source: `provenance.py`, `create_finding_node`. Kind: D -/
def createFindingNode (host : Host) (finding : Finding) (nodeId : Option String) :
    Except String (ProvenanceNode host) :=
  make host (orDefault nodeId ("prov_finding_" ++ finding.findingId)) .finding []
    [("finding_id", finding.findingId), ("rule_id", finding.ruleId), ("cwe_id", cweOrUnknown finding),
      ("file_path", normSlashes finding.filePath), ("finding_fingerprint", finding.fingerprint)]

/-- Source: `provenance.py`, `create_rca_node`. Kind: D -/
def createRcaNode (host : Host) (rca : RootCauseAnalysis) (predecessorId : String)
    (nodeId : Option String) : Except String (ProvenanceNode host) :=
  make host (orDefault nodeId ("prov_rca_" ++ rca.findingId)) .rca [predecessorId]
    [("finding_id", rca.findingId), ("rca_fingerprint", rca.rcaFingerprint),
      ("root_cause_category", rca.rootCauseCategory.value),
      ("reflection_status", rca.reflectionStatus.value),
      ("false_positive_risk", rca.falsePositiveRisk.value)]

/-- Source: `provenance.py`, `create_strategy_node`. Kind: D -/
def createStrategyNode (host : Host) (strategy : FingerprintedStrategy) (predecessorId : String)
    (nodeId : Option String) : Except String (ProvenanceNode host) :=
  make host (orDefault nodeId ("prov_strat_" ++ strategy.findingId)) .strategy [predecessorId]
    [("finding_id", strategy.findingId), ("strategy_fingerprint", strategy.strategyFingerprint),
      ("strategy_type", strategy.strategyType.value), ("target_file", normSlashes strategy.targetFile)]

/-- Source: `provenance.py`, `create_proposal_node`. Kind: D -/
def createProposalNode (host : Host) (proposal : PatchProposal) (predecessorId : String)
    (nodeId : Option String) : Except String (ProvenanceNode host) :=
  make host (orDefault nodeId ("prov_prop_" ++ proposal.proposalId)) .proposal [predecessorId]
    [("proposal_id", proposal.proposalId), ("finding_id", proposal.findingId),
      ("proposal_fingerprint", proposal.proposalFingerprint),
      ("validation_status", proposal.validationStatus.value),
      ("target_files", joinStr "|" (sortStrings (proposal.targetFiles.map normSlashes)))]

/-- Source: `provenance.py`, `create_approval_token_node`. Kind: D -/
def createApprovalTokenNode (host : Host) (token : PatchApprovalToken) (predecessorId : String)
    (nodeId : Option String) : Except String (ProvenanceNode host) :=
  make host (orDefault nodeId ("prov_tok_" ++ token.tokenId)) .approvalToken [predecessorId]
    [("token_id", token.tokenId), ("finding_id", token.findingId),
      ("proposal_fingerprint", token.proposalFingerprint), ("token_fingerprint", token.tokenFingerprint),
      ("source_snapshot_hash", token.sourceSnapshotHash), ("approved_by", token.approvedBy),
      ("repository_identity", token.repositoryIdentity)]

/-- Source: `provenance.py`, `create_source_snapshot_node`. Kind: D -/
def createSourceSnapshotNode (host : Host) (snapshot : SourceSnapshot) (predecessorId : String)
    (nodeId : Option String) : Except String (ProvenanceNode host) :=
  make host (orDefault nodeId ("prov_snap_" ++ String.ofList (snapshot.aggregateHash.toList.take 12)))
    .sourceSnapshot [predecessorId]
    [("aggregate_hash", snapshot.aggregateHash),
      ("repository_root", normSlashes snapshot.repositoryRoot),
      ("file_count", toString snapshot.fileSnapshots.length)]

/-- Source: `provenance.py`, `create_application_node`. Kind: D -/
def createApplicationNode (host : Host) (appResult : ApplicationResult) (predecessorIds : List String)
    (nodeId : Option String) : Except String (ProvenanceNode host) :=
  make host (orDefault nodeId ("prov_app_" ++ appResult.transactionId)) .applicationResult
    (sortStrings predecessorIds)
    [("transaction_id", appResult.transactionId), ("finding_id", appResult.findingId),
      ("proposal_fingerprint", appResult.proposalFingerprint), ("status", appResult.status.value),
      ("pre_apply_snapshot_hash", appResult.preApplySnapshotHash),
      ("post_apply_snapshot_hash", appResult.postApplySnapshotHash)]

/-- Source: `provenance.py`, `create_verification_node`. Kind: D -/
def createVerificationNode (host : Host) (verResult : VerificationResult) (predecessorId
    proposalFingerprint sourceSnapshotHash postApplySnapshotHash verificationFingerprint : String)
    (nodeId : Option String) : Except String (ProvenanceNode host) :=
  make host (orDefault nodeId ("prov_ver_" ++ verResult.verificationId)) .verificationResult
    [predecessorId]
    [("verification_id", verResult.verificationId), ("finding_id", verResult.findingId),
      ("status", verResult.status.value), ("proposal_fingerprint", proposalFingerprint),
      ("source_snapshot_hash", sourceSnapshotHash),
      ("post_apply_snapshot_hash", postApplySnapshotHash),
      ("verification_fingerprint", verificationFingerprint)]

end ProvenanceNode

end KarsaSec.Remediation
