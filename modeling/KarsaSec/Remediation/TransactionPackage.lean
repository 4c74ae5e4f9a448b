import KarsaSec.Found.JsonText
import KarsaSec.Remediation.Approval

/-!
# Remediation transaction packages

The package in which the commitments of a remediation travel between systems.

* `RemediationTransactionPackage V F` is a package whose texts are of type `V`: `String` as its fields declare
  them, `Json F` as a package that was read may hold them. `asJson` is the first as the second.
* `canonicalize` writes a document with sorted keys; `computePackageFingerprint` hashes it, with the
  repository identity normalised.
* `exportRtp`, `importRtp` write a package and read it back; `RTPValidator.validate` accepts or refuses one.
-/

namespace KarsaSec.Remediation

open KarsaSec.Found

/-! ## Commitments -/

/-- Source: `models.py`, `FindingCommitment`. Kind: D -/
structure FindingCommitment (V : Type) where
  findingId : V
  ruleId : V
  severity : V
  cwe : V
  filePath : V
  lineNumber : ℤ
  findingFingerprint : V

/-- Source: `models.py`, `EvidenceCommitment`. Kind: D -/
structure EvidenceCommitment (V : Type) where
  evidenceCount : ℤ
  evidenceFingerprint : V

/-- Source: `models.py`, `RootCauseCommitment`. Kind: D -/
structure RootCauseCommitment (V F : Type) where
  rcaCategory : V
  confidence : F
  rcaFingerprint : V

/-- Source: `models.py`, `StrategyCommitment`. Kind: D -/
structure StrategyCommitment (V : Type) where
  strategyType : V
  targetFile : V
  strategyFingerprint : V

/-- Source: `models.py`, `ProposalCommitment`. Kind: D -/
structure ProposalCommitment (V : Type) where
  proposalId : V
  riskLevel : V
  targetFiles : List V
  proposalFingerprint : V

/-- Source: `models.py`, `ApprovalCommitment`. Kind: D -/
structure ApprovalCommitment (V : Type) where
  approvalTokenId : V
  approver : V
  approvalStatus : V
  approvalFingerprint : V

/-- Source: `models.py`, `ApplicationCommitment`. Kind: D -/
structure ApplicationCommitment (V : Type) where
  sourceSnapshotHash : V
  postApplySnapshotHash : V
  applicationStatus : V

/-- Source: `models.py`, `VerificationCommitment`. Kind: D -/
structure VerificationCommitment (V : Type) where
  verificationRunId : V
  status : V
  matchingFindingsCount : ℤ
  verificationFingerprint : V

/-- Source: `models.py`, `ProvenanceCommitment`. Kind: D -/
structure ProvenanceCommitment (V : Type) where
  graphFingerprint : V

/-- Source: `models.py`, `AuditCommitment`. Kind: D -/
structure AuditCommitment (V : Type) where
  ledgerFingerprint : V

/-- Source: `models.py`, `RemediationTransactionPackage`. Kind: D -/
structure RemediationTransactionPackage (V F : Type) where
  schemaName : V
  schemaVersion : V
  transactionId : V
  repositoryIdentity : V
  createdAt : V
  status : V
  finding : FindingCommitment V
  evidence : Option (EvidenceCommitment V)
  rootCause : Option (RootCauseCommitment V F)
  strategy : Option (StrategyCommitment V)
  proposal : Option (ProposalCommitment V)
  approval : Option (ApprovalCommitment V)
  application : Option (ApplicationCommitment V)
  verification : Option (VerificationCommitment V)
  provenance : ProvenanceCommitment V
  audit : AuditCommitment V
  receiptFingerprint : V

/-! ### Texts of another type -/

section map

variable {V W F : Type} (f : V → W)

/-- Kind: D -/
def FindingCommitment.map (c : FindingCommitment V) : FindingCommitment W :=
  ⟨f c.findingId, f c.ruleId, f c.severity, f c.cwe, f c.filePath, c.lineNumber, f c.findingFingerprint⟩

/-- Kind: D -/
def EvidenceCommitment.map (c : EvidenceCommitment V) : EvidenceCommitment W :=
  ⟨c.evidenceCount, f c.evidenceFingerprint⟩

/-- Kind: D -/
def RootCauseCommitment.map (c : RootCauseCommitment V F) : RootCauseCommitment W F :=
  ⟨f c.rcaCategory, c.confidence, f c.rcaFingerprint⟩

/-- Kind: D -/
def StrategyCommitment.map (c : StrategyCommitment V) : StrategyCommitment W :=
  ⟨f c.strategyType, f c.targetFile, f c.strategyFingerprint⟩

/-- Kind: D -/
def ProposalCommitment.map (c : ProposalCommitment V) : ProposalCommitment W :=
  ⟨f c.proposalId, f c.riskLevel, c.targetFiles.map f, f c.proposalFingerprint⟩

/-- Kind: D -/
def ApprovalCommitment.map (c : ApprovalCommitment V) : ApprovalCommitment W :=
  ⟨f c.approvalTokenId, f c.approver, f c.approvalStatus, f c.approvalFingerprint⟩

/-- Kind: D -/
def ApplicationCommitment.map (c : ApplicationCommitment V) : ApplicationCommitment W :=
  ⟨f c.sourceSnapshotHash, f c.postApplySnapshotHash, f c.applicationStatus⟩

/-- Kind: D -/
def VerificationCommitment.map (c : VerificationCommitment V) : VerificationCommitment W :=
  ⟨f c.verificationRunId, f c.status, c.matchingFindingsCount, f c.verificationFingerprint⟩

/-- The package with another value in the place of each text. Kind: D -/
def RemediationTransactionPackage.map (p : RemediationTransactionPackage V F) :
    RemediationTransactionPackage W F where
  schemaName := f p.schemaName
  schemaVersion := f p.schemaVersion
  transactionId := f p.transactionId
  repositoryIdentity := f p.repositoryIdentity
  createdAt := f p.createdAt
  status := f p.status
  finding := p.finding.map f
  evidence := p.evidence.map (EvidenceCommitment.map f)
  rootCause := p.rootCause.map (RootCauseCommitment.map f)
  strategy := p.strategy.map (StrategyCommitment.map f)
  proposal := p.proposal.map (ProposalCommitment.map f)
  approval := p.approval.map (ApprovalCommitment.map f)
  application := p.application.map (ApplicationCommitment.map f)
  verification := p.verification.map (VerificationCommitment.map f)
  provenance := ⟨f p.provenance.graphFingerprint⟩
  audit := ⟨f p.audit.ledgerFingerprint⟩
  receiptFingerprint := f p.receiptFingerprint

/-- A package of declared types among the values of the language. Kind: D -/
def RemediationTransactionPackage.asJson (p : RemediationTransactionPackage String F) :
    RemediationTransactionPackage (Json F) F :=
  p.map .str

end map

/-! ## Documents -/

section toDict

variable {F : Type}

/-- Source: `models.py`, `FindingCommitment.to_dict`. Kind: D -/
def FindingCommitment.toDict (c : FindingCommitment (Json F)) : Json F :=
  .obj [("finding_id", c.findingId), ("rule_id", c.ruleId), ("severity", c.severity), ("cwe", c.cwe),
    ("file_path", c.filePath), ("line_number", .int c.lineNumber),
    ("finding_fingerprint", c.findingFingerprint)]

/-- Source: `models.py`, `EvidenceCommitment.to_dict`. Kind: D -/
def EvidenceCommitment.toDict (c : EvidenceCommitment (Json F)) : Json F :=
  .obj [("evidence_count", .int c.evidenceCount), ("evidence_fingerprint", c.evidenceFingerprint)]

/-- Source: `models.py`, `RootCauseCommitment.to_dict`. Kind: D -/
def RootCauseCommitment.toDict (c : RootCauseCommitment (Json F) F) : Json F :=
  .obj [("rca_category", c.rcaCategory), ("confidence", .float c.confidence),
    ("rca_fingerprint", c.rcaFingerprint)]

/-- Source: `models.py`, `StrategyCommitment.to_dict`. Kind: D -/
def StrategyCommitment.toDict (c : StrategyCommitment (Json F)) : Json F :=
  .obj [("strategy_type", c.strategyType), ("target_file", c.targetFile),
    ("strategy_fingerprint", c.strategyFingerprint)]

/-- Source: `models.py`, `ProposalCommitment.to_dict`. Kind: D -/
def ProposalCommitment.toDict (c : ProposalCommitment (Json F)) : Json F :=
  .obj [("proposal_id", c.proposalId), ("risk_level", c.riskLevel), ("target_files", .arr c.targetFiles),
    ("proposal_fingerprint", c.proposalFingerprint)]

/-- Source: `models.py`, `ApprovalCommitment.to_dict`. Kind: D -/
def ApprovalCommitment.toDict (c : ApprovalCommitment (Json F)) : Json F :=
  .obj [("approval_token_id", c.approvalTokenId), ("approver", c.approver),
    ("approval_status", c.approvalStatus), ("approval_fingerprint", c.approvalFingerprint)]

/-- Source: `models.py`, `ApplicationCommitment.to_dict`. Kind: D -/
def ApplicationCommitment.toDict (c : ApplicationCommitment (Json F)) : Json F :=
  .obj [("source_snapshot_hash", c.sourceSnapshotHash),
    ("post_apply_snapshot_hash", c.postApplySnapshotHash), ("application_status", c.applicationStatus)]

/-- Source: `models.py`, `VerificationCommitment.to_dict`. Kind: D -/
def VerificationCommitment.toDict (c : VerificationCommitment (Json F)) : Json F :=
  .obj [("verification_run_id", c.verificationRunId), ("status", c.status),
    ("matching_findings_count", .int c.matchingFindingsCount),
    ("verification_fingerprint", c.verificationFingerprint)]

/-- Source: `models.py`, `ProvenanceCommitment.to_dict`. Kind: D -/
def ProvenanceCommitment.toDict (c : ProvenanceCommitment (Json F)) : Json F :=
  .obj [("graph_fingerprint", c.graphFingerprint)]

/-- Source: `models.py`, `AuditCommitment.to_dict`. Kind: D -/
def AuditCommitment.toDict (c : AuditCommitment (Json F)) : Json F :=
  .obj [("ledger_fingerprint", c.ledgerFingerprint)]

/-- `x.to_dict() if x else None`. Kind: D -/
def optionalDict {α : Type} (toDict : α → Json F) : Option α → Json F
  | some c => toDict c
  | none => .null

namespace RemediationTransactionPackage

/-- The members that are hashed, under a repository identity.
Source: `models.py`, `compute_package_fingerprint`, `payload`
Kind: D -/
def members (p : RemediationTransactionPackage (Json F) F) (repositoryIdentity : Json F) :
    List (String × Json F) :=
  [("schema_name", p.schemaName), ("schema_version", p.schemaVersion),
    ("transaction_id", p.transactionId), ("repository_identity", repositoryIdentity),
    ("created_at", p.createdAt), ("status", p.status), ("finding", p.finding.toDict),
    ("evidence", optionalDict EvidenceCommitment.toDict p.evidence),
    ("root_cause", optionalDict RootCauseCommitment.toDict p.rootCause),
    ("strategy", optionalDict StrategyCommitment.toDict p.strategy),
    ("proposal", optionalDict ProposalCommitment.toDict p.proposal),
    ("approval", optionalDict ApprovalCommitment.toDict p.approval),
    ("application", optionalDict ApplicationCommitment.toDict p.application),
    ("verification", optionalDict VerificationCommitment.toDict p.verification),
    ("provenance", p.provenance.toDict), ("audit", p.audit.toDict)]

/-- Source: `models.py`, `RemediationTransactionPackage.to_dict`. Kind: D -/
def toDict (p : RemediationTransactionPackage (Json F) F) : List (String × Json F) :=
  p.members p.repositoryIdentity ++ [("receipt_fingerprint", p.receiptFingerprint)]

end RemediationTransactionPackage

end toDict

/-! ## The runtime -/

/-- What the language does with the values of a package besides writing them as text. Kind: D -/
structure Runtime (F : Type) extends Wording F where
  floats : Floats F
  /-- Lower-case letters and underscores have no other lower case. -/
  lower_lower : ∀ s, (s.toList.all fun c => c.isLower || c = '_') = true → lower s = s
  /-- `int(x)` of a float. -/
  truncate : F → Except String ℤ
  /-- `int(s)` of a text. -/
  intOfText : String → Except String ℤ
  /-- `float(n)` of an integer. -/
  floatOfInt : ℤ → Except String F
  /-- `float(s)` of a text. -/
  floatOfText : String → Except String F
  /-- The message of the decoder for a text that is no document. -/
  decodeError : String → String
  /-- The text of bytes, in the encoding that the decoder detects. -/
  decodeBytes : ByteArray → Except String String

section canonical

variable {F : Type} (rt : Runtime F)

/-- The canonical text of a document. Documents are built of values that stay as they are when they are
normalised.
Source: `canonical.py`, `canonicalize`
Kind: D -/
def canonicalize (data : Json F) : ByteArray := encodeUtf8 (data.sortKeys.dumps rt.floats)

/-- Source: `canonical.py`, `compute_canonical_hash`. Kind: D -/
def computeCanonicalHash (host : Host) (data : Json F) : String := host.sha256 (canonicalize rt data)

/-- `identity.replace("\\", "/").rstrip("/")`. Source: `models.py`, `compute_package_fingerprint`. Kind: D -/
@[irreducible] def normIdentity (identity : String) : String := rstripChar '/' (normSlashes identity)

/-- Source: `models.py`, `compute_package_fingerprint`. Kind: D -/
def RemediationTransactionPackage.computePackageFingerprint (host : Host)
    (p : RemediationTransactionPackage (Json F) F) : Except String String := do
  let identity ← p.repositoryIdentity.asStr
  return computeCanonicalHash rt host (.obj (p.members (.str (normIdentity identity))))

/-! ## Validation -/

/-- Source: `builder.py`, `_PROHIBITED_METADATA_KEYS`. Kind: D -/
def prohibitedMetadataKeys : List String :=
  ["source_code", "raw_source", "diff", "patch_content", "original_text", "proposed_text", "password",
    "secret", "api_key", "access_token"]

/-- A key that has a prohibited one in it. Source: `validator.py`, `_contains_prohibited_privacy_data`. Kind: D -/
def isProhibitedKey (key : String) : Bool :=
  prohibitedMetadataKeys.any fun prohib => inStr prohib (strip (rt.lower key))

mutual

/-- The complaint about the first prohibited key in a value.
Source: `validator.py`, `_contains_prohibited_privacy_data`
Kind: D -/
def containsProhibitedPrivacyData : Json F → Option String
  | .obj members => prohibitedMember members
  | .arr items => prohibitedItem items
  | _ => none

/-- The loop over the members of a mapping. Kind: D -/
def prohibitedMember : List (String × Json F) → Option String
  | [] => none
  | (k, v) :: rest =>
    if isProhibitedKey rt k then some ("Prohibited key '" ++ k ++ "' detected in metadata")
    else match containsProhibitedPrivacyData v with
      | some res => some res
      | none => prohibitedMember rest

/-- The loop over the items of a list. Kind: D -/
def prohibitedItem : List (Json F) → Option String
  | [] => none
  | v :: rest =>
    match containsProhibitedPrivacyData v with
    | some res => some res
    | none => prohibitedItem rest

end

/-- Source: `models.py`, `IntegrityStatus`. Kind: D -/
inductive IntegrityStatus
  | valid
  | invalid
  deriving DecidableEq, Repr

/-- Source: `models.py`, `SecurityVerificationStatus`. Kind: D -/
inductive SecurityVerificationStatus
  | securityVerified
  | securityNotVerified
  deriving DecidableEq, Repr

/-- Source: `models.py`, `RTPValidationResult`. Kind: D -/
structure RTPValidationResult where
  isValid : Bool
  integrityStatus : IntegrityStatus
  securityVerificationStatus : SecurityVerificationStatus
  errors : List String
  warnings : List String
  deriving DecidableEq

/-- Source: `models.py`, `RTP_SCHEMA_NAME`. Kind: D -/
def rtpSchemaName : String := "karsasec-remediation-transaction"

/-- Source: `models.py`, `RTP_SCHEMA_VERSION`. Kind: D -/
def rtpSchemaVersion : String := "1.0"

namespace RTPValidator

/-- An error if a check fails. Kind: D -/
def errorUnless (check : Bool) (message : String) : List String := if check then [] else [message]

/-- Source: `validator.py`, `validate`, stage 1. Kind: D -/
def schemaErrors (rtp : RemediationTransactionPackage (Json F) F) : List String :=
  errorUnless (rtp.schemaName.isText rtpSchemaName)
      ("Schema name mismatch: expected '" ++ rtpSchemaName ++ "', got '" ++ rt.text rtp.schemaName ++ "'")
    ++ errorUnless (rtp.schemaVersion.isText rtpSchemaVersion)
      ("Schema version mismatch: expected '" ++ rtpSchemaVersion ++ "', got '"
        ++ rt.text rtp.schemaVersion ++ "'")

/-- Source: `validator.py`, `validate`, stage 2. Kind: D -/
def privacyErrors (rtp : RemediationTransactionPackage (Json F) F) : List String :=
  match containsProhibitedPrivacyData rt (.obj rtp.toDict) with
  | some privacyErr => ["Privacy boundary violation: " ++ privacyErr]
  | none => []

/-- Source: `validator.py`, `validate`, stage 4. Kind: D -/
def bindingErrors (rtp : RemediationTransactionPackage (Json F) F) : Except String (List String) :=
  match rtp.strategy with
  | none => .ok []
  | some strategy =>
    if rtp.finding.filePath.truthy rt.toWording then do
      let normFindingFile := normSlashes (← rtp.finding.filePath.asStr)
      let normStratFile := normSlashes (← strategy.targetFile.asStr)
      return errorUnless (normFindingFile = normStratFile)
        ("Binding mismatch: finding file '" ++ normFindingFile ++ "' != strategy target '"
          ++ normStratFile ++ "'")
    else .ok []

/-- Stages 7 to 9: whether the fix is verified, and the warning if it is not.
Source: `validator.py`, `validate`
Kind: D -/
def securityDecision (rtp : RemediationTransactionPackage (Json F) F) : Bool × List String :=
  match rtp.verification with
  | none => (false, ["No verification evidence present in transaction package"])
  | some v =>
    if v.status.isText "VERIFIED_FIXED" ∧ v.matchingFindingsCount = 0 then
      match rtp.application with
      | none => (true, [])
      | some application =>
        if application.applicationStatus.isText "APPLIED" then (true, [])
        else (false, ["Verification status is VERIFIED_FIXED but application status is not APPLIED"])
    else
      (false, ["Verification status '" ++ rt.text v.status ++ "' or matching findings "
        ++ toString v.matchingFindingsCount ++ " does not prove fix"])

/-- Source: `validator.py`, `RTPValidator.validate`. Kind: D -/
def validate (host : Host) (rtp : RemediationTransactionPackage (Json F) F) :
    Except String RTPValidationResult := do
  let expectedPkgFp ← rtp.computePackageFingerprint rt host
  let binding ← bindingErrors rt rtp
  let errors := schemaErrors rt rtp ++ privacyErrors rt rtp
    ++ errorUnless (rtp.receiptFingerprint.isText expectedPkgFp)
      "Package fingerprint tampering detected: SHA-256 digest mismatch"
    ++ binding
    ++ errorUnless (rtp.provenance.graphFingerprint.truthy rt.toWording)
      "Missing provenance graph fingerprint commitment"
    ++ errorUnless (rtp.audit.ledgerFingerprint.truthy rt.toWording)
      "Missing audit ledger fingerprint commitment"
  let integrityOk := errors.isEmpty
  let (securityVerified, warnings) := if integrityOk then securityDecision rt rtp else (false, [])
  return { isValid := integrityOk
           integrityStatus := if integrityOk then .valid else .invalid
           securityVerificationStatus :=
             if securityVerified then .securityVerified else .securityNotVerified
           errors, warnings }

end RTPValidator

/-! ## Exchange -/

/-- Source: `serialization.py`, `export_rtp`. Kind: D -/
def exportRtp (rtp : RemediationTransactionPackage (Json F) F) : Option String :=
  (decodeUtf8 (canonicalize rt (.obj rtp.toDict))).map String.ofList

/-- The exceptions of an import. Source: `errors.py`. Kind: D -/
inductive RtpError
  | serialization (message : String)
  | privacy (message : String)
  deriving DecidableEq

/-- An exception while a package is read: a `KeyError`, or another one. Kind: D -/
inductive Raised
  | key (missingKey : String)
  | other (message : String)

/-- What is raised by an operation of the language. Kind: D -/
def raising {α : Type} (x : Except String α) : Except Raised α := x.mapError Raised.other

/-- `value[key]` of a value that need not be a mapping. Kind: D -/
def item (key : String) : Json F → Except Raised (Json F)
  | .obj members =>
    match Dict.lookup key members with
    | some v => .ok v
    | none => .error (.key key)
  | .str _ => .error (.other "string indices must be integers, not 'str'")
  | .arr _ => .error (.other "list indices must be integers or slices, not str")
  | _ => .error (.other "object is not subscriptable")

/-- `int(value)`. Kind: D -/
def intOf : Json F → Except String ℤ
  | .int n => .ok n
  | .bool b => .ok (if b then 1 else 0)
  | .float x => rt.truncate x
  | .str s => rt.intOfText s
  | _ => .error "int() argument must be a string, a bytes-like object or a real number"

/-- `float(value)`. Kind: D -/
def floatOf : Json F → Except String F
  | .float x => .ok x
  | .int n => rt.floatOfInt n
  | .bool b => rt.floatOfInt (if b then 1 else 0)
  | .str s => rt.floatOfText s
  | _ => .error "float() argument must be a string or a real number"

/-- The section under a key, if there is something. Source: `serialization.py`, `if d.get(…)`. Kind: D -/
def optionalSection {α : Type} (d : List (String × Json F)) (key : String)
    (read : Json F → Except Raised α) : Except Raised (Option α) :=
  let raw := Json.getD key d .null
  if raw.truthy rt.toWording then (read raw).map some else .ok none

/-- Source: `serialization.py`, `import_rtp`, `finding`. Kind: D -/
def readFinding (raw : Json F) : Except Raised (FindingCommitment (Json F)) := do
  return { findingId := ← item "finding_id" raw
           ruleId := ← item "rule_id" raw
           severity := ← item "severity" raw
           cwe := ← item "cwe" raw
           filePath := ← item "file_path" raw
           lineNumber := ← raising (intOf rt (← item "line_number" raw))
           findingFingerprint := ← item "finding_fingerprint" raw }

/-- Source: `serialization.py`, `import_rtp`, `evidence`. Kind: D -/
def readEvidence (raw : Json F) : Except Raised (EvidenceCommitment (Json F)) := do
  return { evidenceCount := ← raising (intOf rt (← item "evidence_count" raw))
           evidenceFingerprint := ← item "evidence_fingerprint" raw }

/-- Source: `serialization.py`, `import_rtp`, `root_cause`. Kind: D -/
def readRootCause (raw : Json F) : Except Raised (RootCauseCommitment (Json F) F) := do
  return { rcaCategory := ← item "rca_category" raw
           confidence := ← raising (floatOf rt (← item "confidence" raw))
           rcaFingerprint := ← item "rca_fingerprint" raw }

/-- Source: `serialization.py`, `import_rtp`, `strategy`. Kind: D -/
def readStrategy (raw : Json F) : Except Raised (StrategyCommitment (Json F)) := do
  return { strategyType := ← item "strategy_type" raw
           targetFile := ← item "target_file" raw
           strategyFingerprint := ← item "strategy_fingerprint" raw }

/-- Source: `serialization.py`, `import_rtp`, `proposal`. Kind: D -/
def readProposal (raw : Json F) : Except Raised (ProposalCommitment (Json F)) := do
  return { proposalId := ← item "proposal_id" raw
           riskLevel := ← item "risk_level" raw
           targetFiles := ← raising (← item "target_files" raw).iterate
           proposalFingerprint := ← item "proposal_fingerprint" raw }

/-- Source: `serialization.py`, `import_rtp`, `approval`. Kind: D -/
def readApproval (raw : Json F) : Except Raised (ApprovalCommitment (Json F)) := do
  return { approvalTokenId := ← item "approval_token_id" raw
           approver := ← item "approver" raw
           approvalStatus := ← item "approval_status" raw
           approvalFingerprint := ← item "approval_fingerprint" raw }

/-- Source: `serialization.py`, `import_rtp`, `application`. Kind: D -/
def readApplication (raw : Json F) : Except Raised (ApplicationCommitment (Json F)) := do
  return { sourceSnapshotHash := ← item "source_snapshot_hash" raw
           postApplySnapshotHash := ← item "post_apply_snapshot_hash" raw
           applicationStatus := ← item "application_status" raw }

/-- Source: `serialization.py`, `import_rtp`, `verification`. Kind: D -/
def readVerification (raw : Json F) : Except Raised (VerificationCommitment (Json F)) := do
  return { verificationRunId := ← item "verification_run_id" raw
           status := ← item "status" raw
           matchingFindingsCount := ← raising (intOf rt (← item "matching_findings_count" raw))
           verificationFingerprint := ← item "verification_fingerprint" raw }

/-- The body of the `try` block. Source: `serialization.py`, `import_rtp`. Kind: D -/
def readPackage (d : List (String × Json F)) :
    Except Raised (RemediationTransactionPackage (Json F) F) := do
  let schemaName := Json.getD "schema_name" d (.str rtpSchemaName)
  let schemaVersion := Json.getD "schema_version" d (.str rtpSchemaVersion)
  let transactionId ← item "transaction_id" (.obj d)
  let repositoryIdentity ← item "repository_identity" (.obj d)
  let createdAt ← item "created_at" (.obj d)
  let status ← item "status" (.obj d)
  let finding ← readFinding rt (← item "finding" (.obj d))
  let evidence ← optionalSection rt d "evidence" (readEvidence rt)
  let rootCause ← optionalSection rt d "root_cause" (readRootCause rt)
  let strategy ← optionalSection rt d "strategy" readStrategy
  let proposal ← optionalSection rt d "proposal" readProposal
  let approval ← optionalSection rt d "approval" readApproval
  let application ← optionalSection rt d "application" readApplication
  let verification ← optionalSection rt d "verification" (readVerification rt)
  let graphFingerprint ← item "graph_fingerprint" (← item "provenance" (.obj d))
  let ledgerFingerprint ← item "ledger_fingerprint" (← item "audit" (.obj d))
  let receiptFingerprint ← item "receipt_fingerprint" (.obj d)
  return { schemaName, schemaVersion, transactionId, repositoryIdentity, createdAt, status, finding,
           evidence, rootCause, strategy, proposal, approval, application, verification
           provenance := ⟨graphFingerprint⟩
           audit := ⟨ledgerFingerprint⟩
           receiptFingerprint }

/-- Source: `serialization.py`, `import_rtp`, after the document is decoded. Kind: D -/
def importDict (d : List (String × Json F)) :
    Except RtpError (RemediationTransactionPackage (Json F) F) :=
  match containsProhibitedPrivacyData rt (.obj d) with
  | some privacyErr => .error (.privacy ("Privacy boundary violation in payload: " ++ privacyErr))
  | none =>
    match readPackage rt d with
    | .ok rtp => .ok rtp
    | .error (.key missingKey) =>
      .error (.serialization ("Missing required RTP dictionary key: '" ++ missingKey ++ "'"))
    | .error (.other err) => .error (.serialization ("Failed to deserialize RTP dictionary: " ++ err))

/-- What an import is given. Kind: D -/
inductive ImportData (F : Type) where
  | text (data : String)
  | bytes (data : ByteArray)
  | dict (data : List (String × Json F))
  | other (typeName : String)

/-- An import of a text. Source: `serialization.py`, `import_rtp`. Kind: D -/
def importText (data : String) : Except RtpError (RemediationTransactionPackage (Json F) F) :=
  match Json.loads rt.floats data.toList with
  | none => .error (.serialization ("Malformed JSON payload: " ++ rt.decodeError data))
  | some (.obj d) => importDict rt d
  | some _ => .error (.serialization "RTP JSON payload must resolve to a JSON dictionary object")

/-- Source: `serialization.py`, `import_rtp`. Kind: D -/
def importRtp : ImportData F → Except RtpError (RemediationTransactionPackage (Json F) F)
  | .text data => importText rt data
  | .bytes data =>
    match rt.decodeBytes data with
    | .ok text => importText rt text
    | .error err => .error (.serialization ("Malformed JSON payload: " ++ err))
  | .dict d => importDict rt d
  | .other typeName => .error (.serialization ("Unsupported import type: '" ++ typeName ++ "'"))

end canonical

end KarsaSec.Remediation
