import KarsaSec.Found.Text

/-!
# Patch proposals

The data a remediation proposal is made of: hunks, the proposal with its unified diff, and the
fingerprint a human approval is bound to.

* `PatchHunk`, `PatchProposal` and `PatchValidationStatus` are the records of
  `ai/remediation/models.py`.
* `PatchProposal.computeFingerprint` hashes the finding, the sorted target files, the stripped
  diff and the status. The hunks are not among the hashed fields.
* `RemediationStrategy` is what a proposal is made for.
* `sha256` stands for `hashlib.sha256(..).hexdigest()` throughout the remediation modules.
-/

namespace KarsaSec.Remediation

open KarsaSec.Found

/-- The text of a file or of a hunk. Kind: D -/
abbrev Text := List Char

/-- Validation status of a generated proposal.
Source: `models.py`, `PatchValidationStatus`
Kind: D -/
inductive PatchValidationStatus
  | valid
  | invalid
  | incomplete
  | notProven
  | requiresHumanReview
  deriving DecidableEq, Repr

/-- The string value of a status. Source: `models.py`, `PatchValidationStatus`. Kind: D -/
def PatchValidationStatus.value : PatchValidationStatus → String
  | valid => "VALID"
  | invalid => "INVALID"
  | incomplete => "INCOMPLETE"
  | notProven => "NOT_PROVEN"
  | requiresHumanReview => "REQUIRES_HUMAN_REVIEW"

/-- One edit of one file. Lines are counted from 1.
Source: `models.py`, `PatchHunk`
Kind: D -/
structure PatchHunk where
  filePath : String
  startLine : ℤ
  endLine : ℤ
  originalText : Text
  proposedText : Text
  context : Text
  evidenceReference : String
  deriving DecidableEq

/-- A data-only patch proposal.
Source: `models.py`, `PatchProposal`
Kind: D -/
structure PatchProposal where
  proposalId : String
  findingId : String
  targetFiles : List String
  hunks : List PatchHunk
  unifiedDiff : Text
  rationale : String
  rootCauseReference : String
  evidenceReferences : List String
  expectedEffect : String
  riskLevel : String
  assumptions : List String
  validationStatus : PatchValidationStatus
  proposalFingerprint : String
  deriving DecidableEq

/-- The string that the proposal fingerprint hashes.
Source: `models.py`, `PatchProposal.compute_fingerprint`
Kind: D -/
def PatchProposal.fingerprintRaw (findingId : String) (targetFiles : List String)
    (unifiedDiff : Text) (status : PatchValidationStatus) : String :=
  let sortedFiles := joinStr "|" (sortStrings (targetFiles.map normSlashes))
  joinStr "|" [findingId, sortedFiles, String.ofList (stripList unifiedDiff), status.value]

/-- The fingerprint a human approves.
Source: `models.py`, `PatchProposal.compute_fingerprint`
Kind: D -/
def PatchProposal.computeFingerprint (sha256 : ByteArray → String) (findingId : String)
    (targetFiles : List String) (unifiedDiff : Text) (status : PatchValidationStatus) : String :=
  sha256 (fingerprintRaw findingId targetFiles unifiedDiff status).toByteArray

/-! ## Strategies -/

/-- Kinds of remediation strategies. Source: `models.py`, `RemediationStrategyType`. Kind: D -/
inductive RemediationStrategyType
  | addInputValidation
  | addOutputEncoding
  | replaceUnsafeApi
  | addAuthorizationCheck
  | addParameterization
  | addCsrfProtection
  | removeSecret
  | addSecurityHeader
  | fixInsecureConfiguration
  | constrainDataFlow
  | refactorUnsafeTransformation
  | manualReviewRequired
  | unknownRemediation
  deriving DecidableEq, Repr

/-- The string value of a kind. Source: `models.py`, `RemediationStrategyType`. Kind: D -/
def RemediationStrategyType.value : RemediationStrategyType → String
  | addInputValidation => "ADD_INPUT_VALIDATION"
  | addOutputEncoding => "ADD_OUTPUT_ENCODING"
  | replaceUnsafeApi => "REPLACE_UNSAFE_API"
  | addAuthorizationCheck => "ADD_AUTHORIZATION_CHECK"
  | addParameterization => "ADD_PARAMETERIZATION"
  | addCsrfProtection => "ADD_CSRF_PROTECTION"
  | removeSecret => "REMOVE_SECRET"
  | addSecurityHeader => "ADD_SECURITY_HEADER"
  | fixInsecureConfiguration => "FIX_INSECURE_CONFIGURATION"
  | constrainDataFlow => "CONSTRAIN_DATA_FLOW"
  | refactorUnsafeTransformation => "REFACTOR_UNSAFE_TRANSFORMATION"
  | manualReviewRequired => "MANUAL_REVIEW_REQUIRED"
  | unknownRemediation => "UNKNOWN_REMEDIATION"

/-- A remediation strategy, as far as proposals use it.
Source: `models.py`, `RemediationStrategy`
Kind: D -/
structure RemediationStrategy where
  findingId : String
  rootCauseCategory : String
  strategyType : RemediationStrategyType
  rationale : String
  targetFile : String
  evidenceReferences : List String
  assumptions : List String

end KarsaSec.Remediation
