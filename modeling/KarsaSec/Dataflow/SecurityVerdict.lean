import KarsaSec.Found.Text

/-!
# Security verdicts

The immutable records of a security decision and the two fingerprints they carry.

* `VerdictStatus`, `DecisionReason`, `VerdictConfidence`, `EvidenceReference` and
  `SecurityVerdict` are the records of `graph/dataflow/security_verdict.py`.
* `computeEvidenceFingerprint` hashes the security-relevant fields, each list sorted except the
  provenance path; `SecurityVerdict.create` derives the canonical fingerprint and the verdict id.
-/

namespace KarsaSec.Dataflow

open KarsaSec.Found

/-- Status of a security verdict. Source: `security_verdict.py`, `VerdictStatus`. Kind: D -/
inductive VerdictStatus
  | vulnerable
  | safe
  | unknown
  | notProven
  deriving DecidableEq, Repr

/-- The string value of a status. Source: `security_verdict.py`, `VerdictStatus`. Kind: D -/
def VerdictStatus.value : VerdictStatus → String
  | vulnerable => "VULNERABLE"
  | safe => "SAFE"
  | unknown => "UNKNOWN"
  | notProven => "NOT_PROVEN"

/-- Machine-readable decision reasons.
Source: `security_verdict.py`, `DecisionReason`
Kind: D -/
inductive DecisionReason
  | taintReachesSink
  | sanitizerCompatible
  | sanitizerIncompatible
  | guardProven
  | guardNotProven
  | transformationProven
  | transformationNotProven
  | reassignmentInvalidated
  | sinkCompatibilityProven
  | sinkCompatibilityNotProven
  | sourceProvenance
  | callContextIsolated
  | ssaVersionIsolated
  | pathConstraintProven
  | pathConstraintNotProven
  | unknownEvidence
  | nonConvergedAnalysis
  deriving DecidableEq, Repr

/-- The string value of a reason. Source: `security_verdict.py`, `DecisionReason`. Kind: D -/
def DecisionReason.value : DecisionReason → String
  | taintReachesSink => "TAINT_REACHES_SINK"
  | sanitizerCompatible => "SANITIZER_COMPATIBLE"
  | sanitizerIncompatible => "SANITIZER_INCOMPATIBLE"
  | guardProven => "GUARD_PROVEN"
  | guardNotProven => "GUARD_NOT_PROVEN"
  | transformationProven => "TRANSFORMATION_PROVEN"
  | transformationNotProven => "TRANSFORMATION_NOT_PROVEN"
  | reassignmentInvalidated => "REASSIGNMENT_INVALIDATED"
  | sinkCompatibilityProven => "SINK_COMPATIBILITY_PROVEN"
  | sinkCompatibilityNotProven => "SINK_COMPATIBILITY_NOT_PROVEN"
  | sourceProvenance => "SOURCE_PROVENANCE"
  | callContextIsolated => "CALL_CONTEXT_ISOLATED"
  | ssaVersionIsolated => "SSA_VERSION_ISOLATED"
  | pathConstraintProven => "PATH_CONSTRAINT_PROVEN"
  | pathConstraintNotProven => "PATH_CONSTRAINT_NOT_PROVEN"
  | unknownEvidence => "UNKNOWN_EVIDENCE"
  | nonConvergedAnalysis => "NON_CONVERGED_ANALYSIS"

/-- Confidence of a verdict. Source: `security_verdict.py`, `VerdictConfidence`. Kind: D -/
inductive VerdictConfidence
  | high
  | medium
  | low
  deriving DecidableEq, Repr

/-- A reference to a piece of evidence.
Source: `security_verdict.py`, `EvidenceReference`
Kind: D -/
structure EvidenceReference where
  evidenceId : String
  evidenceKind : String
  sourceNode : String
  sinkNode : String
  filePath : String
  lineNumber : ℤ
  varVersion : String
  callContextId : String
  branchPolarity : String
  proofStatus : String
  description : String
  deriving DecidableEq

/-- The string that the evidence fingerprint hashes.
Source: `security_verdict.py`, `compute_evidence_fingerprint`
Kind: D -/
def evidenceFingerprintRaw (ruleId sinkCategory filePath functionName : String) (lineNumber : ℤ)
    (varVersion : String) (callContext : Option String) (branchPolarity : String)
    (sourceIds provenancePath : List String) (reasonCodes : List DecisionReason)
    (evidences : List EvidenceReference) : String :=
  joinStr "|" ["rule:" ++ strip ruleId, "category:" ++ upper (strip sinkCategory),
    "file:" ++ lower (strip (normSlashes filePath)), "func:" ++ strip functionName,
    "line:" ++ toString lineNumber, "var_version:" ++ strip varVersion,
    "call_context:" ++ strip (callContext.getD ""), "branch_polarity:" ++ strip branchPolarity,
    "sources:" ++ joinStr "," (sortStrings sourceIds), "prov:" ++ joinStr "->" provenancePath,
    "reasons:" ++ joinStr "," (sortStrings (reasonCodes.map DecisionReason.value)),
    "ev_ids:" ++ joinStr "," (sortStrings (evidences.map EvidenceReference.evidenceId))]

/-- The first `n` characters of a digest. Kind: D -/
def shortDigest (sha256 : ByteArray → String) (n : ℕ) (raw : String) : String :=
  String.ofList ((sha256 raw.toByteArray).toList.take n)

/-- The fingerprint of the security-relevant evidence.
Source: `security_verdict.py`, `compute_evidence_fingerprint`
Kind: D -/
def computeEvidenceFingerprint (sha256 : ByteArray → String)
    (ruleId sinkCategory filePath functionName : String) (lineNumber : ℤ) (varVersion : String)
    (callContext : Option String) (branchPolarity : String)
    (sourceIds provenancePath : List String) (reasonCodes : List DecisionReason)
    (evidences : List EvidenceReference) : String :=
  shortDigest sha256 32 (evidenceFingerprintRaw ruleId sinkCategory filePath functionName
    lineNumber varVersion callContext branchPolarity sourceIds provenancePath reasonCodes
    evidences)

/-- An immutable, evidence-backed security decision.
Source: `security_verdict.py`, `SecurityVerdict`
Kind: D -/
structure SecurityVerdict where
  verdictId : String
  status : VerdictStatus
  confidence : VerdictConfidence
  ruleId : String
  sinkId : String
  sinkCategory : String
  filePath : String
  functionName : String
  lineNumber : ℤ
  variableVersion : String
  callContext : Option String
  branchPolarity : String
  reasonCodes : List DecisionReason
  sourceIds : List String
  provenancePath : List String
  evidenceReferences : List EvidenceReference
  compatibilityDecision : Option String
  matchingConstraint : Option String
  evidenceFingerprint : String
  canonicalFingerprint : String
  deriving DecidableEq

/-- The factory: the fingerprints and the id are derived from the other fields. An empty
compatibility decision is written `NONE`, like a missing one.
Source: `security_verdict.py`, `SecurityVerdict.create`
Kind: D -/
def SecurityVerdict.create (sha256 : ByteArray → String) (status : VerdictStatus)
    (confidence : VerdictConfidence) (ruleId sinkId sinkCategory filePath functionName : String)
    (lineNumber : ℤ) (variableVersion : String) (callContext : Option String)
    (branchPolarity : String) (reasonCodes : List DecisionReason)
    (sourceIds provenancePath : List String) (evidenceReferences : List EvidenceReference)
    (compatibilityDecision matchingConstraint : Option String) : SecurityVerdict :=
  let evFp := computeEvidenceFingerprint sha256 ruleId sinkCategory filePath functionName
    lineNumber variableVersion callContext branchPolarity sourceIds provenancePath reasonCodes
    evidenceReferences
  let decision := if compatibilityDecision.getD "" = "" then "NONE"
    else compatibilityDecision.getD ""
  let canonFp := shortDigest sha256 32 (joinStr "|" [status.value, evFp, decision])
  { verdictId := "verdict_" ++ String.ofList (canonFp.toList.take 16)
    status, confidence, ruleId, sinkId, sinkCategory, filePath, functionName, lineNumber,
    variableVersion, callContext, branchPolarity, reasonCodes, sourceIds, provenancePath,
    evidenceReferences, compatibilityDecision, matchingConstraint
    evidenceFingerprint := evFp
    canonicalFingerprint := canonFp }

end KarsaSec.Dataflow
