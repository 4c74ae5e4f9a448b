import KarsaSec.Findings.Model

/-!
# Verification after a patch

`PostApplyVerificationEngine.verify` compares the findings of a fresh scan with the contract of the
finding that the patch was made for.

* `VerificationContract.ofFinding` is the contract; `matchesContract` decides whether a fresh finding
  is the same vulnerability.
* `verify_status`: the verifier answers `VERIFIED_FIXED` exactly when no fresh finding matches, and
  `STILL_VULNERABLE` otherwise.
* `Redetects` is a fresh finding that leaves the vulnerability open; `fixed_only_if_gone_iff`: a fix is
  reported rightly exactly when some open finding is also one that the verifier counts.
-/

namespace KarsaSec.Remediation

open KarsaSec.Found KarsaSec.Dataflow KarsaSec.Findings

/-- State of the verification of an applied patch.
Source: `verification.py`, `VerificationStatus`
Kind: D -/
inductive VerificationStatus
  | unverified
  | verifiedFixed
  | stillVulnerable
  | unknown
  | verificationFailed
  | rollbackRequired
  deriving DecidableEq, Repr

/-- The string value of a state. Source: `verification.py`, `VerificationStatus`. Kind: D -/
def VerificationStatus.value : VerificationStatus → String
  | unverified => "UNVERIFIED"
  | verifiedFixed => "VERIFIED_FIXED"
  | stillVulnerable => "STILL_VULNERABLE"
  | unknown => "UNKNOWN"
  | verificationFailed => "VERIFICATION_FAILED"
  | rollbackRequired => "ROLLBACK_REQUIRED"

/-- The security properties of a finding before the patch.
Source: `verification.py`, `VerificationContract`
Kind: D -/
structure VerificationContract where
  findingId : String
  ruleId : String
  cweId : String
  sinkCategory : String
  filePath : String
  lineNumber : ℤ
  affectedSymbol : String
  evidenceFingerprint : String
  deriving DecidableEq

/-- `finding.cwe_id or "UNKNOWN"`. Kind: D -/
def cweOrUnknown (f : Finding) : String := if f.cweId = "" then "UNKNOWN" else f.cweId

/-- `v.sink_category if v else "UNKNOWN"`. Kind: D -/
def verdictCategory (f : Finding) : String :=
  (f.verdict.map SecurityVerdict.sinkCategory).getD "UNKNOWN"

/-- Source: `verification.py`, `VerificationContract.from_finding`. Kind: D -/
def VerificationContract.ofFinding (f : Finding) : VerificationContract :=
  { findingId := f.findingId
    ruleId := f.ruleId
    cweId := cweOrUnknown f
    sinkCategory := verdictCategory f
    filePath := normSlashes f.filePath
    lineNumber := match f.evidence with
      | some e => e.line
      | none => (f.verdict.map SecurityVerdict.lineNumber).getD 0
    affectedSymbol := (f.verdict.map SecurityVerdict.variableVersion).getD "UNKNOWN"
    evidenceFingerprint := (f.verdict.map SecurityVerdict.evidenceFingerprint).getD f.fingerprint }

/-- Result of a verification. Source: `verification.py`, `VerificationResult`. Kind: D -/
structure VerificationResult where
  verificationId : String
  findingId : String
  preApplyVerdictStatus : String
  postApplyVerdictStatus : String
  status : VerificationStatus
  contract : VerificationContract
  matchingFindingsCount : ℕ
  details : String
  deriving DecidableEq

/-- Whether a fresh finding is the vulnerability of the contract: same file, same rule or CWE, same
sink category, and an active verdict.
Source: `verification.py`, `PostApplyVerificationEngine.verify`, loop body
Kind: D -/
def matchesContract (contract : VerificationContract) (post : Finding) : Bool :=
  normSlashes post.filePath = contract.filePath
    && (post.ruleId = contract.ruleId
      || (contract.cweId ≠ "UNKNOWN" && cweOrUnknown post = contract.cweId))
    && (verdictCategory post = contract.sinkCategory || contract.sinkCategory = "UNKNOWN")
    && (match post.verdict with
      | none => true
      | some v => v.status = .vulnerable)

/-- Source: `verification.py`, `PostApplyVerificationEngine.verify`. Kind: D -/
def verify (vid : String) (finding : Finding) (postApplyFindings : List Finding) :
    VerificationResult :=
  let contract := VerificationContract.ofFinding finding
  let matchCount := (postApplyFindings.filter (matchesContract contract)).length
  { verificationId := vid
    findingId := finding.findingId
    preApplyVerdictStatus := (finding.verdict.map fun v => v.status.value).getD "VULNERABLE"
    postApplyVerdictStatus := if matchCount = 0 then "SAFE" else "VULNERABLE"
    status := if matchCount = 0 then .verifiedFixed else .stillVulnerable
    contract := contract
    matchingFindingsCount := matchCount
    details :=
      if matchCount = 0 then
        "Vulnerability " ++ contract.ruleId ++ " (" ++ contract.cweId
          ++ ") successfully eliminated in " ++ contract.filePath ++ "."
      else
        "Vulnerability persists post-patch: " ++ toString matchCount
          ++ " matching SAST findings detected in " ++ contract.filePath ++ "." }

/-- The verifier reports a fix exactly when no fresh finding matches the contract.
Source: `verification.py`, `PostApplyVerificationEngine.verify`
Kind: L -/
theorem verify_status {vid : String} {finding : Finding} {post : List Finding} :
    (verify vid finding post).status = .verifiedFixed ↔
      ∀ f ∈ post, matchesContract (VerificationContract.ofFinding finding) f = false := by
  have hlen : (post.filter (matchesContract (VerificationContract.ofFinding finding))).length = 0 ↔
      ∀ f ∈ post, matchesContract (VerificationContract.ofFinding finding) f = false := by
    rw [List.length_eq_zero_iff, List.filter_eq_nil_iff]
    simp only [Bool.not_eq_true]
  unfold verify
  dsimp only
  rw [← hlen]
  split
  · next h => simp [h]
  · next h => simp [h]

/-! ## Findings that leave a vulnerability open -/

/-- A CWE that is known and that both findings have. Kind: C -/
def SameCwe (finding post : Finding) : Prop :=
  finding.cweId ≠ "" ∧ finding.cweId ≠ "UNKNOWN" ∧ post.cweId = finding.cweId

/-- A fresh finding in the same file, of the same rule or CWE, whose verdict is missing or is not `SAFE`; its
line does not matter. Kind: C -/
def Redetects (finding post : Finding) : Prop :=
  normSlashes post.filePath = normSlashes finding.filePath ∧
    (post.ruleId = finding.ruleId ∨ SameCwe finding post) ∧
    ∀ v, post.verdict = some v → v.status ≠ .safe

/-- The verdict is missing or `VULNERABLE`, and the sink category is the one of the first finding, if that
has one that is known; a missing verdict is of category `UNKNOWN`. Kind: C -/
def Counted (finding post : Finding) : Prop :=
  (∀ v, post.verdict = some v → v.status = .vulnerable) ∧
    (verdictCategory finding = "UNKNOWN" ∨ verdictCategory post = verdictCategory finding)

theorem sameCwe_iff {finding post : Finding} :
    SameCwe finding post ↔
      cweOrUnknown finding ≠ "UNKNOWN" ∧ cweOrUnknown post = cweOrUnknown finding := by
  unfold SameCwe cweOrUnknown
  by_cases hfinding : finding.cweId = ""
  · simp [hfinding]
  · rw [if_neg hfinding]
    by_cases hpost : post.cweId = ""
    · grind
    · simp_all

/-- What the verifier counts is what leaves the vulnerability open and is counted. Kind: L -/
theorem matchesContract_iff {finding post : Finding} :
    matchesContract (VerificationContract.ofFinding finding) post = true ↔
      Redetects finding post ∧ Counted finding post := by
  have hcwe := @sameCwe_iff finding post
  unfold Redetects Counted
  rw [hcwe]
  have hverdict : (match post.verdict with
      | none => true
      | some v => decide (v.status = .vulnerable)) = true ↔
        ∀ v, post.verdict = some v → v.status = .vulnerable := by
    rcases post.verdict with _ | v
    · exact iff_of_true rfl fun v hv => nomatch hv
    · simp
  have hopen : (∀ v, post.verdict = some v → v.status = .vulnerable) →
      ∀ v, post.verdict = some v → v.status ≠ .safe := by
    intro h v hv hsafe
    rw [h v hv] at hsafe
    cases hsafe
  simp only [matchesContract, Bool.and_eq_true, Bool.or_eq_true, decide_eq_true_iff, hverdict]
  simp only [VerificationContract.ofFinding]
  constructor
  · grind
  · grind

/-- A reported fix means that nothing leaves the vulnerability open exactly when, if anything does, something
does that the verifier counts.
Source: `verification.py`, `PostApplyVerificationEngine.verify`
Kind: T -/
theorem fixed_only_if_gone_iff (vid : String) (finding : Finding) (postApplyFindings : List Finding) :
    ((verify vid finding postApplyFindings).status = .verifiedFixed →
      ∀ post ∈ postApplyFindings, ¬Redetects finding post) ↔
    ((∃ post ∈ postApplyFindings, Redetects finding post) →
      ∃ post ∈ postApplyFindings, Redetects finding post ∧ Counted finding post) := by
  rw [verify_status]
  constructor
  · rintro h ⟨post, hmem, hopen⟩
    by_contra hnone
    refine h (fun f hf => ?_) post hmem hopen
    rw [Bool.eq_false_iff]
    exact fun hmatch => hnone ⟨f, hf, matchesContract_iff.mp hmatch⟩
  · intro h hclear post hmem hopen
    obtain ⟨f, hf, hmatch⟩ := h ⟨post, hmem, hopen⟩
    have hfalse := hclear f hf
    rw [matchesContract_iff.mpr hmatch] at hfalse
    cases hfalse

/-! ## A verdict that is not known -/

/-- A verdict of a status on an SQL sink. Kind: D -/
def sqlVerdict (status : VerdictStatus) : SecurityVerdict :=
  { verdictId := "v", status, confidence := .high, ruleId := "CWE-89-SQLI", sinkId := "s"
    sinkCategory := "SQL_EXECUTION", filePath := "app.py", functionName := "f", lineNumber := 10
    variableVersion := "q#1", callContext := none, branchPolarity := "", reasonCodes := []
    sourceIds := [], provenancePath := [], evidenceReferences := [], compatibilityDecision := none
    matchingConstraint := none, evidenceFingerprint := "e", canonicalFingerprint := "c" }

/-- A finding of an SQL injection in `app.py` with a verdict. Kind: D -/
def sqlFinding (verdict : Option SecurityVerdict) : Finding :=
  { findingId := "F", ruleId := "CWE-89-SQLI", fingerprint := "fp", title := "", severity := .high
    confidence := .likely, cweId := "CWE-89", owasp := "", filePath := "app.py", evidence := none
    description := "", remediation := "", ruleVersion := "1.0", verdict, qualified := none }

/-- The finding comes back with an unknown verdict and once more without one, and is reported fixed.
Source: `verification.py`, `PostApplyVerificationEngine.verify`
Kind: T -/
theorem unknown_verdict_reported_fixed :
    (verify "ver" (sqlFinding (some (sqlVerdict .vulnerable)))
      [sqlFinding (some (sqlVerdict .unknown)), sqlFinding none]).status = .verifiedFixed ∧
    Redetects (sqlFinding (some (sqlVerdict .vulnerable))) (sqlFinding (some (sqlVerdict .unknown))) ∧
    Redetects (sqlFinding (some (sqlVerdict .vulnerable))) (sqlFinding none) := by
  refine ⟨by decide +kernel, ⟨rfl, Or.inl rfl, fun v hv => ?_⟩, rfl, Or.inl rfl, fun v hv => nomatch hv⟩
  cases hv
  decide

end KarsaSec.Remediation
