import KarsaSec.Remediation.Models

/-!
# Approval tokens

The token that binds a human approval to one finding, one proposal fingerprint and one source
snapshot.

* `PatchApprovalToken.create` hashes the bound fields into `tokenFingerprint`; `markUsed` returns
  a *new* token with status `used` and leaves the presented one as it is.
* `verifyValid` is the chain of checks an application makes, in the order of the source. An
  expiration date that does not parse is the `ValueError` of `datetime.fromisoformat`.
* `verifyValid_ok` says what a token that passes has been checked for.
-/

namespace KarsaSec.Remediation

open KarsaSec.Found

/-- What the host offers to the remediation code besides files: the digest and the reading of ISO
dates (`none` is the `ValueError`).
Source: `hashlib.sha256`, `datetime.fromisoformat`
Kind: D -/
structure Host where
  sha256 : ByteArray → String
  fromIsoFormat : String → Option ℤ

/-- The digest of a string. Kind: D -/
def Host.sha256Text (host : Host) (s : String) : String := host.sha256 s.toByteArray

/-- Lifecycle status of an approval token.
Source: `approval.py`, `ApprovalStatus`
Kind: D -/
inductive ApprovalStatus
  | pending
  | approved
  | rejected
  | expired
  | used
  | invalidated
  deriving DecidableEq, Repr

/-- The string value of a status. Source: `approval.py`, `ApprovalStatus`. Kind: D -/
def ApprovalStatus.value : ApprovalStatus → String
  | pending => "PENDING"
  | approved => "APPROVED"
  | rejected => "REJECTED"
  | expired => "EXPIRED"
  | used => "USED"
  | invalidated => "INVALIDATED"

/-- An immutable approval token.
Source: `approval.py`, `PatchApprovalToken`
Kind: D -/
structure PatchApprovalToken where
  tokenId : String
  findingId : String
  proposalFingerprint : String
  sourceSnapshotHash : String
  targetFiles : List String
  repositoryIdentity : String
  approvedBy : String
  approvedAt : String
  expiresAt : Option String
  approvalContext : String
  status : ApprovalStatus
  tokenFingerprint : String
  deriving DecidableEq

namespace PatchApprovalToken

/-- The string that the token fingerprint hashes. An expiry that is missing or empty is written
`NEVER`.
Source: `approval.py`, `PatchApprovalToken.compute_fingerprint`
Kind: D -/
def fingerprintRaw (tokenId findingId proposalFingerprint sourceSnapshotHash : String)
    (targetFiles : List String) (repositoryIdentity approvedBy approvedAt : String)
    (expiresAt : Option String) (approvalContext : String) : String :=
  let sortedFiles := joinStr "|" (sortStrings (targetFiles.map normSlashes))
  let expStr := if expiresAt.getD "" = "" then "NEVER" else expiresAt.getD ""
  joinStr "|" [tokenId, findingId, proposalFingerprint, sourceSnapshotHash, sortedFiles,
    normSlashes repositoryIdentity, approvedBy, approvedAt, expStr, approvalContext]

/-- The fingerprint over the bound fields of a token.
Source: `approval.py`, `PatchApprovalToken.compute_fingerprint`
Kind: D -/
def computeFingerprint (host : Host) (t : PatchApprovalToken) : String :=
  host.sha256Text (fingerprintRaw t.tokenId t.findingId t.proposalFingerprint t.sourceSnapshotHash
    t.targetFiles t.repositoryIdentity t.approvedBy t.approvedAt t.expiresAt t.approvalContext)

/-- The factory: a fresh approval, status `APPROVED`, fingerprint over the bound fields.
Source: `approval.py`, `PatchApprovalToken.create`
Kind: D -/
def create (host : Host) (findingId proposalFingerprint sourceSnapshotHash : String)
    (targetFiles : List String) (repositoryIdentity approvedBy : String)
    (expiresAt : Option String) (approvalContext tokenId approvedAt : String) :
    PatchApprovalToken :=
  { tokenId, findingId, proposalFingerprint, sourceSnapshotHash, targetFiles, repositoryIdentity,
    approvedBy, approvedAt, expiresAt, approvalContext
    status := .approved
    tokenFingerprint := host.sha256Text (fingerprintRaw tokenId findingId proposalFingerprint
      sourceSnapshotHash targetFiles repositoryIdentity approvedBy approvedAt expiresAt
      approvalContext) }

/-- `mark_used`: a new token with status `USED`; raises on a token that is already used.
Source: `approval.py`, `PatchApprovalToken.mark_used`
Kind: D -/
def markUsed (t : PatchApprovalToken) : Except String PatchApprovalToken :=
  if t.status = .used then .error ("Approval token '" ++ t.tokenId ++ "' is already USED.")
  else .ok { t with status := .used }

/-- The checks of a token against an application, in the order of the source: status, fingerprint,
finding, proposal, snapshot, repository, expiration. `.error` is an exception.
Source: `approval.py`, `PatchApprovalToken.verify_valid`
Kind: D -/
def verifyValid (host : Host) (now : ℤ) (t : PatchApprovalToken)
    (expectedFindingId expectedProposalFingerprint expectedSnapshotHash
      expectedRepositoryIdentity : String) : Except String (Bool × String) :=
  if t.status = .used then
    .ok (false, "TOKEN_ALREADY_USED: Token has already been consumed.")
  else if t.status ≠ .approved then
    .ok (false, "INVALID_TOKEN_STATUS: Token status is '" ++ t.status.value
      ++ "', expected APPROVED.")
  else if t.tokenFingerprint ≠ t.computeFingerprint host then
    .ok (false, "TOKEN_TAMPERED: Approval token fingerprint does not match computed digest.")
  else if t.findingId ≠ expectedFindingId then
    .ok (false, "FINDING_MISMATCH: Token finding_id '" ++ t.findingId ++ "' != expected '"
      ++ expectedFindingId ++ "'.")
  else if t.proposalFingerprint ≠ expectedProposalFingerprint then
    .ok (false,
      "PROPOSAL_FINGERPRINT_MISMATCH: Token proposal fingerprint does not match proposal.")
  else if t.sourceSnapshotHash ≠ expectedSnapshotHash then
    .ok (false,
      "SNAPSHOT_HASH_MISMATCH: Source code modified after approval (TOCTOU violation).")
  else
    let normTokenRepo := rstripChar '/' (normSlashes t.repositoryIdentity)
    let normExpRepo := rstripChar '/' (normSlashes expectedRepositoryIdentity)
    if normTokenRepo ≠ normExpRepo then
      .ok (false, "REPOSITORY_MISMATCH: Token repository '" ++ normTokenRepo ++ "' != current '"
        ++ normExpRepo ++ "'.")
    else
      let expiry := t.expiresAt.getD ""
      if expiry = "" then .ok (true, "VALID")
      else match host.fromIsoFormat expiry with
        | none => .error ("Invalid isoformat string: '" ++ expiry ++ "'")
        | some expDt =>
          if expDt < now then .ok (false, "TOKEN_EXPIRED: Token expired at " ++ expiry ++ ".")
          else .ok (true, "VALID")

/-- What a token that passes the checks has been checked for.
Source: `approval.py`, `PatchApprovalToken.verify_valid`
Kind: L -/
theorem verifyValid_ok {host : Host} {now : ℤ} {t : PatchApprovalToken}
    {fid pfp snap repo msg : String}
    (h : t.verifyValid host now fid pfp snap repo = .ok (true, msg)) :
    t.status = .approved ∧ t.tokenFingerprint = t.computeFingerprint host ∧ t.findingId = fid ∧
      t.proposalFingerprint = pfp ∧ t.sourceSnapshotHash = snap := by
  unfold verifyValid at h
  split at h
  · simp at h
  split at h
  · simp at h
  next hst =>
    split at h
    · simp at h
    next hfp =>
      split at h
      · simp at h
      next hfid =>
        split at h
        · simp at h
        next hpfp =>
          split at h
          · simp at h
          next hsnap =>
            exact ⟨not_not.mp hst, not_not.mp hfp, not_not.mp hfid, not_not.mp hpfp,
              not_not.mp hsnap⟩

/-- A created token passes every check against what it is bound to, as long as it does not expire.
Source: `approval.py`, `PatchApprovalToken.create`, `verify_valid`
Kind: L -/
theorem verifyValid_create (host : Host) (now : ℤ) (fid pfp snap : String) (files : List String)
    (repo by' context tid at' : String) :
    (create host fid pfp snap files repo by' none context tid at').verifyValid host now fid pfp
      snap repo = .ok (true, "VALID") := by
  simp [verifyValid, create, computeFingerprint]

end PatchApprovalToken

end KarsaSec.Remediation
