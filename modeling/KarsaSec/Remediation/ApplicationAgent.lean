import KarsaSec.Remediation.ApplierOutcome
import KarsaSec.Remediation.Verification
import Mathlib

/-!
# The remediation transaction

`RemediationApplicationAgent.executeTransaction`: apply, scan again, verify, run the tests, and roll
back when a step after the application fails.

* `Environment` is what the transaction calls on the way: input and output, the scan callback, the
  test suite. Callback and tests may change file contents, not where paths lead.
* `rescanFailed` is the rollback after an exception of the scan: the files are read *then*, after the
  patch, and written back.
* `rollbackHunks` is the rollback after a failed verification: in the text read *then*, with newlines
  translated, the first occurrence of each proposed text is replaced by the original one.
* `TransactionEnd.rereads` logs the restoring writes whose content comes from such a late read. The
  rollback inside `apply` writes only backups of the preflight (`Passed.backup`) and logs nothing.
-/

namespace KarsaSec.Remediation

open KarsaSec.Found KarsaSec.Findings ControlledPatchApplier

/-- Audit record of one transaction.
Source: `application_agent.py`, `ApplicationAuditRecord`
Kind: D -/
structure ApplicationAuditRecord where
  auditId : String
  transactionId : String
  findingId : String
  proposalFingerprint : String
  tokenId : String
  preApplySnapshotHash : String
  postApplySnapshotHash : String
  applicationStatus : ApplicationStatus
  verificationStatus : VerificationStatus
  rollbackStatus : String
  targetFiles : List String
  timestamp : String
  failureReason : Option String
  deriving DecidableEq

/-- What a transaction calls on the way. `.error` of the scan is the exception it raises.
Source: `application_agent.py`, `rescan_callback`; `verification.py`, `execute_business_test_suite`
Kind: D -/
structure Environment where
  io : Io
  rollbackIo : ℕ → WriteOutcome
  now : ℤ
  nowIso : String
  txId : String
  auditId : String
  rescan : FileSystem → Except String (List Finding) × FileSystem
  runTests : FileSystem → (Bool × String) × FileSystem
  /-- The scan does not move files. -/
  rescan_resolve : ∀ fs, (rescan fs).2.resolve = fs.resolve
  /-- The tests do not move files. -/
  runTests_resolve : ∀ fs, (runTests fs).2.resolve = fs.resolve

/-- The agent of one repository with its verification engine.
Source: `application_agent.py`, `RemediationApplicationAgent`
Kind: D -/
structure RemediationApplicationAgent where
  applier : ControlledPatchApplier
  verifier : Finding → List Finding → VerificationResult

/-- A restoring write made from a content that was read after the patch. Kind: D -/
structure Reread where
  path : String
  written : ByteArray
  deriving DecidableEq

/-- How a transaction ends: the outcome it returns or the exception that escapes, the disk, the
late restoring writes, and the audit records appended. Kind: D -/
structure TransactionEnd where
  result : Except String (ApplicationResult × Option VerificationResult × PatchApprovalToken)
  disk : FileSystem
  rereads : List Reread
  auditRecords : List ApplicationAuditRecord

namespace RemediationApplicationAgent

variable (host : Host) (agent : RemediationApplicationAgent) (env : Environment)

/-- The audit record of a result.
Source: `application_agent.py`, `execute_transaction`, both `audit_records.append`
Kind: D -/
def auditRecord (proposal : PatchProposal) (token : PatchApprovalToken) (res : ApplicationResult)
    (verification : VerificationStatus) : ApplicationAuditRecord :=
  { auditId := env.auditId
    transactionId := res.transactionId
    findingId := proposal.findingId
    proposalFingerprint := proposal.proposalFingerprint
    tokenId := token.tokenId
    preApplySnapshotHash := res.preApplySnapshotHash
    postApplySnapshotHash := res.postApplySnapshotHash
    applicationStatus := res.status
    verificationStatus := verification
    rollbackStatus := res.rollbackStatus
    targetFiles := proposal.targetFiles
    timestamp := env.nowIso
    failureReason := res.failureReason }

/-- One file buffered after a failed scan. The path is resolved as it is written in the proposal.
Source: `application_agent.py`, `execute_transaction`, step 2, loop over `target_paths`
Kind: D -/
def bufferFile (fs : FileSystem) (buffers : Dict String ByteArray) (rel : String) :
    Dict String ByteArray :=
  match fs.content (fs.resolve rel) with
  | some raw => buffers.set (fs.resolve rel) raw
  | none => buffers

/-- The buffers read after a failed scan: what the target files hold now.
Source: `application_agent.py`, `execute_transaction`, step 2, `backup_bytes`
Kind: D -/
def lateBackups (fs : FileSystem) (targetFiles : List String) : Dict String ByteArray :=
  targetFiles.foldl (bufferFile fs) Dict.empty

/-- Step 2 when the scan raises.
Source: `application_agent.py`, `execute_transaction`, `except` of step 2
Kind: D -/
def rescanFailed (proposal : PatchProposal) (token updatedToken : PatchApprovalToken)
    (appRes : ApplicationResult) (scanErr : String) (fs : FileSystem) : TransactionEnd :=
  match SourceSnapshot.capture host agent.applier.repositoryRoot fs proposal.targetFiles
      env.nowIso with
  | .error msg => ⟨.error msg, fs, [], []⟩
  | .ok preSnap =>
    let backups := lateBackups fs proposal.targetFiles
    let ((rbStatus, rbErr), fs') :=
      rollbackTransaction host env.rollbackIo 0 backups Dict.empty fs
    ⟨.ok ({ transactionId := appRes.transactionId, findingId := proposal.findingId
            proposalFingerprint := proposal.proposalFingerprint, tokenId := token.tokenId
            status := .failed, targetFiles := proposal.targetFiles
            preApplySnapshotHash := preSnap.aggregateHash, postApplySnapshotHash := "N/A"
            rollbackStatus := rbStatus
            failureReason := some ("SAST_RESCAN_FAILED: " ++ scanErr ++ " | Rollback: "
              ++ rbErr.getD "None") }, none, updatedToken),
      fs', backups.entries.map fun e => ⟨e.1, e.2⟩, []⟩

/-- Step 3: the verdict of the verifier, overridden when the test suite fails after it.
Source: `application_agent.py`, `execute_transaction`, step 3
Kind: D -/
def judge (finding : Finding) (findings : List Finding) (fs : FileSystem) :
    VerificationResult × FileSystem :=
  let verRes := agent.verifier finding findings
  if verRes.status = .verifiedFixed then
    match env.runTests fs with
    | ((true, _), fs') => (verRes, fs')
    | ((false, output), fs') =>
      ({ verRes with
          status := .rollbackRequired
          details := "Business test suite regression detected:\n" ++ output }, fs')
  else (verRes, fs)

/-- The verification states that call for a rollback.
Source: `application_agent.py`, `execute_transaction`, condition of step 4
Kind: D -/
def needsRollback (status : VerificationStatus) : Bool :=
  status ∈ [.stillVulnerable, .unknown, .verificationFailed, .rollbackRequired]

/-- The text in which a hunk is undone: the bytes read in text mode. Kind: D -/
def readText (raw : ByteArray) : Option Text := (decodeUtf8 raw).map universalNewlines

/-- Step 4, the loop over the hunks: exception or not, the disk, the writes made. `io k` is how a write for the `k`-th hunk ends.
Source: `application_agent.py`, `execute_transaction`, step 4, loop over `proposal.hunks`
Kind: D -/
def rollbackHunks (io : ℕ → WriteOutcome) :
    ℕ → List PatchHunk → FileSystem → Except String Unit × FileSystem × List Reread
  | _, [], fs => (.ok (), fs, [])
  | k, hunk :: rest, fs =>
    let path := fs.resolve hunk.filePath
    match fs.content path with
    | none => rollbackHunks io (k + 1) rest fs
    | some raw =>
      match readText raw with
      | none => (.error "'utf-8' codec can't decode", fs, [])
      | some curText =>
        if hasSub hunk.proposedText curText then
          let restored :=
            encodeUtf8 (replaceFirst hunk.proposedText hunk.originalText curText)
          match fs.writeBytes (io k) path restored with
          | (some err, fs') => (.error err, fs', [⟨path, restored⟩])
          | (none, fs') =>
            let (end', fs'', log) := rollbackHunks io (k + 1) rest fs'
            (end', fs'', ⟨path, restored⟩ :: log)
        else rollbackHunks io (k + 1) rest fs

/-- Step 4 and 5 when the verification has failed.
Source: `application_agent.py`, `execute_transaction`, steps 4 and 5
Kind: D -/
def verificationFailed (proposal : PatchProposal) (token updatedToken : PatchApprovalToken)
    (appRes : ApplicationResult) (verRes : VerificationResult) (fs : FileSystem) :
    TransactionEnd :=
  match rollbackHunks env.rollbackIo 0 proposal.hunks fs with
  | (.error msg, fs', log) => ⟨.error msg, fs', log, []⟩
  | (.ok _, fs', log) =>
    match SourceSnapshot.capture host agent.applier.repositoryRoot fs' proposal.targetFiles
        env.nowIso with
    | .error msg => ⟨.error msg, fs', log, []⟩
    | .ok postSnap =>
      let res : ApplicationResult :=
        { transactionId := appRes.transactionId, findingId := proposal.findingId
          proposalFingerprint := proposal.proposalFingerprint, tokenId := token.tokenId
          status := .rolledBack, targetFiles := proposal.targetFiles
          preApplySnapshotHash := appRes.preApplySnapshotHash
          postApplySnapshotHash := postSnap.aggregateHash, rollbackStatus := "SUCCESS"
          failureReason := some ("SECURITY_VERIFICATION_FAILED (" ++ verRes.status.value
            ++ "): Automatic rollback executed.") }
      ⟨.ok (res, some verRes, updatedToken), fs', log,
        [auditRecord env proposal token res verRes.status]⟩

/-- The steps after an application that went through.
Source: `application_agent.py`, `execute_transaction`, steps 2 to 5
Kind: D -/
def afterApply (proposal : PatchProposal) (token updatedToken : PatchApprovalToken)
    (finding : Finding) (appRes : ApplicationResult) (fs : FileSystem) : TransactionEnd :=
  match env.rescan fs with
  | (.error scanErr, fs') =>
    rescanFailed host agent env proposal token updatedToken appRes scanErr fs'
  | (.ok findings, fs') =>
    let (verRes, fs'') := judge agent env finding findings fs'
    if needsRollback verRes.status then
      verificationFailed host agent env proposal token updatedToken appRes verRes fs''
    else
      ⟨.ok (appRes, some verRes, updatedToken), fs'', [],
        [auditRecord env proposal token appRes verRes.status]⟩

/-- The whole transaction.
Source: `application_agent.py`, `RemediationApplicationAgent.execute_transaction`
Kind: D -/
def executeTransaction (proposal : PatchProposal) (token : PatchApprovalToken)
    (finding : Finding) (fs : FileSystem) : TransactionEnd :=
  match apply host agent.applier env.io env.now env.nowIso env.txId proposal token none fs with
  | (.error msg, fs') => ⟨.error msg, fs', [], []⟩
  | (.ok (appRes, updatedToken), fs') =>
    if appRes.status = .applied ∨ appRes.status = .ready then
      afterApply host agent env proposal token updatedToken finding appRes fs'
    else
      ⟨.ok (appRes, none, updatedToken), fs', [],
        [auditRecord env proposal token appRes .unverified]⟩

end RemediationApplicationAgent

end KarsaSec.Remediation
