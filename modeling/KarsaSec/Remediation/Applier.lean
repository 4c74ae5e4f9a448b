import KarsaSec.Remediation.Snapshot

/-!
# The controlled patch applier

`ControlledPatchApplier.apply` in its two phases:

* **Preflight** (`preflight`): token status, snapshot, token verification, target allowlist, path
  safety, reading the targets, and exact-one matching of every hunk. It reads the disk and never
  writes; it ends in `Prepared` (the backups and the modified texts), in a rejection with its
  reason, or in an exception.
* **Mutation** (`mutate`): the modified texts are written in turn, then the snapshot is taken
  again; any exception on the way triggers `rollbackTransaction`.

The first write is made after the last check.
-/

namespace KarsaSec.Remediation

open KarsaSec.Found

/-- Execution status of an application. Source: `applier.py`, `ApplicationStatus`. Kind: D -/
inductive ApplicationStatus
  | ready
  | applied
  | rejected
  | failed
  | rolledBack
  | criticalRecoveryFailure
  deriving DecidableEq, Repr

/-- Record of one application attempt. Source: `applier.py`, `ApplicationResult`. Kind: D -/
structure ApplicationResult where
  transactionId : String
  findingId : String
  proposalFingerprint : String
  tokenId : String
  status : ApplicationStatus
  targetFiles : List String
  preApplySnapshotHash : String
  postApplySnapshotHash : String
  rollbackStatus : String
  failureReason : Option String
  deriving DecidableEq

/-- How the input and output of one call behaves: the outcome of its `k`-th write, and the error of
reading the targets back after the writes, if that fails. Kind: D -/
structure Io where
  write : ℕ → WriteOutcome
  postSnapshot : Option String

/-- Why a preflight stops: a rejection (with the snapshot hash it reports) or an exception.
Kind: D -/
inductive Stop
  | rejected (preHash reason : String)
  | raised (message : String)

/-- What the preflight hands to the mutation phase.
Source: `applier.py`, local variables of `apply` at the start of phase 2
Kind: D -/
structure Prepared where
  snap : SourceSnapshot
  targetPaths : Dict String String
  backupBytes : Dict String ByteArray
  initialHashes : Dict String String
  modifiedContents : Dict String Text

/-- The applier of one repository. Source: `applier.py`, `ControlledPatchApplier`. Kind: D -/
structure ControlledPatchApplier where
  repositoryRoot : String

/-- The last component of a path. Kind: D -/
def pathName (path : String) : String :=
  String.ofList ((path.toList.reverse.takeWhile (· ≠ '/')).reverse)

namespace ControlledPatchApplier

variable (host : Host) (applier : ControlledPatchApplier)

/-! ## Preflight -/

/-- Path traversal guard. The path is resolved, so it is no symbolic link and the second guard of
the source cannot fire.
Source: `applier.py`, `_validate_path_safety`
Kind: D -/
def validatePathSafety (fs : FileSystem) (targetRel : String) : Except String String :=
  let targetPath := fs.resolve (normSlashes targetRel)
  if isRelativeTo applier.repositoryRoot targetPath then .ok targetPath
  else .error ("Path traversal blocked: '" ++ targetRel ++ "' escapes '" ++ applier.repositoryRoot
    ++ "'.")

/-- Step 1.3: every target file with its path.
Source: `applier.py`, `apply`, step 1.3
Kind: D -/
def resolveTargets (fs : FileSystem) (pre : String) :
    List String → Dict String String → Except Stop (Dict String String)
  | [], paths => .ok paths
  | rel :: rest, paths =>
    match applier.validatePathSafety fs rel with
    | .error msg => .error (.rejected pre ("PATH_TRAVERSAL_REJECTED: " ++ msg))
    | .ok path => resolveTargets fs pre rest (paths.set rel path)

/-- Contents, backups and hashes read so far in step 1.4. Kind: D -/
structure Reading where
  fileContents : Dict String Text
  backupBytes : Dict String ByteArray
  initialHashes : Dict String String

/-- Step 1.4, first half: every target file is read, backed up and decoded.
Source: `applier.py`, `apply`, step 1.4, loop over `target_paths`
Kind: D -/
def readTargets (fs : FileSystem) (pre : String) :
    List (String × String) → Reading → Except Stop Reading
  | [], r => .ok r
  | (rel, path) :: rest, r =>
    match fs.content path with
    | none =>
      .error (.rejected pre ("TARGET_FILE_MISSING: File '" ++ rel ++ "' does not exist."))
    | some raw =>
      match decodeUtf8 raw with
      | none => .error (.rejected pre
          ("BINARY_FILE_REJECTED: File '" ++ rel ++ "' is binary/non-UTF8."))
      | some text =>
        readTargets fs pre rest
          ⟨r.fileContents.set rel text, r.backupBytes.set path raw,
            r.initialHashes.set path (host.sha256 raw)⟩

/-- Step 1.4, second half: every hunk must match exactly once in the text as modified so far, and
is applied to it.
Source: `applier.py`, `apply`, loop over `proposal.hunks`
Kind: D -/
def matchHunks (pre : String) :
    ℕ → List PatchHunk → Dict String Text → Except Stop (Dict String Text)
  | _, [], contents => .ok contents
  | idx, hunk :: rest, contents =>
    let content := contents.getD hunk.filePath []
    let matchCount := countSub hunk.originalText content
    if matchCount = 0 then
      .error (.rejected pre ("EXACT_HUNK_MATCH_FAILED: Hunk " ++ toString (idx + 1)
        ++ " original_text not found in '" ++ hunk.filePath ++ "'."))
    else if 1 < matchCount then
      .error (.rejected pre ("AMBIGUOUS_HUNK_MATCH: Hunk " ++ toString (idx + 1) ++ " matches "
        ++ toString matchCount ++ " occurrences in '" ++ hunk.filePath
        ++ "'. Exact 1 match required."))
    else
      matchHunks pre (idx + 1) rest
        (contents.set hunk.filePath
          (replaceFirst hunk.originalText hunk.proposedText content))

/-- Step 1.1, first half: a used token is turned away and the snapshot is taken, unless it is given.
Source: `applier.py`, `apply`, `token.status` and `snap`
Kind: D -/
def takeSnapshot (nowIso : String) (proposal : PatchProposal) (token : PatchApprovalToken)
    (currentSnapshot : Option SourceSnapshot) (fs : FileSystem) : Except Stop SourceSnapshot :=
  if token.status = .used then
    .error (.rejected "N/A" "TOKEN_ALREADY_USED: Approval token has already been consumed.")
  else match currentSnapshot with
    | some snap => .ok snap
    | none =>
      match SourceSnapshot.capture host applier.repositoryRoot fs proposal.targetFiles nowIso with
      | .ok snap => .ok snap
      | .error msg => .error (.rejected "N/A" ("PATH_TRAVERSAL_REJECTED: " ++ msg))

/-- Step 1.1, second half: the token is verified against the proposal and the snapshot.
Source: `applier.py`, `apply`, `token.verify_valid`
Kind: D -/
def checkToken (now : ℤ) (proposal : PatchProposal) (token : PatchApprovalToken)
    (snap : SourceSnapshot) : Except Stop Unit :=
  match token.verifyValid host now proposal.findingId proposal.proposalFingerprint
      snap.aggregateHash applier.repositoryRoot with
  | .error msg => .error (.raised msg)
  | .ok (false, msg) =>
    .error (.rejected snap.aggregateHash ("APPROVAL_VERIFICATION_FAILED: " ++ msg))
  | .ok (true, _) => .ok ()

/-- Step 1.2: every hunk addresses a target file of the proposal.
Source: `applier.py`, `apply`, step 1.2
Kind: D -/
def checkAllowlist (pre : String) (proposal : PatchProposal) : Except Stop Unit :=
  match proposal.hunks.find? fun h => h.filePath ∉ proposal.targetFiles with
  | some h => .error (.rejected pre ("TARGET_ALLOWLIST_VIOLATION: Hunk file '" ++ h.filePath
      ++ "' not in proposal target_files."))
  | none => .ok ()

/-- Phase 1 of `apply`: all checks, no write.
Source: `applier.py`, `apply`, phase 1
Kind: D -/
def preflight (now : ℤ) (nowIso : String) (proposal : PatchProposal) (token : PatchApprovalToken)
    (currentSnapshot : Option SourceSnapshot) (fs : FileSystem) : Except Stop Prepared := do
  let snap ← takeSnapshot host applier nowIso proposal token currentSnapshot fs
  checkToken host applier now proposal token snap
  checkAllowlist snap.aggregateHash proposal
  let targetPaths ← applier.resolveTargets fs snap.aggregateHash proposal.targetFiles Dict.empty
  let reading ← readTargets host fs snap.aggregateHash targetPaths.entries
    ⟨Dict.empty, Dict.empty, Dict.empty⟩
  let modified ← matchHunks snap.aggregateHash 0 proposal.hunks reading.fileContents
  return ⟨snap, targetPaths, reading.backupBytes, reading.initialHashes, modified⟩

/-! ## Mutation and rollback -/

/-- The writes of phase 2: stops at the first one that raises. Returns its error, the number of
writes made and the disk.
Source: `applier.py`, `apply`, phase 2, write loop
Kind: D -/
def writeFiles (io : ℕ → WriteOutcome) :
    ℕ → List (String × ByteArray) → FileSystem → Option String × ℕ × FileSystem
  | k, [], fs => (none, k, fs)
  | k, (path, bytes) :: rest, fs =>
    match fs.writeBytes (io k) path bytes with
    | (some err, fs') => (some err, k + 1, fs')
    | (none, fs') => writeFiles io (k + 1) rest fs'

/-- The restoring loop: every backup is written back and read again; errors are collected.
Source: `applier.py`, `_rollback_transaction`, loop
Kind: D -/
def restoreFiles (io : ℕ → WriteOutcome) (initialHashes : Dict String String) :
    ℕ → List (String × ByteArray) → FileSystem → List String × FileSystem
  | _, [], fs => ([], fs)
  | k, (path, raw) :: rest, fs =>
    match fs.writeBytes (io k) path raw with
    | (some err, fs') =>
      let (errs, fs'') := restoreFiles io initialHashes (k + 1) rest fs'
      (("Failed to restore " ++ pathName path ++ ": " ++ err) :: errs, fs'')
    | (none, fs') =>
      let (errs, fs'') := restoreFiles io initialHashes (k + 1) rest fs'
      let restoredHash := host.sha256 ((fs'.content path).getD ByteArray.empty)
      let expectedHash := initialHashes.getD path ""
      if expectedHash ≠ "" ∧ restoredHash ≠ expectedHash then
        (("Rollback hash mismatch for " ++ pathName path ++ ": restored "
          ++ String.ofList (restoredHash.toList.take 8) ++ " != expected "
          ++ String.ofList (expectedHash.toList.take 8) ++ ".") :: errs, fs'')
      else (errs, fs'')

/-- Byte rollback: status string, error text and the disk.
Source: `applier.py`, `_rollback_transaction`
Kind: D -/
def rollbackTransaction (io : ℕ → WriteOutcome) (k : ℕ) (backup : Dict String ByteArray)
    (initialHashes : Dict String String) (fs : FileSystem) :
    (String × Option String) × FileSystem :=
  let (errs, fs') := restoreFiles host io initialHashes k backup.entries fs
  if errs = [] then (("SUCCESS", none), fs')
  else (("CRITICAL_RECOVERY_FAILURE", some (joinStr "; " errs)), fs')

/-- The byte writes that phase 2 makes, in the order of the modified texts. Kind: D -/
def Prepared.writes (p : Prepared) : List (String × ByteArray) :=
  p.modifiedContents.entries.map fun e => (p.targetPaths.getD e.1 "", encodeUtf8 e.2)

/-- The body of the `try` block of phase 2: the writes, the snapshot taken again, the token marked.
Source: `applier.py`, `apply`, phase 2
Kind: D -/
def tryMutate (io : Io) (nowIso : String) (proposal : PatchProposal) (token : PatchApprovalToken)
    (p : Prepared) (fs : FileSystem) :
    Except String (SourceSnapshot × PatchApprovalToken) × ℕ × FileSystem :=
  match writeFiles io.write 0 (Prepared.writes p) fs with
  | (some err, k, fs') => (.error err, k, fs')
  | (none, k, fs') =>
    match io.postSnapshot with
    | some err => (.error err, k, fs')
    | none =>
      match SourceSnapshot.capture host applier.repositoryRoot fs' proposal.targetFiles
          nowIso with
      | .error err => (.error err, k, fs')
      | .ok post =>
        match token.markUsed with
        | .error err => (.error err, k, fs')
        | .ok used => (.ok (post, used), k, fs')

/-- Phase 2 of `apply`.
Source: `applier.py`, `apply`, phase 2
Kind: D -/
def mutate (io : Io) (nowIso txId : String) (proposal : PatchProposal)
    (token : PatchApprovalToken) (p : Prepared) (fs : FileSystem) :
    (ApplicationResult × PatchApprovalToken) × FileSystem :=
  match tryMutate host applier io nowIso proposal token p fs with
  | (.ok (post, used), _, fs') =>
    (({ transactionId := txId, findingId := proposal.findingId
        proposalFingerprint := proposal.proposalFingerprint, tokenId := token.tokenId
        status := .applied, targetFiles := proposal.targetFiles
        preApplySnapshotHash := p.snap.aggregateHash
        postApplySnapshotHash := post.aggregateHash
        rollbackStatus := "NOT_NEEDED", failureReason := none }, used), fs')
  | (.error err, k, fs') =>
    let ((rbStatus, rbErr), fs'') :=
      rollbackTransaction host io.write k p.backupBytes p.initialHashes fs'
    let rollbackNote := match rbErr with
      | some e => " | ROLLBACK_ERROR: " ++ e
      | none => ""
    (({ transactionId := txId, findingId := proposal.findingId
        proposalFingerprint := proposal.proposalFingerprint, tokenId := token.tokenId
        status := if rbStatus = "CRITICAL_RECOVERY_FAILURE" then .criticalRecoveryFailure
          else .failed
        targetFiles := proposal.targetFiles
        preApplySnapshotHash := p.snap.aggregateHash, postApplySnapshotHash := "N/A"
        rollbackStatus := rbStatus
        failureReason := some ("APPLICATION_WRITE_FAILED: " ++ err ++ rollbackNote) },
      token), fs'')

/-- The result of a rejected call.
Source: `applier.py`, `apply`, the `REJECTED` results of phase 1
Kind: D -/
def rejection (txId : String) (proposal : PatchProposal) (token : PatchApprovalToken)
    (preHash reason : String) : ApplicationResult :=
  { transactionId := txId, findingId := proposal.findingId
    proposalFingerprint := proposal.proposalFingerprint, tokenId := token.tokenId
    status := .rejected, targetFiles := proposal.targetFiles
    preApplySnapshotHash := preHash, postApplySnapshotHash := "N/A"
    rollbackStatus := "NOT_NEEDED", failureReason := some reason }

/-- One controlled application: the result and the token handed back, or the exception that
escapes, and the disk afterwards. `txId` is the transaction id given or drawn.
Source: `applier.py`, `ControlledPatchApplier.apply`
Kind: D -/
def apply (io : Io) (now : ℤ) (nowIso txId : String) (proposal : PatchProposal)
    (token : PatchApprovalToken) (currentSnapshot : Option SourceSnapshot) (fs : FileSystem) :
    Except String (ApplicationResult × PatchApprovalToken) × FileSystem :=
  match preflight host applier now nowIso proposal token currentSnapshot fs with
  | .error (.rejected preHash reason) =>
    (.ok (rejection txId proposal token preHash reason, token), fs)
  | .error (.raised msg) => (.error msg, fs)
  | .ok p =>
    let (res, fs') := mutate host applier io nowIso txId proposal token p fs
    (.ok res, fs')

end ControlledPatchApplier

end KarsaSec.Remediation
