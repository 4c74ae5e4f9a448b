import KarsaSec.Found.Shared
import KarsaSec.Remediation.ApplierOutcome

/-!
# An application on a disk that others write to

`ControlledPatchApplier.apply` once more, one disk access at a time, so that other programs can write between
two accesses.

* `captureFiles` and `readTargetsShared` are the two readings of the target files: for the snapshot, and for the
  text that is patched. `Observed` keeps what each of them has read beside the result.
* `solo_applyShared`: alone on the disk, the program does what `apply` does.
* `base_approved`: in any interleaving, an application that finds the same bytes at both readings patches what
  was approved. `other_bytes_patched` is an interleaving in which it does not.
-/

namespace KarsaSec.Remediation

open KarsaSec.Found

namespace ControlledPatchApplier

/-! ## Reading -/

/-- An exception while files are captured: the `ValueError` of a path, or an error of the disk. Kind: D -/
inductive CaptureError
  | value (message : String)
  | os (message : String)

/-- The message of a file that has gone between the check and the reading. Kind: D -/
def goneMessage : String := "[Errno 2] No such file or directory"

/-- The content of one target file, if there is one: the check and the reading are two accesses.
Source: `snapshot.py`, `SourceSnapshot.capture`, loop body
Kind: D -/
def readTarget (root targetRel : String) : Shared FileSystem CaptureError (Option ByteArray) := do
  let path ← Shared.look fun fs => fs.resolve (normSlashes targetRel)
  if isRelativeTo root path then
    let present ← Shared.look fun fs => (fs.content path).isSome
    if present then
      match ← Shared.look fun fs => fs.content path with
      | some content => pure (some content)
      | none => Shared.raise (.os goneMessage)
    else pure none
  else
    Shared.raise (.value ("Path traversal detected: '" ++ targetRel ++ "' resolves outside '" ++ root
      ++ "'."))

/-- The contents of the target files. Source: `snapshot.py`, `SourceSnapshot.capture`, loop. Kind: D -/
def captureFiles (root : String) :
    List String → Shared FileSystem CaptureError (List (String × Option ByteArray))
  | [] => pure []
  | rel :: rest => do
      let content ← readTarget root rel
      let reads ← captureFiles root rest
      pure ((rel, content) :: reads)

/-- The record of one content. Source: `snapshot.py`, `SourceSnapshot.capture`, `FileSnapshot`. Kind: D -/
def fileSnapshotOf (host : Host) (read : String × Option ByteArray) : FileSnapshot :=
  match read.2 with
  | some content => ⟨normSlashes read.1, content.size, host.sha256 content, true⟩
  | none => ⟨normSlashes read.1, 0, "MISSING", false⟩

/-- The snapshot of what was read. Source: `snapshot.py`, `SourceSnapshot.capture`. Kind: D -/
def snapshotOf (host : Host) (root : String) (reads : List (String × Option ByteArray))
    (createdAt : String) : SourceSnapshot :=
  ⟨root, reads.map (fileSnapshotOf host),
    SourceSnapshot.computeAggregateHash host (reads.map (fileSnapshotOf host)), createdAt⟩

variable (host : Host) (applier : ControlledPatchApplier)

/-- The snapshot, and what was read for it if it was not given.
Source: `applier.py`, `apply`, step 1.1
Kind: D -/
def takeSnapshotShared (nowIso : String) (proposal : PatchProposal) (token : PatchApprovalToken)
    (currentSnapshot : Option SourceSnapshot) :
    Shared FileSystem Stop (SourceSnapshot × Option (List (String × Option ByteArray))) :=
  if token.status = .used then
    Shared.raise (.rejected "N/A" "TOKEN_ALREADY_USED: Approval token has already been consumed.")
  else match currentSnapshot with
    | some snap => pure (snap, none)
    | none => do
        match ← (captureFiles applier.repositoryRoot proposal.targetFiles).attempt with
        | .ok reads => pure (snapshotOf host applier.repositoryRoot reads nowIso, some reads)
        | .error (.value msg) =>
          Shared.raise (.rejected "N/A" ("PATH_TRAVERSAL_REJECTED: " ++ msg))
        | .error (.os msg) => Shared.raise (.raised msg)

/-- The target files as they are read to be patched; `base` collects the bytes.
Source: `applier.py`, `apply`, step 1.4, loop over `target_paths`
Kind: D -/
def readTargetsShared (pre : String) : List (String × String) → Reading → Dict String ByteArray →
    Shared FileSystem Stop (Reading × Dict String ByteArray)
  | [], r, base => pure (r, base)
  | (rel, path) :: rest, r, base => do
      let present ← Shared.look fun fs => (fs.content path).isSome
      if present then
        match ← Shared.look fun fs => fs.content path with
        | none => Shared.raise (.raised goneMessage)
        | some raw =>
          match decodeUtf8 raw with
          | none => Shared.raise (.rejected pre
              ("BINARY_FILE_REJECTED: File '" ++ rel ++ "' is binary/non-UTF8."))
          | some text =>
            readTargetsShared pre rest
              ⟨r.fileContents.set rel text, r.backupBytes.set path raw,
                r.initialHashes.set path (host.sha256 raw)⟩ (base.set rel raw)
      else
        Shared.raise (.rejected pre ("TARGET_FILE_MISSING: File '" ++ rel ++ "' does not exist."))

/-- What a preflight has prepared, with what it has read on the way. Kind: D -/
structure Preparation where
  prepared : Prepared
  captured : Option (List (String × Option ByteArray))
  base : Dict String ByteArray

/-- Phase 1. Other programs write files; they do not move them, so the paths are resolved in one access.
Source: `applier.py`, `apply`, phase 1
Kind: D -/
def preflightShared (now : ℤ) (nowIso : String) (proposal : PatchProposal) (token : PatchApprovalToken)
    (currentSnapshot : Option SourceSnapshot) : Shared FileSystem Stop Preparation := do
  let (snap, captured) ← takeSnapshotShared host applier nowIso proposal token currentSnapshot
  Shared.ofExcept (checkToken host applier now proposal token snap)
  Shared.ofExcept (checkAllowlist snap.aggregateHash proposal)
  let paths ← Shared.look fun fs =>
    applier.resolveTargets fs snap.aggregateHash proposal.targetFiles Dict.empty
  let targetPaths ← Shared.ofExcept paths
  let (reading, base) ← readTargetsShared host snap.aggregateHash targetPaths.entries
    ⟨Dict.empty, Dict.empty, Dict.empty⟩ Dict.empty
  let modified ← Shared.ofExcept (matchHunks snap.aggregateHash 0 proposal.hunks reading.fileContents)
  pure ⟨⟨snap, targetPaths, reading.backupBytes, reading.initialHashes, modified⟩, captured, base⟩

/-! ## Writing -/

/-- Source: `applier.py`, `apply`, phase 2, write loop. Kind: D -/
def writeFilesShared (io : ℕ → WriteOutcome) :
    ℕ → List (String × ByteArray) → Shared FileSystem String (Option String × ℕ)
  | k, [] => pure (none, k)
  | k, (path, bytes) :: rest => do
      match ← Shared.touch fun fs => fs.writeBytes (io k) path bytes with
      | some err => pure (some err, k + 1)
      | none => writeFilesShared io (k + 1) rest

/-- Source: `applier.py`, `_rollback_transaction`, loop. Kind: D -/
def restoreFilesShared (io : ℕ → WriteOutcome) (initialHashes : Dict String String) :
    ℕ → List (String × ByteArray) → Shared FileSystem String (List String)
  | _, [] => pure []
  | k, (path, raw) :: rest => do
      match ← Shared.touch fun fs => fs.writeBytes (io k) path raw with
      | some err =>
        let errs ← restoreFilesShared io initialHashes (k + 1) rest
        pure (("Failed to restore " ++ pathName path ++ ": " ++ err) :: errs)
      | none =>
        let restored ← Shared.look fun fs => fs.content path
        let errs ← restoreFilesShared io initialHashes (k + 1) rest
        match restored with
        | none => pure (("Failed to restore " ++ pathName path ++ ": " ++ goneMessage) :: errs)
        | some content =>
          let restoredHash := host.sha256 content
          let expectedHash := initialHashes.getD path ""
          if expectedHash ≠ "" ∧ restoredHash ≠ expectedHash then
            pure (("Rollback hash mismatch for " ++ pathName path ++ ": restored "
              ++ String.ofList (restoredHash.toList.take 8) ++ " != expected "
              ++ String.ofList (expectedHash.toList.take 8) ++ ".") :: errs)
          else pure errs

/-- Source: `applier.py`, `_rollback_transaction`. Kind: D -/
def rollbackShared (io : ℕ → WriteOutcome) (k : ℕ) (backup : Dict String ByteArray)
    (initialHashes : Dict String String) : Shared FileSystem String (String × Option String) := do
  let errs ← restoreFilesShared host io initialHashes k backup.entries
  if errs = [] then pure ("SUCCESS", none)
  else pure ("CRITICAL_RECOVERY_FAILURE", some (joinStr "; " errs))

/-- The body of the `try` block. Source: `applier.py`, `apply`, phase 2. Kind: D -/
def tryMutateShared (io : Io) (nowIso : String) (proposal : PatchProposal) (token : PatchApprovalToken)
    (p : Prepared) :
    Shared FileSystem String (Except String (SourceSnapshot × PatchApprovalToken) × ℕ) := do
  match ← writeFilesShared io.write 0 (Prepared.writes p) with
  | (some err, k) => pure (.error err, k)
  | (none, k) =>
    match io.postSnapshot with
    | some err => pure (.error err, k)
    | none =>
      match ← (captureFiles applier.repositoryRoot proposal.targetFiles).attempt with
      | .error (.value err) => pure (.error err, k)
      | .error (.os err) => pure (.error err, k)
      | .ok reads =>
        match token.markUsed with
        | .error err => pure (.error err, k)
        | .ok used => pure (.ok (snapshotOf host applier.repositoryRoot reads nowIso, used), k)

/-- Phase 2. Source: `applier.py`, `apply`, phase 2. Kind: D -/
def mutateShared (io : Io) (nowIso txId : String) (proposal : PatchProposal) (token : PatchApprovalToken)
    (p : Prepared) : Shared FileSystem String (ApplicationResult × PatchApprovalToken) := do
  match ← tryMutateShared host applier io nowIso proposal token p with
  | (.ok (post, used), _) =>
    pure ({ transactionId := txId, findingId := proposal.findingId
            proposalFingerprint := proposal.proposalFingerprint, tokenId := token.tokenId
            status := .applied, targetFiles := proposal.targetFiles
            preApplySnapshotHash := p.snap.aggregateHash
            postApplySnapshotHash := post.aggregateHash
            rollbackStatus := "NOT_NEEDED", failureReason := none }, used)
  | (.error err, k) =>
    let (rbStatus, rbErr) ← rollbackShared host io.write k p.backupBytes p.initialHashes
    let rollbackNote := match rbErr with
      | some e => " | ROLLBACK_ERROR: " ++ e
      | none => ""
    pure ({ transactionId := txId, findingId := proposal.findingId
            proposalFingerprint := proposal.proposalFingerprint, tokenId := token.tokenId
            status := if rbStatus = "CRITICAL_RECOVERY_FAILURE" then .criticalRecoveryFailure
              else .failed
            targetFiles := proposal.targetFiles
            preApplySnapshotHash := p.snap.aggregateHash, postApplySnapshotHash := "N/A"
            rollbackStatus := rbStatus
            failureReason := some ("APPLICATION_WRITE_FAILED: " ++ err ++ rollbackNote) }, token)

/-- What a call returns, with what its two readings have found. Kind: D -/
structure Observed where
  result : ApplicationResult
  token : PatchApprovalToken
  captured : Option (List (String × Option ByteArray))
  base : Dict String ByteArray

/-- One call on a shared disk. Source: `applier.py`, `ControlledPatchApplier.apply`. Kind: D -/
def applyShared (io : Io) (now : ℤ) (nowIso txId : String) (proposal : PatchProposal)
    (token : PatchApprovalToken) (currentSnapshot : Option SourceSnapshot) :
    Shared FileSystem String Observed := do
  match ← (preflightShared host applier now nowIso proposal token currentSnapshot).attempt with
  | .error (.rejected preHash reason) =>
    pure ⟨rejection txId proposal token preHash reason, token, none, Dict.empty⟩
  | .error (.raised msg) => Shared.raise msg
  | .ok ready =>
    let (res, tok) ← mutateShared host applier io nowIso txId proposal token ready.prepared
    pure ⟨res, tok, ready.captured, ready.base⟩

/-! ## Alone on the disk -/

theorem mapError_bind {ε ε' α β : Type} (e : ε → ε') (x : Except ε α) (k : α → Except ε β) :
    (x >>= k).mapError e = x.mapError e >>= fun a => (k a).mapError e := by
  cases x <;> rfl

/-- Alone, a target file is read as `SourceSnapshot.capture` reads it. Kind: L -/
theorem reads_readTarget (host : Host) (root rel : String) (fs : FileSystem) :
    Shared.Reads (readTarget root rel) fs (fun content => fileSnapshotOf host (rel, content))
      ((SourceSnapshot.captureFile host root fs rel).mapError CaptureError.value) := by
  unfold Shared.Reads readTarget SourceSnapshot.captureFile
  simp only [Shared.solo_bind, Shared.solo_look]
  split
  · rcases h : fs.content (fs.resolve (normSlashes rel)) with _ | content
    · exact ⟨.ok none, by simp [Shared.solo_bind, h], rfl⟩
    · exact ⟨.ok (some content), by simp [Shared.solo_bind, h], rfl⟩
  · exact ⟨_, rfl, rfl⟩

/-- Alone, the files are captured as `SourceSnapshot.capture` captures them. Kind: L -/
theorem reads_captureFiles (host : Host) (root : String) (fs : FileSystem) :
    (files : List String) → Shared.Reads (captureFiles root files) fs (List.map (fileSnapshotOf host))
      ((files.mapM (SourceSnapshot.captureFile host root fs)).mapError CaptureError.value)
  | [] => ⟨.ok [], rfl, rfl⟩
  | rel :: rest => by
    rw [List.mapM_cons, mapError_bind]
    refine (reads_readTarget host root rel fs).bind fun content => ?_
    rw [mapError_bind]
    exact (reads_captureFiles host root fs rest).bind fun reads => Shared.Reads.of_pure _ fs _

/-- Alone, a snapshot is taken or a path is turned away as `SourceSnapshot.capture` does it. Kind: L -/
theorem capture_cases (host : Host) (root nowIso : String) (fs : FileSystem) (files : List String) :
    (∃ reads, (captureFiles root files).solo fs = (.ok reads, fs) ∧
      SourceSnapshot.capture host root fs files nowIso = .ok (snapshotOf host root reads nowIso)) ∨
    ∃ msg, (captureFiles root files).solo fs = (.error (.value msg), fs) ∧
      SourceSnapshot.capture host root fs files nowIso = .error msg := by
  obtain ⟨y, hy, hmap⟩ := reads_captureFiles host root fs files
  unfold SourceSnapshot.capture
  rcases hx : files.mapM (SourceSnapshot.captureFile host root fs) with msg | snaps
  · rw [hx] at hmap
    rcases y with e | reads
    · obtain rfl := Except.error.inj hmap
      exact .inr ⟨msg, hy, rfl⟩
    · cases hmap
  · rw [hx] at hmap
    rcases y with e | reads
    · cases hmap
    · obtain rfl := Except.ok.inj hmap
      exact .inl ⟨reads, hy, rfl⟩

/-- Alone, the snapshot of a call is that of `takeSnapshot`. Kind: L -/
theorem reads_takeSnapshotShared (nowIso : String) (proposal : PatchProposal) (token : PatchApprovalToken)
    (currentSnapshot : Option SourceSnapshot) (fs : FileSystem) :
    Shared.Reads (takeSnapshotShared host applier nowIso proposal token currentSnapshot) fs Prod.fst
      (takeSnapshot host applier nowIso proposal token currentSnapshot fs) := by
  unfold takeSnapshotShared takeSnapshot Shared.Reads
  split
  · exact ⟨_, rfl, rfl⟩
  rcases currentSnapshot with _ | snap
  · simp only [Shared.solo_bind, Shared.solo_attempt]
    rcases capture_cases host applier.repositoryRoot nowIso fs proposal.targetFiles with
      ⟨reads, hsolo, hcap⟩ | ⟨msg, hsolo, hcap⟩
    · rw [hsolo, hcap]
      exact ⟨_, rfl, rfl⟩
    · rw [hsolo, hcap]
      exact ⟨_, rfl, rfl⟩
  · exact ⟨_, rfl, rfl⟩

theorem reads_readTargetsShared (fs : FileSystem) (pre : String) : (l : List (String × String)) →
    (r : Reading) → (base : Dict String ByteArray) →
    Shared.Reads (readTargetsShared host pre l r base) fs Prod.fst (readTargets host fs pre l r)
  | [], r, base => Shared.Reads.of_pure _ fs _
  | (rel, path) :: rest, r, base => by
    unfold readTargetsShared readTargets
    refine Shared.Reads.look_bind ?_
    rcases hc : fs.content path with _ | raw
    · exact ⟨_, rfl, rfl⟩
    · refine Shared.Reads.look_bind ?_
      simp only [hc]
      rcases decodeUtf8 raw with _ | text
      · exact ⟨_, rfl, rfl⟩
      · exact reads_readTargetsShared fs pre rest _ _

theorem reads_preflightShared (now : ℤ) (nowIso : String) (proposal : PatchProposal)
    (token : PatchApprovalToken) (currentSnapshot : Option SourceSnapshot) (fs : FileSystem) :
    Shared.Reads (preflightShared host applier now nowIso proposal token currentSnapshot) fs
      Preparation.prepared (preflight host applier now nowIso proposal token currentSnapshot fs) := by
  unfold preflightShared preflight
  refine (reads_takeSnapshotShared host applier nowIso proposal token currentSnapshot fs).bind
    fun taken => ?_
  refine (Shared.Reads.of_ofExcept _ fs).bind fun _ => ?_
  refine (Shared.Reads.of_ofExcept _ fs).bind fun _ => ?_
  refine Shared.Reads.look_bind ?_
  refine (Shared.Reads.of_ofExcept _ fs).bind fun targetPaths => ?_
  refine (reads_readTargetsShared host fs _ targetPaths.entries _ _).bind fun reading => ?_
  exact (Shared.Reads.of_ofExcept _ fs).bind fun modified => Shared.Reads.of_pure _ fs _

/-! ### Writing -/

theorem solo_writeFilesShared (io : ℕ → WriteOutcome) : (k : ℕ) → (l : List (String × ByteArray)) →
    (fs : FileSystem) → (writeFilesShared io k l).solo fs =
      (.ok ((writeFiles io k l fs).1, (writeFiles io k l fs).2.1), (writeFiles io k l fs).2.2)
  | k, [], fs => rfl
  | k, (path, bytes) :: rest, fs => by
    unfold writeFilesShared writeFiles
    rw [Shared.solo_bind, Shared.solo_touch]
    rcases fs.writeBytes (io k) path bytes with ⟨_ | err, fs'⟩
    · exact solo_writeFilesShared io (k + 1) rest fs'
    · rfl

theorem solo_restoreFilesShared (io : ℕ → WriteOutcome) (hashes : Dict String String) :
    (k : ℕ) → (l : List (String × ByteArray)) → (fs : FileSystem) →
      (restoreFilesShared host io hashes k l).solo fs =
        (.ok (restoreFiles host io hashes k l fs).1, (restoreFiles host io hashes k l fs).2)
  | k, [], fs => rfl
  | k, (path, raw) :: rest, fs => by
    unfold restoreFilesShared restoreFiles
    rw [Shared.solo_bind, Shared.solo_touch]
    rcases hw : fs.writeBytes (io k) path raw with ⟨_ | err, fs'⟩
    · have hc : fs'.content path = some raw := by grind [FileSystem.writeBytes_content_self]
      simp only [Shared.solo_bind, Shared.solo_look, solo_restoreFilesShared io hashes (k + 1) rest fs',
        hc, Option.getD_some]
      split <;> rfl
    · simp only [Shared.solo_bind, solo_restoreFilesShared io hashes (k + 1) rest fs']
      rfl

theorem solo_rollbackShared (io : ℕ → WriteOutcome) (k : ℕ) (backup : Dict String ByteArray)
    (hashes : Dict String String) (fs : FileSystem) :
    (rollbackShared host io k backup hashes).solo fs =
      (.ok (rollbackTransaction host io k backup hashes fs).1,
        (rollbackTransaction host io k backup hashes fs).2) := by
  unfold rollbackShared rollbackTransaction
  simp only [Shared.solo_bind, solo_restoreFilesShared]
  split <;> rfl

theorem solo_tryMutateShared (io : Io) (nowIso : String) (proposal : PatchProposal)
    (token : PatchApprovalToken) (p : Prepared) (fs : FileSystem) :
    (tryMutateShared host applier io nowIso proposal token p).solo fs =
      (.ok ((tryMutate host applier io nowIso proposal token p fs).1,
        (tryMutate host applier io nowIso proposal token p fs).2.1),
        (tryMutate host applier io nowIso proposal token p fs).2.2) := by
  unfold tryMutateShared tryMutate
  simp only [Shared.solo_bind, solo_writeFilesShared]
  rcases writeFiles io.write 0 (Prepared.writes p) fs with ⟨_ | err, k, fs'⟩
  · rcases io.postSnapshot with _ | err
    · simp only [Shared.solo_bind, Shared.solo_attempt]
      rcases capture_cases host applier.repositoryRoot nowIso fs' proposal.targetFiles with
        ⟨reads, hsolo, hcap⟩ | ⟨msg, hsolo, hcap⟩
      · rw [hsolo, hcap]
        rcases token.markUsed with err | used <;> rfl
      · rw [hsolo, hcap]
        rfl
    · rfl
  · rfl

theorem solo_mutateShared (io : Io) (nowIso txId : String) (proposal : PatchProposal)
    (token : PatchApprovalToken) (p : Prepared) (fs : FileSystem) :
    (mutateShared host applier io nowIso txId proposal token p).solo fs =
      (.ok (mutate host applier io nowIso txId proposal token p fs).1,
        (mutate host applier io nowIso txId proposal token p fs).2) := by
  unfold mutateShared mutate
  rw [Shared.solo_bind, solo_tryMutateShared]
  rcases tryMutate host applier io nowIso proposal token p fs with ⟨err | ⟨post, used⟩, k, fs'⟩
  · simp only [Shared.solo_bind, solo_rollbackShared]
    rfl
  · rfl

/-- Alone on the disk, the call is `apply`.
Source: `applier.py`, `ControlledPatchApplier.apply`
Kind: P -/
theorem solo_applyShared (io : Io) (now : ℤ) (nowIso txId : String) (proposal : PatchProposal)
    (token : PatchApprovalToken) (currentSnapshot : Option SourceSnapshot) (fs : FileSystem) :
    let alone := (applyShared host applier io now nowIso txId proposal token currentSnapshot).solo fs
    (alone.1.map fun o => (o.result, o.token), alone.2) =
      apply host applier io now nowIso txId proposal token currentSnapshot fs := by
  obtain ⟨y, hy, hmap⟩ :=
    reads_preflightShared host applier now nowIso proposal token currentSnapshot fs
  unfold applyShared apply
  rw [← hmap]
  simp only [Shared.solo_bind, Shared.solo_attempt, hy]
  rcases y with (⟨preHash, reason⟩ | msg) | ready
  · rfl
  · rfl
  · simp only [Shared.solo_bind, solo_mutateShared]
    rfl

/-! ## Interleaved -/

/-- The record of the bytes that were patched. Kind: D -/
def baseSnapshots (proposal : PatchProposal) (base : Dict String ByteArray) : List FileSnapshot :=
  proposal.targetFiles.map fun rel => fileSnapshotOf host (rel, base.get? rel)

/-- The bytes that were patched have the hash that the token is bound to. Kind: D -/
def BaseApproved (proposal : PatchProposal) (token : PatchApprovalToken) (base : Dict String ByteArray) :
    Prop :=
  SourceSnapshot.computeAggregateHash host (baseSnapshots host proposal base) = token.sourceSnapshotHash

/-- Every target file holds, when it is read to be patched, what it held when the snapshot was taken; a
snapshot that was given has the records of these bytes, and their hash. Kind: D -/
def Undisturbed (proposal : PatchProposal) (currentSnapshot : Option SourceSnapshot) (o : Observed) : Prop :=
  (∀ reads, o.captured = some reads → ∀ r ∈ reads, r.2 = o.base.get? r.1) ∧
    ∀ snap, currentSnapshot = some snap → snap.fileSnapshots = baseSnapshots host proposal o.base ∧
      snap.aggregateHash = SourceSnapshot.computeAggregateHash host snap.fileSnapshots

/-- The files are captured in the order of the call. Kind: L -/
theorem yields_captureFiles {root : String} : {files : List String} →
    {reads : List (String × Option ByteArray)} →
    Shared.Yields (captureFiles root files) (.ok reads) → reads.map Prod.fst = files
  | [], reads, h => by
    rw [Shared.Yields.of_pure h]
    rfl
  | rel :: rest, reads, h => by
    obtain ⟨content, -, h⟩ := h.of_bind
    obtain ⟨tail, htail, h⟩ := h.of_bind
    rw [Shared.Yields.of_pure h, List.map_cons, yields_captureFiles htail]

/-- What is found at the snapshot of a call that takes it. Kind: L -/
theorem yields_takeSnapshotShared {nowIso : String} {proposal : PatchProposal} {token : PatchApprovalToken}
    {currentSnapshot : Option SourceSnapshot} {snap : SourceSnapshot}
    {captured : Option (List (String × Option ByteArray))}
    (h : Shared.Yields (takeSnapshotShared host applier nowIso proposal token currentSnapshot)
      (.ok (snap, captured))) :
    currentSnapshot = some snap ∧ captured = none ∨
      ∃ reads, captured = some reads ∧ reads.map Prod.fst = proposal.targetFiles ∧
        snap = snapshotOf host applier.repositoryRoot reads nowIso := by
  unfold takeSnapshotShared at h
  split at h
  · cases h
  rcases currentSnapshot with _ | given
  · obtain ⟨outcome, hfiles, h⟩ := h.of_bind
    rcases outcome with (msg | msg) | reads
    · cases h
    · cases h
    · cases h
      exact .inr ⟨reads, rfl, yields_captureFiles hfiles.of_attempt, rfl⟩
  · cases h
    exact .inl ⟨rfl, rfl⟩

/-- A preflight that passes has compared its snapshot with the token. Kind: L -/
theorem yields_preflightShared {now : ℤ} {nowIso : String} {proposal : PatchProposal}
    {token : PatchApprovalToken} {currentSnapshot : Option SourceSnapshot} {ready : Preparation}
    (h : Shared.Yields (preflightShared host applier now nowIso proposal token currentSnapshot)
      (.ok ready)) :
    Shared.Yields (takeSnapshotShared host applier nowIso proposal token currentSnapshot)
        (.ok (ready.prepared.snap, ready.captured)) ∧
      token.sourceSnapshotHash = ready.prepared.snap.aggregateHash := by
  obtain ⟨⟨snap, captured⟩, htake, h⟩ := h.of_bind
  obtain ⟨_, hcheck, h⟩ := h.of_bind
  obtain ⟨-, -, h⟩ := h.of_bind
  obtain ⟨paths, -, h⟩ := h.of_bind
  obtain ⟨targetPaths, -, h⟩ := h.of_bind
  obtain ⟨⟨reading, base⟩, -, h⟩ := h.of_bind
  obtain ⟨modified, -, h⟩ := h.of_bind
  obtain rfl := h.of_pure
  obtain ⟨msg, hvalid⟩ := checkToken_ok hcheck.of_ofExcept
  exact ⟨htake, (PatchApprovalToken.verifyValid_ok hvalid).2.2.2.2⟩

/-- The texts that are patched are the bytes that were read. Kind: L -/
theorem yields_readTargetsShared {pre : String} : {l : List (String × String)} → {r r' : Reading} →
    {base base' : Dict String ByteArray} →
    (∀ rel, r.fileContents.get? rel = (base.get? rel).bind decodeUtf8) →
    Shared.Yields (readTargetsShared host pre l r base) (.ok (r', base')) →
    ∀ rel, r'.fileContents.get? rel = (base'.get? rel).bind decodeUtf8
  | [], r, r', base, base', hread, h => by
    cases h
    exact hread
  | (rel, path) :: rest, r, r', base, base', hread, h => by
    unfold readTargetsShared at h
    obtain ⟨present, -, h⟩ := h.of_bind
    split at h
    · obtain ⟨content, -, h⟩ := h.of_bind
      rcases content with _ | raw
      · cases h
      · rcases hd : decodeUtf8 raw with _ | text
        · simp only [hd] at h
          cases h
        · simp only [hd] at h
          refine yields_readTargetsShared (fun name => ?_) h
          by_cases hname : name = rel
          · subst hname
            simp [hd]
          · simpa [Dict.get?_set, hname] using hread name
    · cases h

/-- An application, in any interleaving, that finds the same bytes at its two readings, patches what was
approved.
Source: `applier.py`, `ControlledPatchApplier.apply`; `snapshot.py`, `SourceSnapshot.capture`
Kind: T -/
theorem base_approved {env : FileSystem → FileSystem → Prop} {io : Io} {now : ℤ} {nowIso txId : String}
    {proposal : PatchProposal} {token : PatchApprovalToken} {currentSnapshot : Option SourceSnapshot}
    {fs fs' : FileSystem} {o : Observed}
    (h : Shared.Runs env (applyShared host applier io now nowIso txId proposal token currentSnapshot) fs
      (.ok o) fs')
    (happlied : o.result.status = .applied) (hsame : Undisturbed host proposal currentSnapshot o) :
    BaseApproved host proposal token o.base := by
  obtain ⟨outcome, hready, h⟩ := h.yields.of_bind
  rcases outcome with (⟨preHash, reason⟩ | msg) | ready
  · obtain rfl := h.of_pure
    cases happlied
  · cases h
  · obtain ⟨⟨res, tok⟩, -, h⟩ := h.of_bind
    obtain rfl := h.of_pure
    obtain ⟨htake, htoken⟩ := yields_preflightShared host applier hready.of_attempt
    unfold BaseApproved
    rw [htoken]
    rcases yields_takeSnapshotShared host applier htake with
      ⟨hgiven, -⟩ | ⟨reads, hcaptured, hfiles, hsnap⟩
    · obtain ⟨hrecords, hhash⟩ := hsame.2 _ hgiven
      rw [hhash, hrecords]
    · have hrecords : reads.map (fileSnapshotOf host) = baseSnapshots host proposal ready.base := by
        unfold baseSnapshots
        rw [← hfiles, List.map_map]
        refine List.map_congr_left fun r hr => ?_
        rw [Function.comp_apply, ← hsame.1 reads hcaptured r hr]
      rw [hsnap]
      exact congrArg (SourceSnapshot.computeAggregateHash host) hrecords.symm

/-! ## A write between the two readings -/

/-- Another program writes a target file. Kind: D -/
def ExternalWrite (targetFiles : List String) (fs fs' : FileSystem) : Prop :=
  ∃ rel ∈ targetFiles, ∃ content, fs' = fs.put (targetPath fs rel) content

/-- The proposal to replace `eval` in `a.php`. Kind: D -/
def execProposal : PatchProposal := sampleProposal [sampleHunk "eval" "exec"] []

/-- It was approved while the file held `eval($x);`. Kind: D -/
def execApproval : PatchApprovalToken := sampleApproval execProposal "eval($x);".toList

/-- The call. Kind: D -/
def execCall : Shared FileSystem String Observed :=
  applyShared sampleHost sampleApplier sampleIo 0 "" "tx" execProposal execApproval none

/-- Before its fourth access, when the snapshot has been taken, the file gets other bytes. Kind: D -/
def otherBytes (k : ℕ) (fs : FileSystem) : FileSystem :=
  if k = 3 then fs.put (targetPath fs "a.php") (some (encodeUtf8 "eval($x); evil();".toList)) else fs

/-- A schedule under which the call comes to an end. Kind: L -/
theorem execCall_runs {moves : ℕ → FileSystem → FileSystem} {β : Type} (f : Observed → β) {b : β}
    (hmoves : ∀ k fs, Relation.ReflTransGen (ExternalWrite ["a.php"]) fs (moves k fs))
    (h : (Shared.disturbed moves 0 execCall (sampleDisk "eval($x);".toList)).1.map f = .ok b) :
    ∃ o fs', Shared.Runs (ExternalWrite ["a.php"]) execCall (sampleDisk "eval($x);".toList) (.ok o) fs' ∧
      f o = b := by
  have hrun := Shared.runs_disturbed hmoves 0 execCall (sampleDisk "eval($x);".toList)
  rcases hd : Shared.disturbed moves 0 execCall (sampleDisk "eval($x);".toList) with ⟨msg | o, fs'⟩
  · rw [hd] at h
    cases h
  · rw [hd] at hrun h
    exact ⟨o, fs', hrun, Except.ok.inj h⟩

/-- The file is written between its two readings, and other bytes than the approved ones are patched.
Source: `applier.py`, `apply`, steps 1.1 and 1.4
Kind: T -/
theorem other_bytes_patched : ∃ o fs',
    Shared.Runs (ExternalWrite ["a.php"]) execCall (sampleDisk "eval($x);".toList) (.ok o) fs' ∧
      o.result.status = .applied ∧ ¬BaseApproved sampleHost execProposal execApproval o.base := by
  have hmoves : ∀ k fs, Relation.ReflTransGen (ExternalWrite ["a.php"]) fs (otherBytes k fs) := by
    intro k fs
    unfold otherBytes
    split
    · exact .single ⟨"a.php", by simp, _, rfl⟩
    · exact .refl
  obtain ⟨o, fs', hrun, ho⟩ := execCall_runs (fun o => (o.result.status,
      SourceSnapshot.computeAggregateHash sampleHost (baseSnapshots sampleHost execProposal o.base)))
    (b := (.applied, "a.php:eval($x); evil();:17:True")) hmoves (by decide +kernel)
  obtain ⟨hstatus, hhash⟩ := Prod.mk.inj ho
  refine ⟨o, fs', hrun, hstatus, fun happroved => ?_⟩
  unfold BaseApproved at happroved
  rw [hhash] at happroved
  exact absurd happroved (by decide +kernel)

/-- Without another writer the approved bytes are patched. Kind: C -/
theorem exec_base_approved : ∃ o fs',
    Shared.Runs (ExternalWrite ["a.php"]) execCall (sampleDisk "eval($x);".toList) (.ok o) fs' ∧
      o.result.status = .applied ∧ BaseApproved sampleHost execProposal execApproval o.base := by
  obtain ⟨o, fs', hrun, ho⟩ := execCall_runs (fun o => (o.result.status,
      (o.captured.getD []).all fun r => decide (r.2.map (·.data) = (o.base.get? r.1).map (·.data))))
    (b := (.applied, true)) (fun _ _ => .refl) (by decide +kernel)
  obtain ⟨hstatus, hall⟩ := Prod.mk.inj ho
  refine ⟨o, fs', hrun, hstatus, base_approved _ _ hrun hstatus ⟨fun reads hreads r hr => ?_, by simp⟩⟩
  rw [hreads] at hall
  have hdata := of_decide_eq_true (List.all_eq_true.mp hall r hr)
  exact Option.map_injective (fun _ _ h => ByteArray.ext h) hdata

end ControlledPatchApplier

end KarsaSec.Remediation
