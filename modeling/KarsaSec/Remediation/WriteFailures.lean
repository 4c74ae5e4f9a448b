import KarsaSec.Remediation.ApplierOutcome

/-!
# Writes that fail

`ControlledPatchApplier.apply` when the disk refuses writes: any of the writes of the patch, and any of the writes that restore.

* `restoreFiles_raises`: a restoring write that fails is reported.
* `apply_atomic`: a call that returns neither `APPLIED` nor the critical status has changed nothing, and where a restoring write
  fails the status is the critical one.
-/

namespace KarsaSec.Remediation

open KarsaSec.Found

namespace ControlledPatchApplier

section restoring

variable {host : Host} {io : ℕ → WriteOutcome} {hashes : Dict String String}

/-- A restoring write that fails leaves an error. Source: `applier.py`, `_rollback_transaction`, loop. Kind: L -/
theorem restoreFiles_raises {j : ℕ} {left : Option ByteArray} {msg : String} : {k : ℕ} → {l : List (String × ByteArray)} →
    {fs : FileSystem} → j < l.length → io (k + j) = .raises left msg → (restoreFiles host io hashes k l fs).1 ≠ []
  | _, [], _, hj, _ => absurd hj (Nat.not_lt_zero j)
  | k, (path, raw) :: rest, fs, hj, hio => by
    intro hnil
    obtain ⟨hwritten, hrest⟩ := (restoreFiles_cons host io hashes k path raw rest fs).2 hnil
    cases j with
    | zero =>
      rw [show io k = .raises left msg from hio] at hwritten
      cases hwritten
    | succ j =>
      have hio' : io (k + 1 + j) = .raises left msg := by
        rw [← hio]
        congr 1
        omega
      exact restoreFiles_raises (Nat.lt_of_succ_lt_succ hj) hio' hrest

/-- So the rollback reports the critical status. Source: `applier.py`, `_rollback_transaction`. Kind: L -/
theorem rollbackTransaction_raises {k j : ℕ} {left : Option ByteArray} {msg : String} {backup : Dict String ByteArray}
    {fs : FileSystem} (hj : j < backup.entries.length) (hio : io (k + j) = .raises left msg) :
    (rollbackTransaction host io k backup hashes fs).1.1 = "CRITICAL_RECOVERY_FAILURE" := by
  unfold rollbackTransaction
  have hne : (restoreFiles host io hashes k backup.entries fs).1 ≠ [] := restoreFiles_raises hj hio
  dsimp only
  rw [if_neg hne]

end restoring

section call

variable {host : Host} {applier : ControlledPatchApplier} {io : Io} {now : ℤ} {nowIso txId : String}
  {proposal : PatchProposal} {token : PatchApprovalToken} {currentSnapshot : Option SourceSnapshot} {fs : FileSystem}

/-- The patch is being taken back, after `k` writes, and one of the restoring writes fails. Source: `applier.py`, `apply`,
the `except` block of phase 2. Kind: D -/
def RestoreWriteFails (host : Host) (applier : ControlledPatchApplier) (io : Io) (now : ℤ) (nowIso : String)
    (proposal : PatchProposal) (token : PatchApprovalToken) (currentSnapshot : Option SourceSnapshot) (fs : FileSystem) : Prop :=
  ∃ p err k fs₁ j left msg, preflight host applier now nowIso proposal token currentSnapshot fs = .ok p ∧
    tryMutate host applier io nowIso proposal token p fs = (.error err, k, fs₁) ∧
    j < p.backupBytes.entries.length ∧ io.write (k + j) = .raises left msg

/-- **An application that is not completed leaves nothing behind.** Whichever writes fail: a call that returns neither `APPLIED` nor
the critical status leaves the disk and the token as they were, and where a restoring write fails it returns the critical status.
Source: `applier.py`, `apply` and `_rollback_transaction`. Kind: T -/
theorem apply_atomic {res : ApplicationResult} {tok : PatchApprovalToken} {fs' : FileSystem}
    (h : apply host applier io now nowIso txId proposal token currentSnapshot fs = (.ok (res, tok), fs')) :
    (res.status ≠ .applied → res.status ≠ .criticalRecoveryFailure → fs' = fs ∧ tok = token) ∧
      (RestoreWriteFails host applier io now nowIso proposal token currentSnapshot fs →
        res.status = .criticalRecoveryFailure) := by
  constructor
  · intro hnot hcrit
    obtain ⟨hends, -⟩ := apply_cases h
    generalize res.status = status at hends hnot hcrit
    cases hends with
    | rejected => exact ⟨rfl, rfl⟩
    | failed => exact ⟨rfl, rfl⟩
    | critical => exact absurd rfl hcrit
    | applied => exact absurd rfl hnot
  · rintro ⟨p, err, k, fs₁, j, left, msg, hpre, htry, hj, hio⟩
    have hcrit : (rollbackTransaction host io.write k p.backupBytes p.initialHashes fs₁).1.1 = "CRITICAL_RECOVERY_FAILURE" :=
      rollbackTransaction_raises hj hio
    unfold apply mutate at h
    simp only [hpre, htry, hcrit, if_true, Prod.mk.injEq, Except.ok.injEq] at h
    rw [← h.1.1]

/-- A disk that refuses the given writes. Kind: D -/
def refusing (refused : ℕ → Bool) : Io :=
  ⟨fun k => if refused k then .raises none "[Errno 28] No space left on device" else .written, none⟩

/-- The patch of `a.php` from `eval` to `exec`. Kind: D -/
def refusedCall (refused : ℕ → Bool) : Except String (ApplicationResult × PatchApprovalToken) × FileSystem :=
  let proposal := sampleProposal [sampleHunk "eval" "exec"] []
  apply sampleHost sampleApplier (refusing refused) 0 "" "tx" proposal (sampleApproval proposal "eval($x);".toList) none
    (sampleDisk "eval($x);".toList)

/-- The write of the patch is refused, and the file is as it was. Kind: T -/
theorem apply_atomic_refused : ∃ res tok fs', refusedCall (· = 0) = (.ok (res, tok), fs') ∧ res.status = .failed ∧
    fs' = sampleDisk "eval($x);".toList ∧
      tok = sampleApproval (sampleProposal [sampleHunk "eval" "exec"] []) "eval($x);".toList := by
  have hfailed : (refusedCall (· = 0)).1.toOption.map (fun r => r.1.status) = some .failed := by decide +kernel
  cases hcall : refusedCall (· = 0) with
  | mk returned fs' =>
    rw [hcall] at hfailed
    cases returned with
    | error msg => cases hfailed
    | ok pair =>
      obtain ⟨res, tok⟩ := pair
      have hstatus : res.status = .failed := Option.some.inj hfailed
      unfold refusedCall at hcall
      obtain ⟨hdisk, htoken⟩ := (apply_atomic hcall).1 (by rw [hstatus]; exact nofun) (by rw [hstatus]; exact nofun)
      exact ⟨res, tok, fs', rfl, hstatus, hdisk, htoken⟩

end call

end ControlledPatchApplier

end KarsaSec.Remediation
