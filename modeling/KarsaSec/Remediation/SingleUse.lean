import KarsaSec.Remediation.ApplierOutcome

/-!
# How often one approval is applied

Sessions of one applier: files are edited at will between calls, and every call works on the disk
as it finds it.

* `Session.step` is one event, `Session.run` a whole session; `log` collects the token ids of the
  calls that ended `APPLIED`. The source keeps no such record: its only trace of a consumed token is
  the new token object it hands back.
* `Call.TurnedDown` says that `verify_valid` turns a call down; a token that is not `APPROVED`
  any more, and files that are not back at the approved snapshot, are turned down.
* `applied_at_most_once`: in a session in which every call with an applied token id is turned down,
  no token id is applied twice. `replay_applied_twice` is a session in which one is.
-/

namespace KarsaSec.Remediation

open KarsaSec.Found ControlledPatchApplier

/-- One call of `apply`. Kind: D -/
structure Call where
  io : Io
  now : ℤ
  nowIso : String
  txId : String
  proposal : PatchProposal
  token : PatchApprovalToken
  currentSnapshot : Option SourceSnapshot

/-- What happens in a session: the files change, or a proposal is submitted. Kind: D -/
inductive Event
  | edit (disk : FileSystem)
  | submit (call : Call)

/-- The disk, and the token ids that have been applied so far. Kind: D -/
structure Session where
  disk : FileSystem
  log : List String

variable (host : Host) (applier : ControlledPatchApplier)

/-- The call made on a disk. Source: `applier.py`, `apply`. Kind: D -/
def Call.perform (c : Call) (disk : FileSystem) :
    Except String (ApplicationResult × PatchApprovalToken) × FileSystem :=
  apply host applier c.io c.now c.nowIso c.txId c.proposal c.token c.currentSnapshot disk

/-- The token id of a result that is `APPLIED`. Kind: D -/
def appliedId : Except String (ApplicationResult × PatchApprovalToken) → Option String
  | .ok (res, _) => if res.status = .applied then some res.tokenId else none
  | .error _ => none

/-- One event of a session. Kind: D -/
def Session.step (s : Session) : Event → Session
  | .edit disk => { s with disk := disk }
  | .submit c =>
    let (outcome, disk) := c.perform host applier s.disk
    ⟨disk, s.log ++ (appliedId outcome).toList⟩

/-- A whole session. Kind: D -/
def Session.run (s : Session) (events : List Event) : Session :=
  events.foldl (Session.step host applier) s

/-- The call gets a snapshot and its token does not pass `verify_valid` for it; or it gets none.
Source: `approval.py`, `PatchApprovalToken.verify_valid`
Kind: D -/
def Call.TurnedDown (c : Call) (disk : FileSystem) : Prop :=
  ∀ snap msg, takeSnapshot host applier c.nowIso c.proposal c.token c.currentSnapshot disk =
      .ok snap →
    c.token.verifyValid host c.now c.proposal.findingId c.proposal.proposalFingerprint
      snap.aggregateHash applier.repositoryRoot ≠ .ok (true, msg)

/-- Every call of the session that presents an applied token id is turned down. Kind: D -/
def Session.Guarded (s : Session) : List Event → Prop
  | [] => True
  | .edit disk :: rest => (s.step host applier (.edit disk)).Guarded rest
  | .submit c :: rest =>
    (c.token.tokenId ∈ s.log → c.TurnedDown host applier s.disk) ∧
      (s.step host applier (.submit c)).Guarded rest

variable {host applier}

/-- A token that is not `APPROVED` any more is turned down, on every disk.
Source: `approval.py`, `PatchApprovalToken.verify_valid`
Kind: L -/
theorem Call.turnedDown_of_status {c : Call} (h : c.token.status ≠ .approved)
    (disk : FileSystem) : c.TurnedDown host applier disk := by
  intro snap msg _ hv
  exact h (PatchApprovalToken.verifyValid_ok hv).1

/-- Files that are not back at the approved snapshot are turned down.
Source: `approval.py`, `PatchApprovalToken.verify_valid`
Kind: L -/
theorem Call.turnedDown_of_snapshot {c : Call} {disk : FileSystem}
    (h : ∀ snap, takeSnapshot host applier c.nowIso c.proposal c.token c.currentSnapshot disk = .ok snap →
      c.token.sourceSnapshotHash ≠ snap.aggregateHash) : c.TurnedDown host applier disk := by
  intro snap msg hsnap hv
  exact h snap hsnap (PatchApprovalToken.verifyValid_ok hv).2.2.2.2

/-- A call that is turned down is not applied. Source: `applier.py`, `apply`. Kind: L -/
theorem Call.appliedId_of_turnedDown {c : Call} {disk : FileSystem}
    (h : c.TurnedDown host applier disk) :
    appliedId (c.perform host applier disk).1 = none := by
  rcases hp : c.perform host applier disk with ⟨msg | ⟨res, tok⟩, disk'⟩
  · rfl
  · obtain ⟨hends, -⟩ := apply_cases hp
    refine if_neg fun hs => ?_
    rw [hs] at hends
    rcases hends with _ | _ | _ | ⟨p, _, _, _, passed, _, _⟩
    obtain ⟨msg, hv⟩ := passed.verified
    refine absurd hv (h p.snap msg ?_)
    unfold takeSnapshot
    rw [if_neg passed.unused]
    rcases passed.snapshot with hsome | ⟨hnone, hcap⟩
    · rw [hsome]
    · rw [hnone]
      simp [hcap]

/-- A call logs no other token id than the one it presents. Source: `applier.py`, `apply`.
Kind: L -/
theorem Call.appliedId_eq {c : Call} {disk : FileSystem} {tid : String}
    (h : appliedId (c.perform host applier disk).1 = some tid) : tid = c.token.tokenId := by
  rcases hp : c.perform host applier disk with ⟨msg | ⟨res, tok⟩, disk'⟩
  · rw [hp] at h
    cases h
  · rw [hp] at h
    simp only [appliedId] at h
    split at h
    · cases h
      exact (apply_cases hp).2
    · cases h

/-- One event keeps the log free of repetitions, unless it submits an applied token id again
without being turned down. Kind: L -/
theorem Session.nodup_step {s : Session} (hs : s.log.Nodup) {e : Event}
    (h : ∀ c, e = .submit c → c.token.tokenId ∈ s.log → c.TurnedDown host applier s.disk) :
    (s.step host applier e).log.Nodup := by
  rcases e with disk | c
  · exact hs
  · show (s.log ++ (appliedId (c.perform host applier s.disk).1).toList).Nodup
    rcases ha : appliedId (c.perform host applier s.disk).1 with _ | tid
    · simpa using hs
    · have htid := Call.appliedId_eq ha
      have hnew : tid ∉ s.log := by grind [Call.appliedId_of_turnedDown]
      simpa [List.nodup_append, hs] using fun a ha' => fun e : a = tid => hnew (e ▸ ha')

/-- A guarded session keeps the log free of repetitions. Kind: L -/
theorem Session.nodup_run {events : List Event} {s : Session} (hs : s.log.Nodup)
    (hg : s.Guarded host applier events) : (s.run host applier events).log.Nodup := by
  induction events generalizing s with
  | nil => exact hs
  | cons e rest ih =>
    rcases e with disk | c
    · have hstep : (s.step host applier (.edit disk)).log.Nodup := hs
      exact ih hstep hg
    · obtain ⟨hdown, hrest⟩ := hg
      have hstep : (s.step host applier (.submit c)).log.Nodup := by simp_all [Session.nodup_step]
      exact ih hstep hrest

/-- **An approval is applied at most once** in every session in which each call that presents an
applied token id is turned down by `verify_valid`, from every disk and with any edits in between.
Source: `applier.py`, `ControlledPatchApplier.apply`
Kind: P -/
theorem applied_at_most_once (host : Host) (applier : ControlledPatchApplier) (disk : FileSystem)
    (events : List Event) (hg : (Session.mk disk []).Guarded host applier events) (tid : String) :
    ((Session.mk disk []).run host applier events).log.count tid ≤ 1 :=
  List.nodup_iff_count_le_one.mp (Session.nodup_run List.nodup_nil hg) tid

/-- The call that presents the approval of one replacement in one file. Kind: D -/
def replayCall : Call where
  io := sampleIo
  now := 0
  nowIso := ""
  txId := "tx"
  proposal := sampleProposal [sampleHunk "eval" "exec"] []
  token := sampleApproval (sampleProposal [sampleHunk "eval" "exec"] []) "eval($x);".toList
  currentSnapshot := none

/-- After an application the used token is turned down, also on the reverted file. Kind: C -/
theorem applied_at_most_once_used :
    ((Session.mk (sampleDisk "eval($x);".toList) []).run sampleHost sampleApplier
      [.submit replayCall, .edit (sampleDisk "eval($x);".toList),
        .submit { replayCall with token := { replayCall.token with status := .used } }]).log.count
      "token" ≤ 1 := by
  apply applied_at_most_once
  refine ⟨fun h => absurd h List.not_mem_nil, fun _ => ?_, trivial⟩
  exact Call.turnedDown_of_status (fun h => by cases h) _

/-! ## A session that applies one approval twice -/

/-- The approval is submitted, the file is reverted to the approved text, and the same token object
is submitted again. Kind: D -/
def replayEvents : List Event :=
  [.submit replayCall, .edit (sampleDisk "eval($x);".toList), .submit replayCall]

/-- In this session one token id is applied twice. Kind: C -/
theorem replay_applied_twice :
    ((Session.mk (sampleDisk "eval($x);".toList) []).run sampleHost sampleApplier
      replayEvents).log.count "token" = 2 := by
  obtain ⟨res, hres, hst, -, hid⟩ := sample_applied (sampleProposal [sampleHunk "eval" "exec"] [])
    "eval($x);".toList rfl (by simp [sampleProposal, sampleHunk])
    (by simp [sampleProposal, sampleHunk, MatchedOnce]; decide)
  have hperform : replayCall.perform sampleHost sampleApplier (sampleDisk "eval($x);".toList) =
      (.ok (res, _), _) := hres
  have hlog : appliedId (replayCall.perform sampleHost sampleApplier
      (sampleDisk "eval($x);".toList)).1 = some "token" := by
    rw [hperform]
    simp only [appliedId, if_pos hst, hid]
  simp only [Session.run, replayEvents, List.foldl_cons, List.foldl_nil, Session.step, hlog]
  rfl

end KarsaSec.Remediation
