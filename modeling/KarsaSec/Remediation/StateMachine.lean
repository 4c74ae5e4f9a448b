import KarsaSec.Remediation.Approval
import KarsaSec.Remediation.Verification
import KarsaSec.Found.Runs
import Mathlib.Data.List.Chain

/-!
# The remediation state machine

`LifecycleStateMachine`: the state of one remediation and the history of how it got there.

* `RemediationLifecycleState.targets` is the transition matrix.
* `VerificationEvidenceContract` is evidence as `__post_init__` lets it be built.
* `transition` and `transitionVerifiedFixed` are the two ways to move; each gives the machine after the
  call and the event, or the exception.
-/

namespace KarsaSec.Remediation

open KarsaSec.Found

/-! ## States -/

/-- Source: `state_machine.py`, `RemediationLifecycleState`. Kind: D -/
inductive RemediationLifecycleState
  | detected
  | evidenceVerified
  | rcaEstablished
  | remediationProposed
  | awaitingApproval
  | rejected
  | approved
  | snapshotVerified
  | applying
  | applyFailed
  | appliedUnverified
  | securityRescan
  | verifiedFixed
  | stillVulnerable
  | unknown
  | rolledBack
  | criticalRecoveryFailure
  deriving DecidableEq, Repr

namespace RemediationLifecycleState

/-- The string value of a state. Source: `state_machine.py`, `RemediationLifecycleState`. Kind: D -/
def value : RemediationLifecycleState → String
  | detected => "DETECTED"
  | evidenceVerified => "EVIDENCE_VERIFIED"
  | rcaEstablished => "RCA_ESTABLISHED"
  | remediationProposed => "REMEDIATION_PROPOSED"
  | awaitingApproval => "AWAITING_APPROVAL"
  | rejected => "REJECTED"
  | approved => "APPROVED"
  | snapshotVerified => "SNAPSHOT_VERIFIED"
  | applying => "APPLYING"
  | applyFailed => "APPLY_FAILED"
  | appliedUnverified => "APPLIED_UNVERIFIED"
  | securityRescan => "SECURITY_RESCAN"
  | verifiedFixed => "VERIFIED_FIXED"
  | stillVulnerable => "STILL_VULNERABLE"
  | unknown => "UNKNOWN"
  | rolledBack => "ROLLED_BACK"
  | criticalRecoveryFailure => "CRITICAL_RECOVERY_FAILURE"

/-- Source: `state_machine.py`, `_VALID_TRANSITIONS`. Kind: D -/
def targets : RemediationLifecycleState → List RemediationLifecycleState
  | detected => [evidenceVerified]
  | evidenceVerified => [rcaEstablished]
  | rcaEstablished => [remediationProposed]
  | remediationProposed => [awaitingApproval]
  | awaitingApproval => [approved, rejected]
  | approved => [snapshotVerified]
  | snapshotVerified => [applying]
  | applying => [appliedUnverified, applyFailed]
  | applyFailed => [rolledBack, criticalRecoveryFailure]
  | appliedUnverified => [securityRescan]
  | securityRescan => [verifiedFixed, stillVulnerable, unknown]
  | stillVulnerable => [rolledBack]
  | unknown => [rolledBack]
  | rolledBack => [criticalRecoveryFailure]
  | rejected | verifiedFixed | criticalRecoveryFailure => []

end RemediationLifecycleState

/-- A transition that is turned away.
Source: `state_machine.py`, `InvalidStateTransitionError`
Kind: D -/
structure InvalidStateTransitionError where
  currentState : RemediationLifecycleState
  targetState : RemediationLifecycleState
  reason : String
  deriving DecidableEq, Repr

/-- The text of the exception. Source: `state_machine.py`, `InvalidStateTransitionError`. Kind: D -/
def InvalidStateTransitionError.message (e : InvalidStateTransitionError) : String :=
  "Illegal transition from '" ++ e.currentState.value ++ "' to '" ++ e.targetState.value ++ "'."
    ++ (if e.reason = "" then "" else " Reason: " ++ e.reason)

/-! ## Evidence -/

/-- Source: `state_machine.py`, `VerificationAuthority`. Kind: D -/
inductive VerificationAuthority
  | deterministicSast
  | securityEngine
  | llmAdvisory
  | aiModel
  | humanClaim
  deriving DecidableEq, Repr

/-- The string value of an authority. Source: `state_machine.py`, `VerificationAuthority`. Kind: D -/
def VerificationAuthority.value : VerificationAuthority → String
  | deterministicSast => "DETERMINISTIC_SAST"
  | securityEngine => "SECURITY_ENGINE"
  | llmAdvisory => "LLM_ADVISORY"
  | aiModel => "AI_MODEL"
  | humanClaim => "HUMAN_CLAIM"

/-- The fields of an evidence contract.
Source: `state_machine.py`, `VerificationEvidenceContract`
Kind: D -/
structure EvidenceFields where
  findingId : String
  proposalFingerprint : String
  sourceSnapshotHash : String
  postApplySnapshotHash : String
  verificationRunId : String
  verificationFingerprint : String
  authority : VerificationAuthority
  verificationResult : Option VerificationResult := none
  deriving DecidableEq

/-- The first empty field is an error. Kind: D -/
def requireFields : List (String × String) → Except String Unit
  | [] => .ok ()
  | (name, text) :: rest =>
    if isBlank text then .error (name ++ " cannot be empty.") else requireFields rest

/-- The fields that may not be empty, under their names.
Source: `state_machine.py`, `VerificationEvidenceContract.__post_init__`
Kind: D -/
def EvidenceFields.required (e : EvidenceFields) : List (String × String) :=
  [("finding_id", e.findingId), ("proposal_fingerprint", e.proposalFingerprint),
    ("source_snapshot_hash", e.sourceSnapshotHash),
    ("post_apply_snapshot_hash", e.postApplySnapshotHash),
    ("verification_run_id", e.verificationRunId),
    ("verification_fingerprint", e.verificationFingerprint)]

/-- Source: `state_machine.py`, `VerificationEvidenceContract.__post_init__`. Kind: D -/
def EvidenceFields.postInit (e : EvidenceFields) : Except String Unit := do
  requireFields e.required
  if e.authority ∈ [.llmAdvisory, .aiModel, .humanClaim] then
    .error ("Authority '" ++ e.authority.value
      ++ "' cannot establish VERIFIED_FIXED state (L7 invariant).")
  else
    match e.verificationResult with
    | none => .ok ()
    | some result =>
      if result.status ≠ .verifiedFixed then
        .error ("Bound VerificationResult status must be VERIFIED_FIXED, got '"
          ++ result.status.value ++ "'.")
      else if result.findingId ≠ e.findingId then
        .error ("Bound VerificationResult finding_id '" ++ result.findingId
          ++ "' does not match contract finding_id '" ++ e.findingId ++ "'.")
      else .ok ()

/-- Evidence: fields that pass the checks of the constructor.
Source: `state_machine.py`, `VerificationEvidenceContract`
Kind: D -/
structure VerificationEvidenceContract extends EvidenceFields where
  /-- The constructor went through. -/
  checked : toEvidenceFields.postInit = .ok ()

/-- The constructor. Source: `state_machine.py`, `VerificationEvidenceContract`. Kind: D -/
def VerificationEvidenceContract.create (e : EvidenceFields) :
    Except String VerificationEvidenceContract :=
  match h : e.postInit with
  | .ok () => .ok ⟨e, h⟩
  | .error message => .error message

/-- Source: `state_machine.py`, `from_verification_result`. Kind: D -/
def VerificationEvidenceContract.ofVerificationResult (result : VerificationResult)
    (proposalFingerprint sourceSnapshotHash postApplySnapshotHash verificationFingerprint : String)
    (authority : VerificationAuthority) : Except String VerificationEvidenceContract :=
  create
    { findingId := result.findingId, proposalFingerprint, sourceSnapshotHash, postApplySnapshotHash
      verificationRunId := result.verificationId, verificationFingerprint, authority
      verificationResult := some result }

/-- The references that evidence leaves in the history.
Source: `state_machine.py`, `transition_verified_fixed`, `ev_refs`
Kind: D -/
def EvidenceFields.references (e : EvidenceFields) : List String :=
  ["proposal:" ++ e.proposalFingerprint, "src_snap:" ++ e.sourceSnapshotHash,
    "post_snap:" ++ e.postApplySnapshotHash, "rescan_id:" ++ e.verificationRunId,
    "verification_fp:" ++ e.verificationFingerprint]

theorem requireFields_ok {l : List (String × String)} :
    requireFields l = .ok () ↔ ∀ f ∈ l, isBlank f.2 = false := by
  induction l with
  | nil => simp [requireFields]
  | cons f l ih =>
    rcases f with ⟨name, text⟩
    rcases hblank : isBlank text with _ | _
    · simp [requireFields, hblank, ih]
    · simp [requireFields, hblank]

/-- What evidence has been checked for: it names a finding and a proposal, comes from no model and no
person, and a verification result that it carries is a fix of its finding.
Source: `state_machine.py`, `VerificationEvidenceContract.__post_init__`
Kind: L -/
theorem VerificationEvidenceContract.spec (e : VerificationEvidenceContract) :
    (∀ f ∈ e.required, isBlank f.2 = false) ∧
      (e.authority = .deterministicSast ∨ e.authority = .securityEngine) ∧
      ∀ result, e.verificationResult = some result →
        result.status = .verifiedFixed ∧ result.findingId = e.findingId := by
  have h := e.checked
  unfold EvidenceFields.postInit at h
  rcases hfields : requireFields e.required with message | _
  · rw [hfields] at h
    cases h
  · rw [hfields] at h
    simp only [Bind.bind, Except.bind] at h
    refine ⟨requireFields_ok.mp hfields, ?_⟩
    split at h
    · cases h
    · next hauthority =>
        refine ⟨?_, ?_⟩
        · rcases ha : e.authority <;> simp [ha] at hauthority ⊢
        · intro result hresult
          rw [hresult] at h
          simp only at h
          split at h
          · cases h
          · simp_all

/-! ## The machine -/

/-- A record of the history. Source: `state_machine.py`, `LifecycleEvent`. Kind: D -/
structure LifecycleEvent where
  eventId : String
  findingId : String
  previousState : RemediationLifecycleState
  newState : RemediationLifecycleState
  actor : String
  timestamp : String
  reason : String
  evidenceReferences : List String
  eventFingerprint : String
  deriving DecidableEq

/-- Source: `state_machine.py`, `LifecycleEvent.compute_fingerprint`. Kind: D -/
def LifecycleEvent.computeFingerprint (host : Host) (eventId findingId : String)
    (prevState newState : RemediationLifecycleState) (actor timestamp : String)
    (evidenceRefs : List String) : String :=
  host.sha256Text (joinStr "|" [eventId, findingId, prevState.value, newState.value, actor, timestamp,
    joinStr "|" (sortStrings evidenceRefs)])

/-- What a caller notes about a transition; `now` is what the clock shows.
Source: `state_machine.py`, parameters of `transition`
Kind: D -/
structure Note where
  actor : String
  reason : String := ""
  timestamp : Option String := none
  eventId : Option String := none
  now : String

/-- Source: `state_machine.py`, `LifecycleStateMachine`. Kind: D -/
structure LifecycleStateMachine where
  findingId : String
  currentState : RemediationLifecycleState
  history : List LifecycleEvent
  deriving DecidableEq

namespace LifecycleStateMachine

/-- The name of an event without one: the start of a digest. Kind: D -/
def drawEventId (host : Host) (parts : List String) : String :=
  "evt_" ++ String.ofList ((host.sha256Text (joinStr "|" parts)).toList.take 12)

/-- The constructor. Source: `state_machine.py`, `LifecycleStateMachine.__init__`. Kind: D -/
def create (host : Host) (findingId : String) (initialState : RemediationLifecycleState)
    (initialActor : String) (createdAt eventId : Option String) (now : String) :
    Except String LifecycleStateMachine :=
  if isBlank findingId then .error "finding_id cannot be empty."
  else
    let nowIso := orDefault createdAt now
    let evtId := orDefault eventId
      (drawEventId host [findingId, "init", initialState.value, nowIso])
    .ok
      { findingId, currentState := initialState
        history := [
          { eventId := evtId, findingId, previousState := initialState, newState := initialState
            actor := initialActor, timestamp := nowIso, reason := "Initial state creation"
            evidenceReferences := []
            eventFingerprint := LifecycleEvent.computeFingerprint host evtId findingId initialState
              initialState initialActor nowIso [] }] }

/-- Source: `state_machine.py`, `can_transition`. Kind: D -/
def canTransition (m : LifecycleStateMachine) (target : RemediationLifecycleState) : Bool :=
  target ∈ m.currentState.targets

/-- The event of a move. Source: `state_machine.py`, `transition`, `event`. Kind: D -/
def eventOf (host : Host) (m : LifecycleStateMachine) (target : RemediationLifecycleState)
    (note : Note) (defaultReason : String) (references : List String) : LifecycleEvent :=
  let nowIso := orDefault note.timestamp note.now
  let evtId := orDefault note.eventId
    (drawEventId host [m.findingId, m.currentState.value, target.value, nowIso])
  { eventId := evtId, findingId := m.findingId, previousState := m.currentState, newState := target
    actor := note.actor, timestamp := nowIso, reason := orDefault (some note.reason) defaultReason
    evidenceReferences := references
    eventFingerprint := LifecycleEvent.computeFingerprint host evtId m.findingId m.currentState target
      note.actor nowIso references }

/-- The machine after an event. Kind: D -/
def moved (m : LifecycleStateMachine) (event : LifecycleEvent) : LifecycleStateMachine :=
  { m with currentState := event.newState, history := m.history ++ [event] }

/-- Source: `state_machine.py`, `LifecycleStateMachine.transition`. Kind: D -/
def transition (host : Host) (m : LifecycleStateMachine) (target : RemediationLifecycleState)
    (note : Note) (evidenceReferences : List String) :
    LifecycleStateMachine × Except InvalidStateTransitionError LifecycleEvent :=
  if target = .verifiedFixed then
    (m, .error ⟨m.currentState, target, "VERIFIED_FIXED state requires explicit "
      ++ "transition_verified_fixed call with complete evidence contract."⟩)
  else if !m.canTransition target then
    (m, .error ⟨m.currentState, target, "Transition from '" ++ m.currentState.value ++ "' to '"
      ++ target.value ++ "' is not permitted by transition matrix."⟩)
  else
    let event := m.eventOf host target note ("Transition to " ++ target.value) evidenceReferences
    (m.moved event, .ok event)

/-- Source: `state_machine.py`, `LifecycleStateMachine.transition_verified_fixed`. Kind: D -/
def transitionVerifiedFixed (host : Host) (m : LifecycleStateMachine)
    (evidence : VerificationEvidenceContract) (note : Note) :
    LifecycleStateMachine × Except InvalidStateTransitionError LifecycleEvent :=
  if m.currentState ≠ .securityRescan then
    (m, .error ⟨m.currentState, .verifiedFixed,
      "VERIFIED_FIXED can only be reached from SECURITY_RESCAN, got '" ++ m.currentState.value
        ++ "'."⟩)
  else if evidence.findingId ≠ m.findingId then
    (m, .error ⟨m.currentState, .verifiedFixed, "Verification evidence finding_id '"
      ++ evidence.findingId ++ "' does not match state machine finding_id '" ++ m.findingId ++ "'."⟩)
  else
    let event := m.eventOf host .verifiedFixed note
      ("Deterministic verification fix confirmed via " ++ evidence.authority.value)
      evidence.references
    (m.moved event, .ok event)

end LifecycleStateMachine

end KarsaSec.Remediation
