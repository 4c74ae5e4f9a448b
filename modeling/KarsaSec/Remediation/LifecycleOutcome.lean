import KarsaSec.Remediation.Lifecycle
import KarsaSec.Remediation.RollbackSafety

/-!
# How a remediation ends

What `RemediationLifecycleEngine.execute` leaves in the history and in the ledger, for every run.

* `Trail` is what a run has recorded so far; `advance_trail` says what one stage adds to it, and each stage
  has a lemma of its own.
* `transaction_reports` lists the rollback states that a transaction can report.
* `execute_cases` is the inversion of a run; `outcome_iff` reads off what the run of a failed rollback and the
  run of a fix have recorded. `failed_restore_rolled_back` is a run that hides a failed rollback.
-/

namespace KarsaSec.Remediation

open KarsaSec.Found KarsaSec.Findings

variable {F : Type} {host : Host} {w : Wording F}

/-! ## What a transaction reports -/

/-- The rollback state of a result: nothing was needed after an application that went through, and otherwise the
applier has written one of three texts. Kind: D -/
def ApplicationResult.Reports (res : ApplicationResult) : Prop :=
  res.status = .applied ∧ res.rollbackStatus = "NOT_NEEDED" ∨
    res.status ≠ .applied ∧
      res.rollbackStatus ∈ ["NOT_NEEDED", "SUCCESS", "CRITICAL_RECOVERY_FAILURE"]

theorem rollbackTransaction_status (io : ℕ → WriteOutcome) (k : ℕ) (backup : Dict String ByteArray)
    (hashes : Dict String String) (fs : FileSystem) :
    (ControlledPatchApplier.rollbackTransaction host io k backup hashes fs).1.1 ∈
      ["SUCCESS", "CRITICAL_RECOVERY_FAILURE"] := by
  unfold ControlledPatchApplier.rollbackTransaction
  split
  split
  · exact List.mem_cons_self
  · exact List.mem_cons_of_mem _ List.mem_cons_self

theorem apply_reports {applier : ControlledPatchApplier} {io : Io} {now : ℤ} {nowIso txId : String}
    {proposal : PatchProposal} {token tok : PatchApprovalToken} {snapshot : Option SourceSnapshot}
    {fs fs' : FileSystem} {res : ApplicationResult}
    (h : ControlledPatchApplier.apply host applier io now nowIso txId proposal token snapshot fs =
      (.ok (res, tok), fs')) : res.Reports := by
  unfold ControlledPatchApplier.apply at h
  split at h
  · cases h
    exact Or.inr ⟨by simp [ControlledPatchApplier.rejection], by
      simp [ControlledPatchApplier.rejection]⟩
  · cases h
  · next p _ =>
      unfold ControlledPatchApplier.mutate at h
      rcases ht : ControlledPatchApplier.tryMutate host applier io nowIso proposal token p fs with
        ⟨err | ⟨post, used⟩, k, fs₁⟩
      · simp only [ht, Prod.mk.injEq, Except.ok.injEq] at h
        obtain ⟨⟨rfl, -⟩, -⟩ := h
        refine Or.inr ⟨?_, List.mem_cons_of_mem _ (rollbackTransaction_status _ _ _ _ _)⟩
        dsimp only
        split <;> simp
      · simp only [ht, Prod.mk.injEq, Except.ok.injEq] at h
        obtain ⟨⟨rfl, -⟩, -⟩ := h
        exact Or.inl ⟨rfl, rfl⟩

/-- The rollback states that a transaction can report.
Source: `application_agent.py`, `execute_transaction`
Kind: L -/
theorem transaction_reports {agent : RemediationApplicationAgent} {env : Environment}
    {proposal : PatchProposal} {token tok : PatchApprovalToken} {finding : Finding} {fs : FileSystem}
    {res : ApplicationResult} {ver : Option VerificationResult}
    (h : (RemediationApplicationAgent.executeTransaction host agent env proposal token finding fs).result =
      .ok (res, ver, tok)) : res.Reports := by
  unfold RemediationApplicationAgent.executeTransaction at h
  rcases happly : ControlledPatchApplier.apply host agent.applier env.io env.now env.nowIso env.txId
    proposal token none fs with ⟨msg | ⟨appRes, updated⟩, fs'⟩
  · rw [happly] at h
    cases h
  · have hreports := apply_reports happly
    rw [happly] at h
    dsimp only at h
    split at h
    · unfold RemediationApplicationAgent.afterApply at h
      split at h
      · -- the scan has raised
        unfold RemediationApplicationAgent.rescanFailed at h
        split at h
        · cases h
        · dsimp only at h
          obtain ⟨rfl, -⟩ := Prod.mk.inj (Except.ok.inj h)
          exact Or.inr ⟨by simp, List.mem_cons_of_mem _ (rollbackTransaction_status _ _ _ _ _)⟩
      · dsimp only at h
        split at h
        · -- the verification has failed
          unfold RemediationApplicationAgent.verificationFailed at h
          split at h
          · cases h
          · dsimp only at h
            split at h
            · cases h
            · obtain ⟨rfl, -⟩ := Prod.mk.inj (Except.ok.inj h)
              exact Or.inr ⟨by simp, by simp⟩
        · simp_all
    · simp_all

/-! ## What a stage records -/

/-- What a run has recorded: the states of its history, the types of its audit events, and that it stands in the
last of the states. Kind: C -/
structure Trail (p : Progress host w) (states : List RemediationLifecycleState)
    (types : List AuditEventType) : Prop where
  history : p.sm.history.map (·.newState) = states
  audited : p.ledger.events.map (·.eventType) = types
  current : states.getLast? = some p.sm.currentState

namespace RemediationLifecycleEngine

variable {engine : RemediationLifecycleEngine} {request : LifecycleRequest}
  {p p' : Progress host w} {states : List RemediationLifecycleState} {types : List AuditEventType}

theorem create_eventType {e : EventBinding F} {eventType : AuditEventType} {metadata : Json F}
    {event : LifecycleAuditEvent host w}
    (h : LifecycleAuditEvent.create host w e (.str eventType.value) metadata = .ok event) :
    event.eventType = eventType := by
  unfold LifecycleAuditEvent.create at h
  rw [w.text_str, AuditEventType.ofText_value] at h
  obtain ⟨_, htype, h⟩ := bind_ok h
  obtain ⟨_, -, h⟩ := bind_ok h
  obtain ⟨_, -, h⟩ := bind_ok h
  cases htype
  unfold LifecycleAuditEvent.build at h
  split at h
  · cases h
    rfl
  · cases h

theorem record_trail {eventType : AuditEventType} {args : AuditArgs} (ht : Trail p states types)
    (h : engine.record host w request p eventType args = .ok p') :
    Trail p' states (types ++ [eventType]) := by
  obtain ⟨ledger, hledger, h⟩ := bind_ok h
  cases h
  obtain ⟨event, hevent, happend⟩ := bind_ok hledger
  refine ⟨ht.history, ?_, ht.current⟩
  rw [RemediationLedger.append_ok_iff.mp happend, List.map_append, ht.audited, List.map_singleton,
    create_eventType hevent]

theorem addNode_trail {node : ProvenanceNode host} (ht : Trail p states types)
    (h : addNode host w p node = .ok p') : Trail p' states types := by
  obtain ⟨graph, -, h⟩ := bind_ok h
  cases h
  exact ⟨ht.history, ht.audited, ht.current⟩

/-- A stage adds its state and its audit event. Kind: L -/
theorem advance_trail {target : RemediationLifecycleState} {reason : String} {eventType : AuditEventType}
    {args : AuditArgs} (ht : Trail p states types)
    (h : engine.advance host w request p target reason eventType args = .ok p') :
    Trail p' (states ++ [target]) (types ++ [eventType]) := by
  unfold advance at h
  split at h
  · cases h
  · next sm event hmove =>
      have hmoved : sm.history.map (·.newState) = states ++ [target] ∧ sm.currentState = target := by
        unfold LifecycleStateMachine.transition at hmove
        split at hmove
        · cases hmove
        · split at hmove
          · cases hmove
          · cases hmove
            simp [LifecycleStateMachine.moved, LifecycleStateMachine.eventOf, ht.history]
      have htrail : Trail { p with sm } (states ++ [target]) types :=
        ⟨hmoved.1, ht.audited, by simp [hmoved.2]⟩
      exact record_trail htrail h

/-! ## The stages -/

/-- The states up to the question for an approval. Kind: D -/
def statesProposed : List RemediationLifecycleState :=
  [.detected, .evidenceVerified, .rcaEstablished, .remediationProposed, .awaitingApproval]

/-- The audit events up to the question for an approval. Kind: D -/
def typesProposed : List AuditEventType :=
  [.findingDetected, .evidenceVerified, .rcaEstablished, .remediationProposed, .approvalGranted]

/-- The states up to the transaction. Kind: D -/
def statesApplying : List RemediationLifecycleState :=
  statesProposed ++ [.approved, .snapshotVerified, .applying]

/-- The audit events up to the transaction. Kind: D -/
def typesApplying : List AuditEventType :=
  typesProposed ++ [.approvalGranted, .snapshotCaptured, .patchApplied]

theorem detect_trail {nodeId : String} (h : engine.detect host w request = .ok (p, nodeId)) :
    Trail p [.detected, .evidenceVerified] [.findingDetected, .evidenceVerified] := by
  obtain ⟨sm, hsm, h⟩ := bind_ok h
  obtain ⟨node, -, h⟩ := bind_ok h
  obtain ⟨p₁, h₁, h⟩ := bind_ok h
  obtain ⟨p₂, h₂, h⟩ := bind_ok h
  obtain ⟨p₃, h₃, h⟩ := bind_ok h
  cases h
  have hstart : Trail (⟨sm, .empty, .empty⟩ : Progress host w) [.detected] [] := by
    unfold LifecycleStateMachine.create at hsm
    split at hsm
    · cases hsm
    · cases hsm
      exact ⟨rfl, rfl, rfl⟩
  exact advance_trail (record_trail (addNode_trail hstart h₁) h₂) h₃

theorem establish_trail {prevNodeId nodeId : String} (ht : Trail p states types)
    (h : engine.establish host w request p prevNodeId = .ok (p', nodeId)) :
    Trail p' (states ++ [.rcaEstablished]) (types ++ [.rcaEstablished]) := by
  unfold establish at h
  split at h
  · obtain ⟨node, -, h⟩ := bind_ok h
    obtain ⟨p₁, h₁, h⟩ := bind_ok h
    obtain ⟨p₂, h₂, h⟩ := bind_ok h
    cases h
    exact advance_trail (addNode_trail ht h₁) h₂
  · obtain ⟨p₁, h₁, h⟩ := bind_ok h
    cases h
    exact advance_trail ht h₁

theorem prepare_trail {prepared : Prepared host w} {fs : FileSystem}
    (h : engine.prepare host w request fs = .ok prepared) :
    Trail prepared.progress statesProposed typesProposed := by
  obtain ⟨⟨p₁, findingNodeId⟩, h₁, h⟩ := bind_ok h
  obtain ⟨⟨p₂, prevNodeId⟩, h₂, h⟩ := bind_ok h
  have ht := establish_trail (detect_trail h₁) h₂
  obtain ⟨⟨strategy, proposal⟩, -, h⟩ := bind_ok h
  obtain ⟨stratNode, -, h⟩ := bind_ok h
  obtain ⟨p₃, h₃, h⟩ := bind_ok h
  obtain ⟨propNode, -, h⟩ := bind_ok h
  obtain ⟨p₄, h₄, h⟩ := bind_ok h
  obtain ⟨p₅, h₅, h⟩ := bind_ok h
  obtain ⟨p₆, h₆, h⟩ := bind_ok h
  obtain ⟨snapshot, -, h⟩ := bind_ok h
  obtain ⟨snapNode, -, h⟩ := bind_ok h
  obtain ⟨p₇, h₇, h⟩ := bind_ok h
  cases h
  exact addNode_trail (advance_trail (advance_trail (addNode_trail (addNode_trail ht h₃) h₄) h₅) h₆) h₇

theorem approve_trail {prepared : Prepared host w} {token : PatchApprovalToken} {tokNodeId : String}
    (ht : Trail prepared.progress statesProposed typesProposed)
    (h : engine.approve host w request prepared token = .ok (p, tokNodeId)) :
    Trail p statesApplying typesApplying := by
  obtain ⟨tokNode, -, h⟩ := bind_ok h
  obtain ⟨p₁, h₁, h⟩ := bind_ok h
  obtain ⟨p₂, h₂, h⟩ := bind_ok h
  obtain ⟨p₃, h₃, h⟩ := bind_ok h
  obtain ⟨p₄, h₄, h⟩ := bind_ok h
  cases h
  exact advance_trail (advance_trail (advance_trail (addNode_trail ht h₁) h₂) h₃) h₄

theorem addVerification_trail {prepared : Prepared host w} {appNodeId : String}
    {appRes : ApplicationResult} {verRes : Option VerificationResult} (ht : Trail p states types)
    (h : addVerification host w prepared p appNodeId appRes verRes = .ok p') : Trail p' states types := by
  unfold addVerification at h
  split at h
  · cases h
    exact ht
  · obtain ⟨node, -, h⟩ := bind_ok h
    exact addNode_trail ht h

theorem confirmFixed_trail {prepared : Prepared host w} {appRes : ApplicationResult}
    {verRes : VerificationResult} (ht : Trail p states types)
    (h : engine.confirmFixed host w request prepared p appRes verRes = .ok p') :
    Trail p' (states ++ [.verifiedFixed]) (types ++ [.verifiedFixed]) := by
  obtain ⟨evidence, -, h⟩ := bind_ok h
  split at h
  · cases h
  · next sm event hmove =>
      have hmoved : sm.history.map (·.newState) = states ++ [.verifiedFixed] ∧
          sm.currentState = .verifiedFixed := by
        unfold LifecycleStateMachine.transitionVerifiedFixed at hmove
        split at hmove
        · cases hmove
        · split at hmove
          · cases hmove
          · cases hmove
            simp [LifecycleStateMachine.moved, LifecycleStateMachine.eventOf, ht.history]
      have htrail : Trail { p with sm } (states ++ [.verifiedFixed]) types :=
        ⟨hmoved.1, ht.audited, by simp [hmoved.2]⟩
      exact record_trail htrail h

theorem rollBackUnfixed_trail {prepared : Prepared host w} {appRes : ApplicationResult}
    {verRes : Option VerificationResult} {failedState : RemediationLifecycleState}
    {evType : AuditEventType} (ht : Trail p states types)
    (h : engine.rollBackUnfixed host w request prepared p appRes verRes failedState evType = .ok p') :
    Trail p' (states ++ [failedState] ++ [.rolledBack]) (types ++ [evType] ++ [.rollbackCompleted]) := by
  obtain ⟨p₁, h₁, h⟩ := bind_ok h
  exact advance_trail (advance_trail ht h₁) h

/-! ## The end of a run -/

/-- What a result shows of its run. Kind: C -/
structure Shows (r : RemediationLifecycleResult host w) (states : List RemediationLifecycleState)
    (types : List AuditEventType) : Prop where
  history : r.stateHistory.map (·.newState) = states
  audited : r.ledger.events.map (·.eventType) = types
  current : states.getLast? = some r.currentState

theorem finish_shows {prepared : Prepared host w} {token : Option PatchApprovalToken}
    {appRes : Option ApplicationResult} {verRes : Option VerificationResult}
    {failureReason : Option String} (ht : Trail p states types) :
    Shows (engine.finish host w request prepared p token appRes verRes failureReason) states types :=
  ⟨ht.history, ht.audited, ht.current⟩

/-- The ends of a run after its transaction. Kind: D -/
inductive Concluded (r : RemediationLifecycleResult host w) (appRes : ApplicationResult) : Prop
  | failed (reported : r.applicationResult = some appRes) (status : appRes.status ≠ .applied)
      (shows' : Shows r (statesApplying ++ [.applyFailed, .rolledBack])
        (typesApplying ++ [.rollbackStarted, .rollbackCompleted]))
  | fixed (reported : r.applicationResult = some appRes) (status : appRes.status = .applied)
      (shows' : Shows r (statesApplying ++ [.appliedUnverified, .securityRescan, .verifiedFixed])
        (typesApplying ++ [.patchApplied, .verificationStarted, .verifiedFixed]))
  | unfixed (reported : r.applicationResult = some appRes) (status : appRes.status = .applied)
      (failedState : RemediationLifecycleState) (evType : AuditEventType)
      (shows' : Shows r
        (statesApplying ++ [.appliedUnverified, .securityRescan, failedState, .rolledBack])
        (typesApplying ++ [.patchApplied, .verificationStarted, evType, .rollbackCompleted]))

/-- A failed application ends rolled back: the applier never reports the text that is compared with. Kind: L -/
theorem applyFailed_concluded {prepared : Prepared host w} {appNodeId : String}
    {appRes : ApplicationResult} {verRes : Option VerificationResult}
    {updatedToken : PatchApprovalToken} {r : RemediationLifecycleResult host w}
    (ht : Trail p statesApplying typesApplying) (hstatus : appRes.status ≠ .applied)
    (hreports : appRes.Reports)
    (h : engine.applyFailed host w request prepared p appNodeId appRes verRes updatedToken = .ok r) :
    Concluded r appRes := by
  have hcritical : appRes.rollbackStatus ≠ "CRITICAL_FAILURE" := by
    rcases hreports with ⟨happlied, -⟩ | ⟨-, hmem⟩
    · exact absurd happlied hstatus
    · grind
  obtain ⟨p₁, h₁, h⟩ := bind_ok h
  obtain ⟨p₂, h₂, h⟩ := bind_ok h
  obtain ⟨p₃, h₃, h⟩ := bind_ok h
  cases h
  have hfailed := advance_trail (addVerification_trail ht h₁) h₂
  have hrolled := advance_trail hfailed h₃
  simp only [hcritical, decide_false, Bool.false_eq_true, if_false] at hrolled
  exact .failed rfl hstatus (finish_shows hrolled)

theorem rescan_concluded {prepared : Prepared host w} {appNodeId : String} {appRes : ApplicationResult}
    {verRes : Option VerificationResult} {updatedToken : PatchApprovalToken}
    {r : RemediationLifecycleResult host w} (ht : Trail p statesApplying typesApplying)
    (happlied : appRes.status = .applied)
    (h : engine.rescan host w request prepared p appNodeId appRes verRes updatedToken = .ok r) :
    Concluded r appRes := by
  obtain ⟨p₁, h₁, h⟩ := bind_ok h
  obtain ⟨p₂, h₂, h⟩ := bind_ok h
  obtain ⟨p₃, h₃, h⟩ := bind_ok h
  have hrescan := addVerification_trail (advance_trail (advance_trail ht h₁) h₂) h₃
  split at h
  · split at h
    · obtain ⟨p₄, h₄, h⟩ := bind_ok h
      cases h
      exact .fixed rfl happlied (finish_shows (confirmFixed_trail hrescan h₄))
    · obtain ⟨p₄, h₄, h⟩ := bind_ok h
      cases h
      exact .unfixed rfl happlied _ _ (finish_shows (rollBackUnfixed_trail hrescan h₄))
  · obtain ⟨p₄, h₄, h⟩ := bind_ok h
    cases h
    exact .unfixed rfl happlied _ _ (finish_shows (rollBackUnfixed_trail hrescan h₄))

theorem conclude_concluded {prepared : Prepared host w} {tokNodeId : String} {appRes : ApplicationResult}
    {verRes : Option VerificationResult} {updatedToken : PatchApprovalToken}
    {r : RemediationLifecycleResult host w} (ht : Trail p statesApplying typesApplying)
    (hreports : appRes.Reports)
    (h : engine.conclude host w request prepared p tokNodeId appRes verRes updatedToken = .ok r) :
    Concluded r appRes := by
  obtain ⟨appNode, -, h⟩ := bind_ok h
  obtain ⟨p₁, h₁, h⟩ := bind_ok h
  have hnode := addNode_trail ht h₁
  split at h
  · next hstatus => exact applyFailed_concluded hnode hstatus hreports h
  · next hstatus => exact rescan_concluded hnode (not_not.mp hstatus) h

/-- The transaction that a run carries out, if it comes to one. Kind: D -/
def transaction (host : Host) (w : Wording F) (engine : RemediationLifecycleEngine)
    (request : LifecycleRequest) (fs : FileSystem) : Option TransactionEnd :=
  match engine.prepare host w request fs with
  | .error _ => none
  | .ok prepared =>
    match request.approvalProvider.resolve prepared.proposal prepared.snapshot fs with
    | (.ok (some token), fs') =>
      match token.verifyValid host engine.now request.finding.findingId
          prepared.proposal.proposalFingerprint prepared.snapshot.aggregateHash
          engine.repositoryRoot, engine.approve host w request prepared token with
      | .ok (true, _), .ok _ => some (engine.transact host w request prepared token fs')
      | _, _ => none
    | _ => none

/-- How a run ends: rejected before its transaction, or concluded after it.
Source: `lifecycle.py`, `RemediationLifecycleEngine.execute`
Kind: L -/
theorem execute_cases {fs fs' : FileSystem} {r : RemediationLifecycleResult host w}
    (h : engine.execute host w request fs = (.ok r, fs')) :
    transaction host w engine request fs = none ∧
        Shows r (statesProposed ++ [.rejected]) (typesProposed ++ [.approvalGranted]) ∨
      ∃ e res ver tok, transaction host w engine request fs = some e ∧
        e.result = .ok (res, ver, tok) ∧ res.Reports ∧ Concluded r res := by
  have hreject : ∀ {prepared : Prepared host w} {token : Option PatchApprovalToken}
      {reason code failureReason : String}, Trail prepared.progress statesProposed typesProposed →
      engine.reject host w request prepared token reason code failureReason = .ok r →
      Shows r (statesProposed ++ [.rejected]) (typesProposed ++ [.approvalGranted]) := by
    intro prepared token reason code failureReason ht hr
    obtain ⟨p₁, h₁, hr⟩ := bind_ok hr
    cases hr
    exact finish_shows (advance_trail ht h₁)
  unfold execute at h
  unfold transaction
  rcases hprepare : engine.prepare host w request fs with message | prepared
  · rw [hprepare] at h
    cases h
  · have ht := prepare_trail hprepare
    rw [hprepare] at h
    dsimp only at h ⊢
    rcases hresolve : request.approvalProvider.resolve prepared.proposal prepared.snapshot fs with
      ⟨message | (_ | token), fs₁⟩
    · rw [hresolve] at h
      cases h
    · grind
    · rw [hresolve] at h
      dsimp only at h ⊢
      rcases hvalid : token.verifyValid host engine.now request.finding.findingId
        prepared.proposal.proposalFingerprint prepared.snapshot.aggregateHash
        engine.repositoryRoot with message | ⟨_ | _, valErr⟩
      · rw [hvalid] at h
        cases h
      · grind
      · rw [hvalid] at h
        dsimp only at h ⊢
        rcases happrove : engine.approve host w request prepared token with message | ⟨p₁, tokNodeId⟩
        · rw [happrove] at h
          cases h
        · rw [happrove] at h
          dsimp only at h ⊢
          rcases hresult : (engine.transact host w request prepared token fs₁).result with
            message | ⟨res, ver, tok⟩
          · rw [hresult] at h
            cases h
          · rw [hresult] at h
            have hreports := transaction_reports hresult
            refine Or.inr ⟨_, res, ver, tok, rfl, hresult, hreports, ?_⟩
            exact conclude_concluded (approve_trail ht happrove) hreports (Prod.mk.inj h).1

/-- The applier reports that restoring a file failed, in the transaction of a run.
Source: `applier.py`, `_rollback_transaction`, `CRITICAL_RECOVERY_FAILURE`
Kind: D -/
def RestoreFailed (host : Host) (w : Wording F) (engine : RemediationLifecycleEngine)
    (request : LifecycleRequest) (fs : FileSystem) : Prop :=
  ∃ e res ver tok, transaction host w engine request fs = some e ∧ e.result = .ok (res, ver, tok) ∧
    res.rollbackStatus = "CRITICAL_RECOVERY_FAILURE"

/-- The finding does not end as rolled back, and nothing recorded says that it was. Kind: C -/
structure NotRolledBack (r : RemediationLifecycleResult host w) : Prop where
  state : r.currentState ≠ .rolledBack
  history : ∀ e ∈ r.stateHistory, e.newState ≠ .rolledBack
  ledger : ∀ e ∈ r.ledger.events, e.eventType ≠ .rollbackCompleted

/-- A run whose application failed ends as rolled back. Kind: L -/
theorem restoreFailed_rolledBack {fs fs' : FileSystem} {r : RemediationLifecycleResult host w}
    (h : engine.execute host w request fs = (.ok r, fs')) (hfailed : RestoreFailed host w engine request fs) :
    Shows r (statesApplying ++ [.applyFailed, .rolledBack])
      (typesApplying ++ [.rollbackStarted, .rollbackCompleted]) := by
  obtain ⟨e, res, ver, tok, he, hresult, hcritical⟩ := hfailed
  rcases execute_cases h with ⟨hnone, -⟩ | ⟨e', res', ver', tok', he', hresult', hreports, hend⟩
  · rw [he] at hnone
    cases hnone
  · rw [he] at he'
    cases he'
    rw [hresult] at hresult'
    cases hresult'
    have hnot : res.status ≠ .applied := by
      intro happlied
      rcases hreports with ⟨-, hneeded⟩ | ⟨hstatus, -⟩
      · simp_all
      · exact hstatus happlied
    cases hend with
    | failed _ _ hshows => exact hshows
    | fixed _ happlied _ => exact absurd happlied hnot
    | unfixed _ happlied _ _ _ => exact absurd happlied hnot

/-- A failed rollback is not shown as a rollback just if there is none; and a fix has been approved, applied and
scanned for, in this order.
Source: `lifecycle.py`, `RemediationLifecycleEngine.execute`
Kind: P -/
theorem outcome_iff {fs fs' : FileSystem} {r : RemediationLifecycleResult host w}
    (h : engine.execute host w request fs = (.ok r, fs')) :
    ((RestoreFailed host w engine request fs → NotRolledBack r) ↔
        ¬RestoreFailed host w engine request fs) ∧
      (r.currentState = .verifiedFixed →
        [RemediationLifecycleState.approved, .applying, .appliedUnverified, .securityRescan].Sublist
          (r.stateHistory.map (·.newState))) := by
  refine ⟨⟨fun hsafe hfailed => ?_, fun hnot hfailed => absurd hfailed hnot⟩, fun hfixed => ?_⟩
  · have hcurrent := (restoreFailed_rolledBack h hfailed).current
    exact (hsafe hfailed).state (Option.some.inj hcurrent.symm)
  · rcases execute_cases h with ⟨-, hshows⟩ | ⟨-, res, -, -, -, -, -, hend⟩
    · have hcurrent := hshows.current
      rw [hfixed] at hcurrent
      exact absurd hcurrent (by decide)
    · cases hend with
      | failed _ _ hshows =>
        have hcurrent := hshows.current
        rw [hfixed] at hcurrent
        exact absurd hcurrent (by decide)
      | fixed _ _ hshows =>
        rw [hshows.history]
        decide
      | unfixed _ _ failedState evType hshows =>
        have hcurrent : some RemediationLifecycleState.rolledBack = some r.currentState := hshows.current
        rw [hfixed] at hcurrent
        exact absurd hcurrent (by decide)

/-! ## A failed rollback -/

section fullDisk

open ControlledPatchApplier

/-- A digest that is cheap to compute: the size. Kind: D -/
def sizeHost : Host := ⟨fun b => toString b.size, fun _ => none⟩

/-- An environment in which no file can be written any more. Kind: D -/
def fullDisk : Environment where
  io := ⟨fun _ => .raises (some ByteArray.empty) "No space left on device", none⟩
  rollbackIo := fun _ => .written
  now := 0
  nowIso := "t"
  txId := "tx"
  auditId := "audit"
  rescan := fun fs => (.ok [], fs)
  runTests := fun fs => ((true, ""), fs)
  rescan_resolve := fun _ => rfl
  runTests_resolve := raisingScan.runTests_resolve

/-- A strategy for the file. Kind: D -/
def sampleStrategy : RemediationStrategy :=
  ⟨"finding", "UNSAFE_TRANSFORMATION", .replaceUnsafeApi, "", "a.php", ["a.php:1"], []⟩

/-- The engine of the repository with one file. Kind: D -/
def fullDiskEngine : RemediationLifecycleEngine where
  repositoryRoot := "/repo"
  planAndPropose := fun _ _ _ =>
    .ok (⟨sampleStrategy, "strategy"⟩, sampleProposal [sampleHunk "eval" "exec"] [])
  applicationAgent := sampleAgent
  environment := fullDisk
  nowIso := "t"
  now := 0

/-- The request to fix a finding, with an approval of what is proposed. Kind: D -/
def fullDiskRequest : LifecycleRequest where
  finding := sampleFinding
  approvalProvider := .callback fun proposal snapshot fs =>
    (.ok (some (ControlledPatchApplier.approve sizeHost sampleApplier proposal snapshot "reviewer" "token"
      "t")), fs)

/-- The run comes to an end. Kind: L -/
theorem fullDisk_returns : ∃ r fs', fullDiskEngine.execute sizeHost plainWording fullDiskRequest
      (sampleDisk "eval($x);".toList) = (.ok r, fs') ∧ r.currentState = .rolledBack ∧
      r.applicationResult.map (·.rollbackStatus) = some "CRITICAL_RECOVERY_FAILURE" := by
  have hrun : (fullDiskEngine.execute sizeHost plainWording fullDiskRequest
      (sampleDisk "eval($x);".toList)).1.map (fun r => (r.currentState,
        r.applicationResult.map (·.rollbackStatus))) =
      .ok (.rolledBack, some "CRITICAL_RECOVERY_FAILURE") := by
    decide +kernel
  rcases h : fullDiskEngine.execute sizeHost plainWording fullDiskRequest
    (sampleDisk "eval($x);".toList) with ⟨message | r, fs'⟩
  · rw [h] at hrun
    cases hrun
  · rw [h] at hrun
    obtain ⟨hstate, hrollback⟩ := Prod.mk.inj (Except.ok.inj hrun)
    exact ⟨r, fs', rfl, hstate, hrollback⟩

/-- The restoring writes fail, and the finding ends as rolled back.
Source: `lifecycle.py`, `execute`, `app_res.rollback_status == "CRITICAL_FAILURE"`
Kind: T -/
theorem failed_restore_rolled_back : ∃ r fs', fullDiskEngine.execute sizeHost plainWording
      fullDiskRequest (sampleDisk "eval($x);".toList) = (.ok r, fs') ∧
      RestoreFailed sizeHost plainWording fullDiskEngine fullDiskRequest
        (sampleDisk "eval($x);".toList) ∧ ¬NotRolledBack r := by
  obtain ⟨r, fs', h, hstate, hrollback⟩ := fullDisk_returns
  refine ⟨r, fs', h, ?_, fun hnot => hnot.state hstate⟩
  rcases execute_cases h with ⟨-, hshows⟩ | ⟨e, res, ver, tok, he, hresult, -, hend⟩
  · have hcurrent := hshows.current
    rw [hstate] at hcurrent
    exact absurd hcurrent (by decide)
  · have hreported : r.applicationResult = some res := by
      cases hend with
      | failed hreported _ _ => exact hreported
      | fixed hreported _ _ => exact hreported
      | unfixed hreported _ _ _ _ => exact hreported
    rw [hreported] at hrollback
    exact ⟨e, res, ver, tok, he, hresult, Option.some.inj hrollback⟩

/-- The outcome of that run. Kind: L -/
theorem fullDisk_outcome : ∃ r fs', fullDiskEngine.execute sizeHost plainWording fullDiskRequest
      (sampleDisk "eval($x);".toList) = (.ok r, fs') ∧
    ((RestoreFailed sizeHost plainWording fullDiskEngine fullDiskRequest
          (sampleDisk "eval($x);".toList) → NotRolledBack r) ↔
        ¬RestoreFailed sizeHost plainWording fullDiskEngine fullDiskRequest
          (sampleDisk "eval($x);".toList)) ∧
      (r.currentState = .verifiedFixed →
        [RemediationLifecycleState.approved, .applying, .appliedUnverified, .securityRescan].Sublist
          (r.stateHistory.map (·.newState))) := by
  obtain ⟨r, fs', h, -⟩ := fullDisk_returns
  exact ⟨r, fs', h, outcome_iff h⟩

end fullDisk

end RemediationLifecycleEngine

end KarsaSec.Remediation
