import KarsaSec.Remediation.StateMachine

/-!
# Histories of the remediation state machine

Calls of `transition` and `transition_verified_fixed` in any order.

* `perform_cases` says what a call can do: turn away and change nothing, or move along the matrix.
* `Recorded` is what every history has: it starts in `DETECTED`, each record continues the one before, and
  a fix is attested.
* `recorded_reached`: every machine that calls lead to has it, and enters `VERIFIED_FIXED` only by evidence
  for its finding.
-/

namespace KarsaSec.Remediation

open KarsaSec.Found

/-- A call of the machine. Source: `state_machine.py`, `LifecycleStateMachine`. Kind: D -/
inductive MachineCall
  | transition (target : RemediationLifecycleState) (note : Note) (references : List String)
  | verifiedFixed (evidence : VerificationEvidenceContract) (note : Note)

namespace MachineCall

/-- The machine after a call, and the event or the exception. Kind: D -/
def perform (host : Host) (m : LifecycleStateMachine) :
    MachineCall → LifecycleStateMachine × Except InvalidStateTransitionError LifecycleEvent
  | .transition target note references => m.transition host target note references
  | .verifiedFixed evidence note => m.transitionVerifiedFixed host evidence note

/-- The machine after a call. Kind: D -/
def step (host : Host) (m : LifecycleStateMachine) (call : MachineCall) : LifecycleStateMachine :=
  (call.perform host m).1

end MachineCall

/-- A call is made with evidence for a finding: it names the finding and a proposal, and a verification
result that it carries is a fix of the finding. Kind: C -/
def MachineCall.Attests (call : MachineCall) (findingId : String) (references : List String) : Prop :=
  ∃ evidence note, call = .verifiedFixed evidence note ∧ evidence.findingId = findingId ∧
    isBlank evidence.proposalFingerprint = false ∧ evidence.references = references ∧
    ∀ result, evidence.verificationResult = some result →
      result.status = .verifiedFixed ∧ result.findingId = findingId

section calls

variable {host : Host} {m : LifecycleStateMachine}

/-- The fields of an event do not depend on the note. Kind: L -/
theorem eventOf_fields (target : RemediationLifecycleState) (note : Note) (reason : String)
    (references : List String) :
    (m.eventOf host target note reason references).previousState = m.currentState ∧
      (m.eventOf host target note reason references).newState = target ∧
      (m.eventOf host target note reason references).findingId = m.findingId ∧
      (m.eventOf host target note reason references).evidenceReferences = references :=
  ⟨rfl, rfl, rfl, rfl⟩

/-- What a call does: it is turned away and changes nothing, or it moves along the matrix, into
`VERIFIED_FIXED` only by evidence for the finding.
Source: `state_machine.py`, `transition`, `transition_verified_fixed`
Kind: L -/
theorem perform_cases (host : Host) (m : LifecycleStateMachine) (call : MachineCall) :
    (∃ error, call.perform host m = (m, .error error)) ∨
    ∃ event, call.perform host m = (m.moved event, .ok event) ∧
      event.previousState = m.currentState ∧ event.newState ∈ m.currentState.targets ∧
      event.findingId = m.findingId ∧
      (event.newState = .verifiedFixed → call.Attests m.findingId event.evidenceReferences) := by
  cases call with
  | transition target note references =>
    unfold MachineCall.perform LifecycleStateMachine.transition
    by_cases hfixed : target = .verifiedFixed
    · exact Or.inl ⟨_, if_pos hfixed⟩
    · simp only [if_neg hfixed]
      rcases hcan : m.canTransition target with _ | _
      · exact Or.inl ⟨_, rfl⟩
      · obtain ⟨hprev, hnew, hid, -⟩ := @eventOf_fields host m target note
          ("Transition to " ++ target.value) references
        refine Or.inr ⟨_, rfl, hprev, ?_, hid, ?_⟩
        · rw [hnew]
          simpa [LifecycleStateMachine.canTransition] using hcan
        · rw [hnew]
          exact fun h => absurd h hfixed
  | verifiedFixed evidence note =>
    unfold MachineCall.perform LifecycleStateMachine.transitionVerifiedFixed
    by_cases hstate : m.currentState = .securityRescan
    · by_cases hid : evidence.findingId = m.findingId
      · obtain ⟨hfields, -, hresult⟩ := evidence.spec
        simp only [ne_eq, hstate, hid, not_true_eq_false, if_false]
        refine Or.inr ⟨_, rfl, hstate, ?_, rfl, fun _ => ⟨evidence, note, rfl, hid, ?_, rfl, ?_⟩⟩
        · show RemediationLifecycleState.verifiedFixed ∈ RemediationLifecycleState.targets .securityRescan
          decide
        · simp_all [EvidenceFields.required]
        · simp_all
      · simp_all
    · simp_all

end calls

/-! ## What a history has -/

/-- A record continues the one before it along the matrix. Kind: C -/
def Continues (before after : LifecycleEvent) : Prop :=
  after.previousState = before.newState ∧ after.newState ∈ after.previousState.targets

/-- A history starts in `DETECTED`, each record continues the one before, the machine is where the last one
leads, and a record of a fix comes from a rescan, by evidence for the finding. Kind: C -/
structure LifecycleStateMachine.Recorded (m : LifecycleStateMachine) : Prop where
  started : ∃ first rest, m.history = first :: rest ∧ first.previousState = .detected ∧
    first.newState = .detected
  linked : m.history.IsChain Continues
  current : m.history.getLast?.map LifecycleEvent.newState = some m.currentState
  fixed : ∀ e ∈ m.history, e.newState = .verifiedFixed →
    e.previousState = .securityRescan ∧ ∃ call : MachineCall, call.Attests m.findingId e.evidenceReferences

theorem rescan_of_target {s : RemediationLifecycleState}
    (h : RemediationLifecycleState.verifiedFixed ∈ s.targets) : s = .securityRescan := by
  cases s <;> first | rfl | exact absurd h (by decide)

/-- A machine that is created in `DETECTED` has its history recorded. Kind: L -/
theorem recorded_create {host : Host} {findingId actor : String} {createdAt eventId : Option String}
    {now : String} {m : LifecycleStateMachine}
    (h : LifecycleStateMachine.create host findingId .detected actor createdAt eventId now = .ok m) :
    m.Recorded := by
  unfold LifecycleStateMachine.create at h
  split at h
  · cases h
  · cases h
    refine ⟨⟨_, [], rfl, rfl, rfl⟩, List.IsChain.singleton _, rfl, ?_⟩
    intro e he hfixed
    rw [List.mem_singleton.mp he] at hfixed
    cases hfixed

/-- A call keeps the history recorded. Kind: L -/
theorem LifecycleStateMachine.Recorded.step {host : Host} {m : LifecycleStateMachine}
    (h : m.Recorded) (call : MachineCall) : (call.step host m).Recorded := by
  unfold MachineCall.step
  rcases perform_cases host m call with
    ⟨error, hres⟩ | ⟨event, hres, hprev, htarget, -, hattests⟩
  · rw [hres]
    exact h
  · rw [hres]
    have hcurrent := h.current
    constructor
    · obtain ⟨first, rest, hhist, hfirst⟩ := h.started
      refine ⟨first, rest ++ [event], ?_, hfirst⟩
      simp [LifecycleStateMachine.moved, hhist]
    · show (m.history ++ [event]).IsChain Continues
      refine h.linked.append (List.IsChain.singleton _) ?_
      intro before hbefore after hafter
      rw [hbefore] at hcurrent
      simp only [List.head?_cons, Option.mem_def, Option.some.injEq] at hafter
      rw [← hafter]
      refine ⟨?_, hprev ▸ htarget⟩
      rw [hprev]
      exact (Option.some.inj hcurrent).symm
    · simp [LifecycleStateMachine.moved]
    · intro e he hfixed
      rcases List.mem_append.mp he with hold | hnew
      · exact h.fixed e hold hfixed
      · rw [List.mem_singleton.mp hnew] at hfixed ⊢
        rw [hfixed] at htarget
        exact ⟨hprev.trans (rescan_of_target htarget), call, hattests hfixed⟩

theorem findingId_step (host : Host) (m : LifecycleStateMachine) (call : MachineCall) :
    (call.step host m).findingId = m.findingId := by
  rcases perform_cases host m call with ⟨error, hres⟩ | ⟨event, hres, -⟩ <;>
    simp [MachineCall.step, hres, LifecycleStateMachine.moved]

/-- After any calls on a machine that starts in `DETECTED`, its history is recorded; a call that is turned away
changes nothing, and one that enters `VERIFIED_FIXED` is made with evidence for the finding.
Source: `state_machine.py`, `LifecycleStateMachine`
Kind: T -/
theorem recorded_reached (host : Host) {findingId actor : String} {createdAt eventId : Option String}
    {now : String} {m : LifecycleStateMachine}
    (hcreate : LifecycleStateMachine.create host findingId .detected actor createdAt eventId now = .ok m)
    (calls : List MachineCall) :
    ∀ s ∈ reached (MachineCall.step host) m calls,
      (s.Recorded ∧ s.findingId = findingId) ∧ ∀ call : MachineCall,
        (∀ error, (call.perform host s).2 = .error error → (call.perform host s).1 = s) ∧
        (s.currentState ≠ .verifiedFixed → (call.perform host s).1.currentState = .verifiedFixed →
          s.currentState = .securityRescan ∧
            ∃ event, (call.perform host s).2 = .ok event ∧
              call.Attests findingId event.evidenceReferences) := by
  have hid : m.findingId = findingId := by grind [LifecycleStateMachine.create]
  have hinv : ∀ s ∈ reached (MachineCall.step host) m calls,
      s.Recorded ∧ s.findingId = findingId :=
    invariant_reached
      (fun s call hs => ⟨hs.1.step call, (findingId_step host s call).trans hs.2⟩) calls
      ⟨recorded_create hcreate, hid⟩
  intro s hs
  obtain ⟨hrecorded, hsid⟩ := hinv s hs
  refine ⟨⟨hrecorded, hsid⟩, fun call => ?_⟩
  rcases perform_cases host s call with
    ⟨error, hres⟩ | ⟨event, hres, hprev, htarget, -, hattests⟩
  · simp_all
  · rw [hres]
    refine ⟨fun _ herr => (nomatch herr), fun _ heq => ?_⟩
    change event.newState = .verifiedFixed at heq
    rw [heq] at htarget
    exact ⟨rescan_of_target htarget, event, rfl, hsid ▸ hattests heq⟩

/-! ## Evidence without a result -/

/-- A digest that does not matter. Kind: D -/
def quietHost : Host := ⟨fun _ => "", fun _ => none⟩

/-- A note of the tests. Kind: D -/
def plainNote : Note := { actor := "system", now := "2026-01-01T00:00:00+00:00" }

/-- The transitions up to the rescan. Kind: D -/
def routeToRescan : List MachineCall :=
  [RemediationLifecycleState.evidenceVerified, .rcaEstablished, .remediationProposed, .awaitingApproval,
    .approved, .snapshotVerified, .applying, .appliedUnverified, .securityRescan].map
      fun target => .transition target plainNote []

/-- Evidence that carries no verification result.
Source: `test_state_machine.py`, `_get_valid_evidence`
Kind: D -/
def plainEvidence : VerificationEvidenceContract :=
  ⟨{ findingId := "F-101", proposalFingerprint := "prop_fp_123", sourceSnapshotHash := "snap_hash_pre"
     postApplySnapshotHash := "snap_hash_post", verificationRunId := "v_run_999"
     verificationFingerprint := "v_fp_888", authority := .deterministicSast }, by decide +kernel⟩

/-- The machine of a finding, as it is created. Kind: D -/
def startMachine : LifecycleStateMachine :=
  { findingId := "F-101", currentState := .detected
    history := [
      { eventId := "evt_", findingId := "F-101", previousState := .detected, newState := .detected
        actor := "system", timestamp := "t", reason := "Initial state creation"
        evidenceReferences := [], eventFingerprint := "" }] }

/-- The route leads to the rescan, and the histories on the way are recorded. Kind: C -/
theorem route_recorded :
    (routeToRescan.foldl (MachineCall.step quietHost) startMachine).currentState = .securityRescan ∧
      ∀ s ∈ reached (MachineCall.step quietHost) startMachine routeToRescan,
        s.Recorded ∧ s.findingId = "F-101" := by
  have hcreate : LifecycleStateMachine.create quietHost "F-101" .detected "system" none none "t" =
      .ok startMachine := by
    decide +kernel
  refine ⟨by decide +kernel, fun s hs => ?_⟩
  exact (recorded_reached quietHost hcreate routeToRescan s hs).1

/-- `VERIFIED_FIXED` is entered by evidence without a verification result.
Source: `state_machine.py`, `transition_verified_fixed`
Kind: T -/
theorem fixed_without_result :
    LifecycleStateMachine.create quietHost "F-101" .detected "system" none none "t" =
        .ok startMachine ∧
      ((routeToRescan ++ [MachineCall.verifiedFixed plainEvidence plainNote]).foldl
        (MachineCall.step quietHost) startMachine).currentState = .verifiedFixed ∧
      plainEvidence.verificationResult = none := by
  decide +kernel

end KarsaSec.Remediation
