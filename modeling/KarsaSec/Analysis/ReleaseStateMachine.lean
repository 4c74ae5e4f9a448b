import KarsaSec.Found.Runs

/-!
# The release state machine

`ReleaseStateMachine`: an artifact is evaluated and then approved, blocked or sent to review.

* `transition` and `resetForFreshEvaluation` give the machine after the call, or the exception.
* `ReleaseRun` is a machine with what has happened so far: whether an evaluation has failed, the identifiers of
  evaluations that are over and those of the current one. `CallSafe` says of a call what an approval needs, and that
  stages are not taken back.
* `release_run_safe`: a run is safe when no reset and no evaluation after a failure brings back an identifier, an approval is
  for the artifact of the machine under an identifier that the machine knows, and CREATED is never the target of a
  transition out of an evaluation. The machine itself checks none of these.
-/

namespace KarsaSec.Analysis

open KarsaSec.Found

/-- Source: `e16_models.py`, `AdmissionStatus`. Kind: D -/
inductive AdmissionStatus
  | approved
  | blocked
  | reviewRequired
  | unknown
  deriving DecidableEq

/-- Source: `e16_models.py`, `AdmissionStatus`. Kind: D -/
def AdmissionStatus.value : AdmissionStatus → String
  | approved => "APPROVED"
  | blocked => "BLOCKED"
  | reviewRequired => "REVIEW_REQUIRED"
  | unknown => "UNKNOWN"

/-- Source: `e16_models.py`, `ReleaseState`. Kind: D -/
inductive ReleaseState
  | created
  | securityEvaluated
  | approved
  | blocked
  | reviewRequired
  | unknown
  deriving DecidableEq

namespace ReleaseState

/-- Source: `e16_models.py`, `ReleaseState`. Kind: D -/
def value : ReleaseState → String
  | created => "CREATED"
  | securityEvaluated => "SECURITY_EVALUATED"
  | approved => "APPROVED"
  | blocked => "BLOCKED"
  | reviewRequired => "REVIEW_REQUIRED"
  | unknown => "UNKNOWN"

/-- A security failure. Source: `e16_release.py`, "terminal / security-failed states". Kind: D -/
def IsFailure (state : ReleaseState) : Prop := state = blocked ∨ state = unknown ∨ state = reviewRequired

instance (state : ReleaseState) : Decidable state.IsFailure := inferInstanceAs (Decidable (_ ∨ _))

/-- The place of a state in the lifecycle. Source: `e16_release.py`, "Lifecycle". Kind: D -/
def stage : ReleaseState → ℕ
  | created => 0
  | securityEvaluated => 1
  | _ => 2

end ReleaseState

/-- Source: `e16_models.py`, `ReleaseAdmission`. Kind: D -/
structure ReleaseAdmission where
  status : AdmissionStatus
  artifactId : String
  evaluationId : String

/-- Source: `e16_release.py`, `ReleaseStateMachine`. Kind: D -/
structure ReleaseStateMachine where
  artifactId : String
  currentState : ReleaseState := .created
  lastEvaluationId : Option String := none

namespace ReleaseStateMachine

variable (machine : ReleaseStateMachine)

/-- The evaluation identifier is the last one, where the machine has one that is not empty.
Source: `e16_release.py`, "Replay protection"
Kind: D -/
def SameEvaluation (admission : ReleaseAdmission) : Prop :=
  ∀ last ∈ machine.lastEvaluationId, last ≠ "" → admission.evaluationId = last

instance (admission : ReleaseAdmission) : Decidable (machine.SameEvaluation admission) :=
  inferInstanceAs (Decidable (∀ last ∈ machine.lastEvaluationId, last ≠ "" → admission.evaluationId = last))

/-- The exception where the target and the status of the admission disagree.
Source: `e16_release.py`, "Cannot transition to … when admission status is …"
Kind: D -/
def statusMismatch (target : ReleaseState) (status : AdmissionStatus) : Option String :=
  if target = .approved ∧ status ≠ .approved then
    some s!"MONOTONIC VIOLATION: Cannot transition to APPROVED when admission status is '{status.value}'"
  else if target = .blocked ∧ status ≠ .blocked then
    some s!"MONOTONIC VIOLATION: Cannot transition to BLOCKED when admission status is '{status.value}'"
  else if target = .reviewRequired ∧ status ≠ .reviewRequired then
    some s!"MONOTONIC VIOLATION: Cannot transition to REVIEW_REQUIRED when admission status is '{status.value}'"
  else none

/-- Source: `e16_release.py`, `transition`, `if current == ReleaseState.SECURITY_EVALUATED`. Kind: D -/
def leaveEvaluation (target : ReleaseState) : Option ReleaseAdmission → Except String ReleaseStateMachine
  | none => .error "MONOTONIC VIOLATION: Admission object required to transition out of SECURITY_EVALUATED"
  | some admission =>
    if ¬machine.SameEvaluation admission then
      .error "REPLAY VIOLATION: Evaluation ID mismatch during state transition"
    else
      match statusMismatch target admission.status with
      | some message => .error message
      | none => .ok { machine with currentState := target }

/-- Source: `e16_release.py`, `transition`. Kind: D -/
def transition (target : ReleaseState) (admission : Option ReleaseAdmission) : Except String ReleaseStateMachine :=
  if target = .securityEvaluated then
    if machine.currentState ≠ .created then
      .error s!"MONOTONIC VIOLATION: Cannot transition to SECURITY_EVALUATED from '{machine.currentState.value}'"
    else
      .ok { machine with
        currentState := .securityEvaluated
        lastEvaluationId := (admission.map ReleaseAdmission.evaluationId).or machine.lastEvaluationId }
  else if machine.currentState = .securityEvaluated then machine.leaveEvaluation target admission
  else if machine.currentState.IsFailure ∧ target = .approved then
    .error s!"MONOTONIC VIOLATION: Forbidden direct state transition '{machine.currentState.value}' -> 'APPROVED'. Fresh evaluation required."
  else
    .error s!"MONOTONIC VIOLATION: Forbidden state transition '{machine.currentState.value}' -> '{target.value}'"

/-- Source: `e16_release.py`, `reset_for_fresh_evaluation`. Kind: D -/
def resetForFreshEvaluation (newEvaluationId : String) : Except String ReleaseStateMachine :=
  if newEvaluationId = "" ∨ machine.lastEvaluationId = some newEvaluationId then
    .error "REPLAY PROTECTION: Fresh evaluation requires a new, distinct evaluation_id"
  else .ok { machine with currentState := .created, lastEvaluationId := some newEvaluationId }

end ReleaseStateMachine

/-! ## Runs -/

/-- A call of the machine. Kind: D -/
inductive ReleaseCall
  | transition (target : ReleaseState) (admission : Option ReleaseAdmission)
  | resetForFreshEvaluation (newEvaluationId : String)

/-- A machine with what has happened so far. Kind: D -/
structure ReleaseRun where
  machine : ReleaseStateMachine
  /-- An evaluation ended in a security failure. -/
  failed : Bool
  /-- The identifiers used before the last reset. -/
  finished : List String
  /-- The identifiers used since. -/
  current : List String

namespace ReleaseRun

/-- A new machine. Source: `e16_release.py`, `__init__`. Kind: D -/
def start (artifactId : String) (initialState : ReleaseState) : ReleaseRun where
  machine := { artifactId := artifactId, currentState := initialState }
  failed := initialState.IsFailure
  finished := []
  current := []

variable (run : ReleaseRun)

/-- The run after a transition to a machine. Kind: D -/
def moved (machine : ReleaseStateMachine) (admission : Option ReleaseAdmission) : ReleaseRun where
  machine := machine
  failed := run.failed || machine.currentState.IsFailure
  finished := run.finished
  current := (admission.map ReleaseAdmission.evaluationId).toList ++ run.current

/-- The run after a reset. Kind: D -/
def renewed (machine : ReleaseStateMachine) (newEvaluationId : String) : ReleaseRun where
  machine := machine
  failed := run.failed
  finished := run.current ++ run.finished
  current := [newEvaluationId]

/-- A call; one that raises changes nothing. Kind: D -/
def step : ReleaseCall → ReleaseRun
  | .transition target admission =>
    match run.machine.transition target admission with
    | .ok machine => run.moved machine admission
    | .error _ => run
  | .resetForFreshEvaluation newEvaluationId =>
    match run.machine.resetForFreshEvaluation newEvaluationId with
    | .ok machine => run.renewed machine newEvaluationId
    | .error _ => run

/-- An approval is by an admission with status APPROVED for the machine's own artifact under the identifier of the
evaluation in progress, which after a failure was not used in an earlier evaluation. Kind: D -/
def ApprovedBy (call : ReleaseCall) : Prop :=
  ∃ admission, call = .transition .approved (some admission) ∧ admission.status = .approved ∧
    admission.artifactId = run.machine.artifactId ∧ run.machine.lastEvaluationId = some admission.evaluationId ∧
    (run.failed = true → admission.evaluationId ∉ run.finished)

/-- The state APPROVED is reached by an approval only, and a transition does not go back to an earlier stage. Kind: D -/
def CallSafe (call : ReleaseCall) : Prop :=
  ((run.step call).machine.currentState = .approved → run.machine.currentState ≠ .approved → run.ApprovedBy call) ∧
    ∀ target admission, call = .transition target admission →
      run.machine.currentState.stage ≤ (run.step call).machine.currentState.stage

/-- What the machine leaves to its callers: that after a failure no reset and no evaluation brings back an
identifier, that an approval is for the artifact of the machine while the machine knows an identifier, and that no
transition out of an evaluation goes to CREATED. Kind: D -/
def CallSound : ReleaseCall → Prop
  | .transition .securityEvaluated admission => run.machine.currentState = .created → run.failed = true →
      ∀ given ∈ admission, given.evaluationId ∉ run.finished
  | .transition .created admission => run.machine.currentState = .securityEvaluated →
      ∀ given ∈ admission, ¬run.machine.SameEvaluation given
  | .transition .approved admission => run.machine.currentState = .securityEvaluated →
      ∀ given ∈ admission, given.status = .approved → run.machine.SameEvaluation given →
        given.artifactId = run.machine.artifactId ∧ run.machine.lastEvaluationId ≠ none ∧
          (run.machine.lastEvaluationId = some "" → given.evaluationId = "")
  | .transition _ _ => True
  | .resetForFreshEvaluation newEvaluationId => run.failed = true →
      newEvaluationId = "" ∨ run.machine.lastEvaluationId = some newEvaluationId ∨
        newEvaluationId ∉ run.current ++ run.finished

end ReleaseRun

/-! ## What a call does -/

namespace ReleaseStateMachine

variable {machine machine' : ReleaseStateMachine} {target : ReleaseState} {admission : Option ReleaseAdmission}

theorem statusMismatch_approved {status : AdmissionStatus} (h : statusMismatch .approved status = none) :
    status = .approved := by
  unfold statusMismatch at h
  by_contra hne
  rw [if_pos ⟨rfl, hne⟩] at h
  cases h

/-- Out of an evaluation a transition takes an admission of the same evaluation. Kind: L -/
theorem leaveEvaluation_ok (h : machine.leaveEvaluation target admission = .ok machine') :
    ∃ given, admission = some given ∧ machine.SameEvaluation given ∧ statusMismatch target given.status = none ∧
      machine' = { machine with currentState := target } := by
  rcases admission with _ | given
  · cases h
  rw [leaveEvaluation] at h
  by_cases hsame : machine.SameEvaluation given
  · grind
  · rw [if_pos hsame] at h
    cases h

/-- A transition begins an evaluation or leaves one. Kind: L -/
theorem transition_ok (h : machine.transition target admission = .ok machine') :
    target = .securityEvaluated ∧ machine.currentState = .created ∧ machine' = { machine with
        currentState := .securityEvaluated
        lastEvaluationId := (admission.map ReleaseAdmission.evaluationId).or machine.lastEvaluationId } ∨
      target ≠ .securityEvaluated ∧ machine.currentState = .securityEvaluated ∧
        ∃ given, admission = some given ∧ machine.SameEvaluation given ∧ statusMismatch target given.status = none ∧
          machine' = { machine with currentState := target } := by
  unfold transition at h
  by_cases htarget : target = .securityEvaluated
  · grind
  rw [if_neg htarget] at h
  by_cases hevaluated : machine.currentState = .securityEvaluated
  · simp_all [leaveEvaluation_ok]
  rw [if_neg hevaluated] at h
  split at h
  · cases h
  · cases h

theorem resetForFreshEvaluation_ok {newEvaluationId : String}
    (h : machine.resetForFreshEvaluation newEvaluationId = .ok machine') :
    ¬(newEvaluationId = "" ∨ machine.lastEvaluationId = some newEvaluationId) ∧
      machine' = { machine with currentState := .created, lastEvaluationId := some newEvaluationId } := by
  unfold resetForFreshEvaluation at h
  by_cases hold : newEvaluationId = "" ∨ machine.lastEvaluationId = some newEvaluationId
  · rw [if_pos hold] at h
    cases h
  · simp_all

end ReleaseStateMachine

namespace ReleaseRun

variable {run : ReleaseRun} {call : ReleaseCall}

/-- What a call does to a run: nothing, or it begins an evaluation, leaves one, or resets the machine. Kind: D -/
inductive Moves (run : ReleaseRun) : ReleaseCall → ReleaseRun → Prop
  | nothing (call : ReleaseCall) : Moves run call run
  | begins (admission : Option ReleaseAdmission) (hcreated : run.machine.currentState = .created) :
      Moves run (.transition .securityEvaluated admission) (run.moved
        { run.machine with
          currentState := .securityEvaluated
          lastEvaluationId := (admission.map ReleaseAdmission.evaluationId).or run.machine.lastEvaluationId } admission)
  | leaves (target : ReleaseState) (given : ReleaseAdmission) (htarget : target ≠ .securityEvaluated)
      (hevaluated : run.machine.currentState = .securityEvaluated) (hsame : run.machine.SameEvaluation given)
      (hstatus : ReleaseStateMachine.statusMismatch target given.status = none) :
      Moves run (.transition target (some given)) (run.moved { run.machine with currentState := target } (some given))
  | resets (newEvaluationId : String)
      (hnew : ¬(newEvaluationId = "" ∨ run.machine.lastEvaluationId = some newEvaluationId)) :
      Moves run (.resetForFreshEvaluation newEvaluationId) (run.renewed
        { run.machine with currentState := .created, lastEvaluationId := some newEvaluationId } newEvaluationId)

theorem moves_step (run : ReleaseRun) (call : ReleaseCall) : Moves run call (run.step call) := by
  rcases call with ⟨target, admission⟩ | newEvaluationId
  · rw [step]
    rcases htransition : run.machine.transition target admission with message | machine
    · exact .nothing _
    · rcases ReleaseStateMachine.transition_ok htransition with
        ⟨rfl, hcreated, rfl⟩ | ⟨htarget, hevaluated, given, rfl, hsame, hstatus, rfl⟩
      · exact .begins admission hcreated
      · exact .leaves target given htarget hevaluated hsame hstatus
  · rw [step]
    rcases hreset : run.machine.resetForFreshEvaluation newEvaluationId with message | machine
    · exact .nothing _
    · obtain ⟨hnew, rfl⟩ := ReleaseStateMachine.resetForFreshEvaluation_ok hreset
      exact .resets newEvaluationId hnew

/-- After a failure the machine is not in an evaluation under an identifier of an earlier one. Kind: D -/
def Fresh (run : ReleaseRun) : Prop := run.failed = true → ¬run.machine.currentState.IsFailure →
  ∀ last ∈ run.machine.lastEvaluationId, last ∉ run.finished

theorem fresh_start (artifactId : String) (initialState : ReleaseState) : (start artifactId initialState).Fresh := by
  intro _ _ last hlast
  cases hlast

theorem Fresh.step (hfresh : run.Fresh) (hsound : run.CallSound call) : (run.step call).Fresh := by
  have hmoves := moves_step run call
  generalize run.step call = run' at hmoves
  cases hmoves with
  | nothing => exact hfresh
  | begins admission hcreated =>
    intro hfailed _ last hlast
    have hbefore : run.failed = true := by simpa [moved, ReleaseState.IsFailure] using hfailed
    rcases admission with _ | given
    · refine hfresh hbefore ?_ last hlast
      rw [hcreated]
      decide
    · cases hlast
      exact hsound hcreated hbefore given rfl
  | leaves target given htarget hevaluated hsame hstatus =>
    intro hfailed hnot last hlast
    have hbefore : run.failed = true := by
      rcases Bool.or_eq_true_iff.mp hfailed with hbefore | hnow
      · exact hbefore
      · exact absurd (of_decide_eq_true hnow) hnot
    refine hfresh hbefore ?_ last hlast
    rw [hevaluated]
    decide
  | resets newEvaluationId hnew =>
    intro hfailed _ last hlast
    cases hlast
    rcases hsound hfailed with hempty | hlast | hunused
    · exact absurd (.inl hempty) hnew
    · exact absurd (.inr hlast) hnew
    · exact hunused

/-- A call that its caller answers for is safe. Kind: P -/
theorem callSafe_of_sound (hfresh : run.Fresh) (hsound : run.CallSound call) : run.CallSafe call := by
  have hmoves := moves_step run call
  unfold CallSafe
  generalize run.step call = run' at hmoves
  cases hmoves with
  | nothing => exact ⟨fun happroved hnot => absurd happroved hnot, fun _ _ _ => Nat.le_refl _⟩
  | begins admission hcreated =>
    refine ⟨fun happroved => ?_, fun _ _ _ => ?_⟩
    · cases happroved
    · rw [hcreated]
      exact Nat.zero_le _
  | leaves target given htarget hevaluated hsame hstatus =>
    constructor
    · intro (happroved : target = .approved) _
      subst happroved
      have hstatus' := ReleaseStateMachine.statusMismatch_approved hstatus
      obtain ⟨hartifact, hknown, hempty⟩ := hsound hevaluated given rfl hstatus' hsame
      have hlast : run.machine.lastEvaluationId = some given.evaluationId := by
        rcases hid : run.machine.lastEvaluationId with _ | last
        · exact absurd hid hknown
        · by_cases hne : last = ""
          · subst hne
            rw [hempty hid]
          · rw [hsame last hid hne]
      refine ⟨given, rfl, hstatus', hartifact, hlast, fun hfailed => hfresh hfailed ?_ _ hlast⟩
      rw [hevaluated]
      decide
    · intro _ _ _
      show run.machine.currentState.stage ≤ target.stage
      rw [hevaluated]
      rcases target with _ | _ | _ | _ | _ | _
      · exact absurd hsame (hsound hevaluated given rfl)
      · exact absurd rfl htarget
      · decide
      · decide
      · decide
      · decide
  | resets newEvaluationId hnew =>
    refine ⟨fun happroved => ?_, fun _ _ heq => ?_⟩
    · cases happroved
    · cases heq

/-- A run whose calls meet what the machine leaves to its callers is safe. Kind: P -/
theorem release_run_safe (artifactId : String) (initialState : ReleaseState) (calls : List ReleaseCall)
    (h : Along step CallSound (start artifactId initialState) calls) :
    Along step CallSafe (start artifactId initialState) calls := by
  have hstep : ∀ (run : ReleaseRun) call, run.Fresh → run.CallSound call → (run.step call).Fresh :=
    fun _ _ hfresh hsound => hfresh.step hsound
  have hsafe : ∀ (run : ReleaseRun) call, run.Fresh → run.CallSound call → run.CallSafe call :=
    fun _ _ hfresh hsound => callSafe_of_sound hfresh hsound
  exact Along.imp hstep hsafe (fresh_start artifactId initialState) h

/-- An admission with status APPROVED. Kind: D -/
def approval (artifactId evaluationId : String) : ReleaseAdmission where
  status := .approved
  artifactId := artifactId
  evaluationId := evaluationId

/-- An admission with status BLOCKED. Kind: D -/
def refusal (artifactId evaluationId : String) : ReleaseAdmission := { approval artifactId evaluationId with status := .blocked }

/-- An evaluation that ends in BLOCKED, and a fresh one that is approved. -/
theorem release_run_safe_approval : Along step CallSafe (start "art" .created)
    [.transition .securityEvaluated (some (refusal "art" "eval-1")), .transition .blocked (some (refusal "art" "eval-1")),
      .resetForFreshEvaluation "eval-2", .transition .securityEvaluated (some (approval "art" "eval-2")),
      .transition .approved (some (approval "art" "eval-2"))] := by
  apply release_run_safe
  refine ⟨fun _ hfailed => absurd hfailed (by decide), trivial, fun _ => .inr (.inr (by decide)), fun _ _ given hgiven => ?_,
    fun _ given hgiven _ _ => ?_, trivial⟩
  · cases hgiven
    decide
  · cases hgiven
    exact ⟨rfl, by decide, fun hempty => absurd hempty (by decide)⟩

/-- A machine approves the admission of another artifact, without an identifier of the evaluation. Kind: P -/
theorem other_artifact_approved : ¬ ∀ artifactId initialState calls,
    Along step CallSafe (start artifactId initialState) calls := by
  intro h
  have hsafe := (h "art" .created [.transition .securityEvaluated none,
    .transition .approved (some (approval "other" "eval-0"))]).2.1
  obtain ⟨admission, heq, _, hartifact, _⟩ := hsafe.1 rfl (by decide)
  cases heq
  exact absurd hartifact (by decide)

end ReleaseRun

end KarsaSec.Analysis
