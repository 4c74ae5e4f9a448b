import KarsaSec.Found.Text
import Mathlib.Algebra.Order.Ring.Rat

/-!
# Tasks

`RemediationTask`: a task with its state machine, its attempts and its lease version, and the keyword
arguments that the repositories take for it.

* `transitionTo` is the state machine, `isLeaseExpired` the lease of a running task.
* `TaskArg` is one keyword argument of `update_task` or `atomic_transition`; `TaskArgs` are the arguments
  of one call, in their order and none given twice.
-/

namespace KarsaSec.Workers

open KarsaSec.Found

/-- The exceptions of the repositories, with their texts.
Source: `task.py`; `ValueError`, `AttributeError` and the `IntegrityError` of the database
Kind: D -/
inductive TaskError
  | value (message : String)
  | attribute (message : String)
  | staleLeaseVersion (message : String)
  | invalidTaskState (message : String)
  | workerFenced (message : String)
  | invalidWorkerState (message : String)
  | integrity (constraint : String)
  | data (table : String)
  deriving DecidableEq, Repr

/-- Source: `task.py`, `TaskState`. Kind: D -/
inductive TaskState
  | pending
  | queued
  | running
  | failedRetryable
  | completed
  | failed
  | cancelled
  deriving DecidableEq, Repr

namespace TaskState

/-- Source: `task.py`, `TaskState`. Kind: D -/
def value : TaskState → String
  | pending => "PENDING"
  | queued => "QUEUED"
  | running => "RUNNING"
  | failedRetryable => "FAILED_RETRYABLE"
  | completed => "COMPLETED"
  | failed => "FAILED"
  | cancelled => "CANCELLED"

/-- The states in their order. Kind: D -/
def all : List TaskState := [pending, queued, running, failedRetryable, completed, failed, cancelled]

/-- `TaskState(value)`. Kind: D -/
def ofValue (text : String) : Except TaskError TaskState :=
  match all.find? fun state => state.value = text with
  | some state => .ok state
  | none => .error (.value s!"'{text}' is not a valid TaskState")

theorem value_injective : Function.Injective value := by
  intro a b h
  cases a <;> cases b <;> first | rfl | exact absurd h (by decide)

@[simp] theorem ofValue_value (state : TaskState) : ofValue state.value = .ok state := by
  cases state <;> decide

theorem value_of_ofValue {text : String} {state : TaskState} (h : ofValue text = .ok state) :
    state.value = text := by
  unfold ofValue at h
  split at h
  · grind
  · cases h

/-- The states that a task is to keep. Source: `postgres_task_repository.py`, `terminal_states`. Kind: D -/
def terminal : List TaskState := [completed, failed, cancelled]

/-- Source: `task.py`, `RemediationTask._get_allowed_transitions`. Kind: D -/
def allowedTransitions : TaskState → List TaskState
  | pending => [queued]
  | queued => [running, cancelled]
  | running => [completed, failedRetryable, failed, cancelled, queued]
  | failedRetryable => [queued, failed]
  | completed => []
  | failed => []
  | cancelled => []

end TaskState

/-- The values of the states that a task is to keep. Kind: D -/
def terminalValues : List String := TaskState.terminal.map TaskState.value

/-- Source: `task.py`, `RemediationTask`. Kind: D -/
structure RemediationTask where
  taskId : String
  findingId : String
  approvalTokenId : String
  token : String := ""
  fingerprint : String
  state : TaskState := .pending
  attempts : ℤ := 0
  maxAttempts : ℤ := 3
  leaseSeconds : ℤ := 300
  startedAt : Option ℚ := none
  errorMessage : Option String := none
  receiptId : Option String := none
  receiptFingerprint : Option String := none
  securityVerificationStatus : Option String := none
  leaseVersion : ℤ := 1
  deriving DecidableEq

namespace RemediationTask

variable (task : RemediationTask)

/-- Source: `task.py`, `RemediationTask.increment_lease_version`. Kind: D -/
def incrementLeaseVersion : RemediationTask := { task with leaseVersion := task.leaseVersion + 1 }

/-- What entering a state changes: a start counts as an attempt.
Source: `task.py`, `RemediationTask.transition_to`
Kind: D -/
def enter (now : ℚ) (newState : TaskState) : RemediationTask :=
  match newState with
  | .running => { task with state := newState, startedAt := some now, attempts := task.attempts + 1 }
  | .completed | .failed | .cancelled | .queued => { task with state := newState, startedAt := none }
  | .pending | .failedRetryable => { task with state := newState }

/-- Source: `task.py`, `RemediationTask.transition_to`. Kind: D -/
def transitionTo (now : ℚ) (newState : TaskState) : Except TaskError RemediationTask :=
  if newState ∈ task.state.allowedTransitions then .ok (task.enter now newState)
  else .error (.value s!"Invalid transition from {task.state.value} to {newState.value}")

/-- Source: `task.py`, `RemediationTask.is_lease_expired`. Kind: D -/
def isLeaseExpired (currentTime : ℚ) : Bool :=
  match task.startedAt with
  | none => false
  | some startedAt => task.state = .running ∧ (task.leaseSeconds : ℚ) < currentTime - startedAt

end RemediationTask

/-! ## Keyword arguments -/

/-- A keyword argument: a field of the tasks in memory, a column of the stored tasks, or another name, which
no operation reads (`onTask` and `onModel` say whether the two classes have it).
Source: `repository.py`, `update_task`, `atomic_transition`
Kind: D -/
inductive TaskArg
  | state (v : TaskState)
  | rawState (v : TaskState)
  | findingId (v : String)
  | approvalTokenId (v : String)
  | token (v : String)
  | fingerprint (v : String)
  | attempts (v : ℤ)
  | maxAttempts (v : ℤ)
  | leaseSeconds (v : ℤ)
  | leaseVersion (v : ℤ)
  | startedAt (v : Option ℚ)
  | errorMessage (v : Option String)
  | receiptId (v : Option String)
  | receiptFingerprint (v : Option String)
  | securityVerificationStatus (v : Option String)
  | assignedWorkerId (v : Option String)
  | assignedWorkerFencingToken (v : Option ℤ)
  | recoveryFencingToken (v : Option ℤ)
  | payload (v : Option String)
  | reason (v : String)
  | unread (name : String) (onTask onModel : Bool)
  deriving DecidableEq

/-- Kind: D -/
def TaskArg.name : TaskArg → String
  | state _ => "state"
  | rawState _ => "_state"
  | findingId _ => "finding_id"
  | approvalTokenId _ => "approval_token_id"
  | token _ => "token"
  | fingerprint _ => "fingerprint"
  | attempts _ => "attempts"
  | maxAttempts _ => "max_attempts"
  | leaseSeconds _ => "lease_seconds"
  | leaseVersion _ => "lease_version"
  | startedAt _ => "started_at"
  | errorMessage _ => "error_message"
  | receiptId _ => "receipt_id"
  | receiptFingerprint _ => "receipt_fingerprint"
  | securityVerificationStatus _ => "security_verification_status"
  | assignedWorkerId _ => "assigned_worker_id"
  | assignedWorkerFencingToken _ => "assigned_worker_fencing_token"
  | recoveryFencingToken _ => "recovery_fencing_token"
  | payload _ => "payload"
  | reason _ => "reason"
  | unread name _ _ => name

/-- The keyword arguments of one call. Kind: D -/
structure TaskArgs where
  entries : List TaskArg := []
  nodup : (entries.map TaskArg.name).Nodup := by decide

namespace TaskArgs

variable (args : TaskArgs)

/-- The value of the first argument that `read` reads. Kind: D -/
def find? {α : Type} (read : TaskArg → Option α) : Option α := args.entries.findSome? read

/-- Source: `repository.py`, `update_task`, `kwargs["state"]`. Kind: D -/
def state? : Option TaskState := args.find? fun
  | .state v => some v
  | _ => none

/-- `kwargs.get("lease_version")`. Kind: D -/
def leaseVersion? : Option ℤ := args.find? fun
  | .leaseVersion v => some v
  | _ => none

/-- `kwargs["error_message"]`. Kind: D -/
def errorMessage? : Option (Option String) := args.find? fun
  | .errorMessage v => some v
  | _ => none

/-- `kwargs["assigned_worker_id"]`. Kind: D -/
def assignedWorkerId? : Option (Option String) := args.find? fun
  | .assignedWorkerId v => some v
  | _ => none

/-- `kwargs["recovery_fencing_token"]`. Kind: D -/
def recoveryFencingToken? : Option (Option ℤ) := args.find? fun
  | .recoveryFencingToken v => some v
  | _ => none

/-- `kwargs.get("reason")`. Kind: D -/
def reason? : Option String := args.find? fun
  | .reason v => some v
  | _ => none

/-- The arguments without `state`. Source: `postgres_task_repository.py`, `kwargs.pop("state")`. Kind: D -/
def popState : TaskArgs where
  entries := args.entries.filter fun
    | .state _ => false
    | _ => true
  nodup := args.nodup.sublist (List.filter_sublist.map _)

end TaskArgs

/-! ## Operations -/

/-- A call of the repository interface. Source: `repository.py`, `TaskRepository`. Kind: D -/
inductive TaskOp
  | create (task : RemediationTask)
  | update (taskId : String) (args : TaskArgs)
  | transition (taskId : String) (expectedLeaseVersion : ℤ) (expectedStates : List TaskState)
      (newState : TaskState) (args : TaskArgs)
  | assign (taskId workerId : String)
  | complete (taskId : String) (expectedLeaseVersion : ℤ) (workerId : String) (workerFencingToken : ℤ)
      (receiptId receiptFingerprint securityVerificationStatus : Option String)
  | failure (taskId : String) (expectedLeaseVersion : ℤ) (workerId : String) (workerFencingToken : ℤ)
      (errorMessage : String)

/-- A value that is kept unless another one is given; an empty text counts as none.
Source: `repository.py`, `complete_task`, `if receipt_id:`
Kind: D -/
def givenOr (given stored : Option String) : Option String :=
  match given with
  | none => stored
  | some text => if text = "" then stored else some text

/-- The task that a call is about. Kind: D -/
def TaskOp.taskId : TaskOp → String
  | create task => task.taskId
  | update taskId _ => taskId
  | transition taskId _ _ _ _ => taskId
  | assign taskId _ => taskId
  | complete taskId _ _ _ _ _ _ => taskId
  | failure taskId _ _ _ _ => taskId

end KarsaSec.Workers
