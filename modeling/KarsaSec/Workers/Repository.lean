import KarsaSec.Found.Dict
import KarsaSec.Workers.Task

/-!
# The repository in memory

`InMemoryTaskRepository`: the tasks by their identifiers, every operation under one lock. An operation that
raises half way leaves what it has done so far, so each returns the tasks after it together with its
answer.
-/

namespace KarsaSec.Workers

open KarsaSec.Found

/-- A missing attribute. Source: `repository.py`, `update_task`, `atomic_transition`. Kind: D -/
def noTaskAttribute (arg : TaskArg) : TaskError :=
  .attribute s!"RemediationTask has no attribute '{arg.name}'"

/-- An argument other than the state, set on a task in memory.
Source: `repository.py`, `update_task`, `setattr(task, key, val)`
Kind: D -/
def RemediationTask.setArg (task : RemediationTask) (arg : TaskArg) : Except TaskError RemediationTask :=
  match arg with
  | .state _ => .ok task
  | .rawState v => .ok { task with state := v }
  | .findingId v => .ok { task with findingId := v }
  | .approvalTokenId v => .ok { task with approvalTokenId := v }
  | .token v => .ok { task with token := v }
  | .fingerprint v => .ok { task with fingerprint := v }
  | .attempts v => .ok { task with attempts := v }
  | .maxAttempts v => .ok { task with maxAttempts := v }
  | .leaseSeconds v => .ok { task with leaseSeconds := v }
  | .leaseVersion v => .ok { task with leaseVersion := v }
  | .startedAt v => .ok { task with startedAt := v }
  | .errorMessage v => .ok { task with errorMessage := v }
  | .receiptId v => .ok { task with receiptId := v }
  | .receiptFingerprint v => .ok { task with receiptFingerprint := v }
  | .securityVerificationStatus v => .ok { task with securityVerificationStatus := v }
  | .unread _ true _ => .ok task
  | _ => .error (noTaskAttribute arg)

/-- The arguments set one after another until one raises; the task keeps what was set before it.
Source: `repository.py`, `update_task`, `atomic_transition`
Kind: D -/
def setAll (set : RemediationTask → TaskArg → Except TaskError RemediationTask) :
    RemediationTask → List TaskArg → RemediationTask × Option TaskError
  | task, [] => (task, none)
  | task, arg :: rest =>
    match set task arg with
    | .ok task => setAll set task rest
    | .error e => (task, some e)

/-- The tasks in memory. Source: `repository.py`, `InMemoryTaskRepository`. Kind: D -/
structure InMemoryTaskRepository where
  tasks : Dict String RemediationTask := Dict.empty

namespace InMemoryTaskRepository

variable (repository : InMemoryTaskRepository) (now : ℚ)

/-- The task stored under its identifier. Kind: D -/
def put (taskId : String) (task : RemediationTask) : InMemoryTaskRepository :=
  { tasks := repository.tasks.set taskId task }

/-- A task that is not there. Source: `repository.py`. Kind: D -/
def notFound (taskId : String) : TaskError := .value s!"Task with ID {taskId} not found"

/-- Source: `repository.py`. Kind: D -/
def staleLease (taskId : String) (expected active : ℤ) : TaskError :=
  .staleLeaseVersion
    s!"Task fencing lease version mismatch for '{taskId}'. Expected v{expected}, active is v{active}."

/-- Source: `repository.py`, `InMemoryTaskRepository.create_task`. Kind: D -/
def createTask (task : RemediationTask) : InMemoryTaskRepository × Option TaskError :=
  if repository.tasks.contains task.taskId then
    (repository, some (.value s!"Task with ID {task.taskId} already exists"))
  else (repository.put task.taskId task, none)

/-- Source: `repository.py`, `InMemoryTaskRepository.update_task`. Kind: D -/
def updateTask (taskId : String) (args : TaskArgs) : InMemoryTaskRepository × Option TaskError :=
  match repository.tasks.get? taskId with
  | none => (repository, some (notFound taskId))
  | some task =>
    let (task, raised) := setAll
      (fun task arg =>
        match arg with
        | .state v => task.transitionTo now v
        | _ => task.setArg arg) task args.entries
    (repository.put taskId task, raised)

/-- Source: `repository.py`, `InMemoryTaskRepository.atomic_transition`. Kind: D -/
def atomicTransition (taskId : String) (expectedLeaseVersion : ℤ) (expectedStates : List TaskState)
    (newState : TaskState) (args : TaskArgs) : InMemoryTaskRepository × Option TaskError :=
  match repository.tasks.get? taskId with
  | none => (repository, some (notFound taskId))
  | some task =>
    if task.leaseVersion ≠ expectedLeaseVersion then
      (repository, some (staleLease taskId expectedLeaseVersion task.leaseVersion))
    else if task.state ∉ expectedStates then
      let expected := joinStr ", "
        (expectedStates.map fun s => s!"<TaskState.{s.value}: '{s.value}'>")
      (repository, some (.invalidTaskState
        s!"Task state transition rejected for '{taskId}'. Current state '{task.state.value}' not in expected [{expected}]."))
    else
      match task.transitionTo now newState with
      | .error e => (repository, some e)
      | .ok task =>
        let (task, raised) := setAll RemediationTask.setArg task args.entries
        (repository.put taskId task, raised)

/-- Source: `repository.py`, `InMemoryTaskRepository.assign_task`. Kind: D -/
def assignTask (taskId _workerId : String) : InMemoryTaskRepository × Option TaskError :=
  match repository.tasks.get? taskId with
  | none => (repository, some (notFound taskId))
  | some task =>
    if task.state ∈ TaskState.terminal then
      (repository, some (.invalidTaskState "Terminal state task cannot be assigned."))
    else if task.maxAttempts ≤ task.attempts then
      (repository, some (.invalidTaskState s!"Task '{taskId}' attempts exhausted."))
    else if task.state ∉ [TaskState.queued, TaskState.pending] then
      (repository, some (.invalidTaskState
        s!"Task '{taskId}' is in state '{task.state.value}', expected QUEUED."))
    else
      match task.transitionTo now .running with
      | .error e => (repository, some e)
      | .ok task => (repository.put taskId task.incrementLeaseVersion, none)

/-- Source: `repository.py`, `InMemoryTaskRepository.complete_task`. Kind: D -/
def completeTask (taskId : String) (expectedLeaseVersion : ℤ)
    (receiptId receiptFingerprint securityVerificationStatus : Option String) :
    InMemoryTaskRepository × Option TaskError :=
  match repository.tasks.get? taskId with
  | none => (repository, some (notFound taskId))
  | some task =>
    if task.leaseVersion ≠ expectedLeaseVersion then
      (repository, some (staleLease taskId expectedLeaseVersion task.leaseVersion))
    else if task.state ≠ .running then
      (repository, some (.invalidTaskState s!"Task state '{task.state.value}' cannot be completed"))
    else
      match task.transitionTo now .completed with
      | .error e => (repository, some e)
      | .ok task =>
        let task := task.incrementLeaseVersion
        (repository.put taskId
          { task with
            receiptId := givenOr receiptId task.receiptId
            receiptFingerprint := givenOr receiptFingerprint task.receiptFingerprint
            securityVerificationStatus :=
              givenOr securityVerificationStatus task.securityVerificationStatus }, none)

/-- Source: `repository.py`, `InMemoryTaskRepository.record_execution_failure`. Kind: D -/
def recordExecutionFailure (taskId : String) (expectedLeaseVersion : ℤ) (errorMessage : String) :
    InMemoryTaskRepository × Option TaskError :=
  match repository.tasks.get? taskId with
  | none => (repository, some (notFound taskId))
  | some task =>
    if task.leaseVersion ≠ expectedLeaseVersion then
      (repository, some (staleLease taskId expectedLeaseVersion task.leaseVersion))
    else if task.state ≠ .running then
      (repository, some (.invalidTaskState
        s!"Task state '{task.state.value}' cannot be recorded as failure."))
    else
      let task := { task with errorMessage := some errorMessage }
      match task.transitionTo now (if task.maxAttempts ≤ task.attempts then .failed else .queued) with
      | .error e => (repository.put taskId task, some e)
      | .ok task => (repository.put taskId task.incrementLeaseVersion, none)

/-- One call of the interface. Source: `repository.py`, `InMemoryTaskRepository`. Kind: D -/
def call : TaskOp → InMemoryTaskRepository × Option TaskError
  | .create task => repository.createTask task
  | .update taskId args => repository.updateTask now taskId args
  | .transition taskId expectedLeaseVersion expectedStates newState args =>
    repository.atomicTransition now taskId expectedLeaseVersion expectedStates newState args
  | .assign taskId workerId => repository.assignTask now taskId workerId
  | .complete taskId expectedLeaseVersion _ _ receiptId receiptFingerprint securityVerificationStatus =>
    repository.completeTask now taskId expectedLeaseVersion receiptId receiptFingerprint
      securityVerificationStatus
  | .failure taskId expectedLeaseVersion _ _ errorMessage =>
    repository.recordExecutionFailure now taskId expectedLeaseVersion errorMessage

end InMemoryTaskRepository

end KarsaSec.Workers
