import KarsaSec.Events.AuditLedger
import KarsaSec.Found.Dict

/-!
# The repository in the database

`PostgresTaskRepository`: the tables and the six operations that change them. Each operation is one
transaction: it returns the tables after it, or it raises and the tables are rolled back.

* `Database.commit` writes a task with its audit row and its event, as every operation that changes the
  state of a task does; what it writes for each of them has a name of its own.
* `Database.call` is one call of the interface. An `update_task` with a state reads the task first and then
  calls `atomic_transition`; what others do in between is that call with what was read.
* Each column holds texts up to its length and integers of 32 bits; what does not fit raises, as do blanks
  at the end that PostgreSQL would cut.
-/

namespace KarsaSec.Persistence

open KarsaSec.Found KarsaSec.Workers KarsaSec.Events

/-! ## Tables -/

/-- Source: `models.py`, `TaskModel`. Kind: D -/
structure TaskRow where
  findingId : String
  approvalTokenId : String
  fingerprint : String
  state : String
  attempts : ℤ
  maxAttempts : ℤ
  leaseSeconds : ℤ := 300
  leaseVersion : ℤ
  assignedWorkerId : Option String := none
  assignedWorkerFencingToken : Option ℤ := none
  recoveryFencingToken : Option ℤ := none
  payload : Option String := none
  errorMessage : Option String := none
  receiptId : Option String := none
  receiptFingerprint : Option String := none
  securityVerificationStatus : Option String := none
  deriving DecidableEq

/-- The columns hold the row. Source: `models.py`, `TaskModel`. Kind: D -/
def TaskRow.fits (row : TaskRow) (taskId : String) : Bool :=
  fitsString 128 taskId && fitsString 256 row.findingId && fitsString 256 row.approvalTokenId &&
    fitsString 64 row.fingerprint && fitsString 32 row.state && fitsInteger row.attempts &&
    fitsInteger row.maxAttempts && fitsInteger row.leaseSeconds && fitsInteger row.leaseVersion &&
    row.assignedWorkerId.all (fitsString 128) && row.assignedWorkerFencingToken.all fitsInteger &&
    row.recoveryFencingToken.all fitsInteger && row.payload.all fitsText && row.errorMessage.all fitsText &&
    row.receiptId.all (fitsString 128) && row.receiptFingerprint.all (fitsString 64) &&
    row.securityVerificationStatus.all (fitsString 64)

/-- Source: `models.py`, `WorkerModel`. Kind: D -/
structure WorkerRow where
  status : String := "ONLINE"
  fencingToken : ℤ := 1
  deriving DecidableEq

/-- Source: `models.py`, `DeadLetterEventModel`. Kind: D -/
structure DeadLetterRow where
  eventId : String
  taskId : String
  reason : String
  attempts : ℤ
  maxAttempts : ℤ
  sanitizedErrorMessage : String
  workerId : String
  deriving DecidableEq

/-- The tables that the repository reads and writes. Source: `models.py`. Kind: D -/
structure Database where
  tasks : Dict String TaskRow := Dict.empty
  workers : Dict String WorkerRow := Dict.empty
  audit : List AuditRow := []
  outbox : List OutboxRow := []
  deadLetters : List DeadLetterRow := []

/-- Source: `postgres_task_repository.py`, `_model_to_domain`. Kind: D -/
def TaskRow.toDomain (row : TaskRow) (taskId : String) : Except TaskError RemediationTask :=
  match TaskState.ofValue row.state with
  | .error e => .error e
  | .ok state => .ok
      { taskId := taskId
        findingId := row.findingId
        approvalTokenId := row.approvalTokenId
        token := ""
        fingerprint := row.fingerprint
        state := state
        attempts := row.attempts
        maxAttempts := row.maxAttempts
        leaseSeconds := row.leaseSeconds
        leaseVersion := row.leaseVersion
        errorMessage := row.errorMessage
        receiptId := row.receiptId
        receiptFingerprint := row.receiptFingerprint
        securityVerificationStatus := row.securityVerificationStatus }

/-- The row of a new task. Source: `postgres_task_repository.py`, `create_task`. Kind: D -/
def TaskRow.ofTask (task : RemediationTask) : TaskRow :=
  { findingId := task.findingId
    approvalTokenId := task.approvalTokenId
    fingerprint := task.fingerprint
    state := task.state.value
    attempts := task.attempts
    maxAttempts := task.maxAttempts
    leaseSeconds := task.leaseSeconds
    leaseVersion := task.leaseVersion
    errorMessage := task.errorMessage
    receiptId := task.receiptId
    receiptFingerprint := task.receiptFingerprint
    securityVerificationStatus := task.securityVerificationStatus }

/-- An argument set on a stored task.
Source: `postgres_task_repository.py`, `update_task`, `setattr(model, key, val)`
Kind: D -/
def TaskRow.setArg (row : TaskRow) (arg : TaskArg) : Except TaskError TaskRow :=
  match arg with
  | .state v => .ok { row with state := v.value }
  | .findingId v => .ok { row with findingId := v }
  | .approvalTokenId v => .ok { row with approvalTokenId := v }
  | .fingerprint v => .ok { row with fingerprint := v }
  | .attempts v => .ok { row with attempts := v }
  | .maxAttempts v => .ok { row with maxAttempts := v }
  | .leaseSeconds v => .ok { row with leaseSeconds := v }
  | .leaseVersion v => .ok { row with leaseVersion := v }
  | .errorMessage v => .ok { row with errorMessage := v }
  | .receiptId v => .ok { row with receiptId := v }
  | .receiptFingerprint v => .ok { row with receiptFingerprint := v }
  | .securityVerificationStatus v => .ok { row with securityVerificationStatus := v }
  | .assignedWorkerId v => .ok { row with assignedWorkerId := v }
  | .assignedWorkerFencingToken v => .ok { row with assignedWorkerFencingToken := v }
  | .recoveryFencingToken v => .ok { row with recoveryFencingToken := v }
  | .payload v => .ok { row with payload := v }
  | .unread _ _ true => .ok row
  | _ => .error (.attribute s!"TaskModel has no attribute '{arg.name}'")

/-! ## What operations write -/

/-- The deduplication key of a new task. Source: `postgres_task_repository.py`, `create_task`. Kind: D -/
def createdKey (taskId : String) : String := s!"task_created_{taskId}"

/-- The deduplication key of a version of a task.
Source: `postgres_task_repository.py`, `deduplication_key`
Kind: D -/
def versionKey (kind taskId : String) (leaseVersion : ℤ) : String := s!"task_{kind}_{taskId}_{leaseVersion}"

/-- Source: `postgres_task_repository.py`, `create_task`. Kind: D -/
def createdEntry (task : RemediationTask) : Transition :=
  { taskId := task.taskId
    previousState := "NONE"
    newState := task.state.value
    leaseVersion := task.leaseVersion
    reason := "TASK_CREATED" }

/-- Source: `postgres_task_repository.py`, `create_task`. Kind: D -/
def createdEvent (task : RemediationTask) : Staged :=
  { aggregateId := task.taskId
    eventType := "TASK_CREATED"
    leaseVersion := task.leaseVersion
    deduplicationKey := createdKey task.taskId }

/-- The lease version after a transition.
Source: `postgres_task_repository.py`, `atomic_transition`, `next_lease_version`
Kind: D -/
def nextLeaseVersion (expectedLeaseVersion : ℤ) (args : TaskArgs) : ℤ :=
  args.leaseVersion?.getD (expectedLeaseVersion + 1)

/-- What a transition changes in the row of its task.
Source: `postgres_task_repository.py`, `atomic_transition`, `update_values`
Kind: D -/
def transitionRow (row : TaskRow) (leaseVersion : ℤ) (newState : TaskState) (args : TaskArgs) : TaskRow :=
  { row with
    state := newState.value
    leaseVersion := leaseVersion
    errorMessage := args.errorMessage?.getD row.errorMessage
    assignedWorkerId := args.assignedWorkerId?.getD row.assignedWorkerId
    recoveryFencingToken := args.recoveryFencingToken?.getD row.recoveryFencingToken
    attempts := if newState = .running then row.attempts + 1 else row.attempts }

/-- The previous state is the first of those expected.
Source: `postgres_task_repository.py`, `atomic_transition`
Kind: D -/
def transitionEntry (taskId : String) (expectedStates : List TaskState) (newState : TaskState)
    (leaseVersion : ℤ) (args : TaskArgs) : Transition :=
  { taskId := taskId
    previousState := (expectedStates.map TaskState.value).headD "UNKNOWN"
    newState := newState.value
    workerId := args.assignedWorkerId?.getD none
    fencingToken := args.recoveryFencingToken?.getD none
    leaseVersion := leaseVersion
    reason := args.reason?.getD "ATOMIC_TRANSITION" }

/-- Source: `postgres_task_repository.py`, `atomic_transition`. Kind: D -/
def transitionEvent (taskId : String) (newState : TaskState) (leaseVersion : ℤ) : Staged :=
  { aggregateId := taskId
    eventType := s!"TASK_{newState.value}"
    leaseVersion := leaseVersion
    deduplicationKey := versionKey "transition" taskId leaseVersion }

/-- Source: `postgres_task_repository.py`, `assign_task`. Kind: D -/
def assignedRow (row : TaskRow) (workerId : String) (workerFencingToken : ℤ) : TaskRow :=
  { row with
    state := TaskState.running.value
    assignedWorkerId := some workerId
    assignedWorkerFencingToken := some workerFencingToken
    attempts := row.attempts + 1
    leaseVersion := row.leaseVersion + 1 }

/-- What a worker reports of a transition.
Source: `postgres_task_repository.py`, `assign_task`, `complete_task`, `record_execution_failure`
Kind: D -/
def workerEntry (taskId : String) (row : TaskRow) (newState : TaskState) (workerId : String)
    (workerFencingToken leaseVersion : ℤ) (reason : String) : Transition :=
  { taskId := taskId
    previousState := row.state
    newState := newState.value
    workerId := some workerId
    fencingToken := some workerFencingToken
    leaseVersion := leaseVersion
    reason := reason }

/-- The event of a transition that a worker reports.
Source: `postgres_task_repository.py`, `assign_task`, `complete_task`, `record_execution_failure`
Kind: D -/
def workerEvent (taskId eventType kind : String) (leaseVersion : ℤ) : Staged :=
  { aggregateId := taskId
    eventType := eventType
    leaseVersion := leaseVersion
    deduplicationKey := versionKey kind taskId leaseVersion }

/-- Source: `postgres_task_repository.py`, `complete_task`. Kind: D -/
def completedRow (row : TaskRow) (leaseVersion : ℤ)
    (receiptId receiptFingerprint securityVerificationStatus : Option String) : TaskRow :=
  { row with
    state := TaskState.completed.value
    leaseVersion := leaseVersion
    receiptId := givenOr receiptId row.receiptId
    receiptFingerprint := givenOr receiptFingerprint row.receiptFingerprint
    securityVerificationStatus := givenOr securityVerificationStatus row.securityVerificationStatus }

/-- Source: `postgres_task_repository.py`, `record_execution_failure`, "Exhausted". Kind: D -/
def failedRow (row : TaskRow) (leaseVersion : ℤ) (errorMessage : String) : TaskRow :=
  { row with
    state := TaskState.failed.value
    leaseVersion := leaseVersion
    errorMessage := some errorMessage }

/-- Source: `postgres_task_repository.py`, `record_execution_failure`, "Retryable". Kind: D -/
def retriedRow (row : TaskRow) (leaseVersion : ℤ) (errorMessage : String) : TaskRow :=
  { row with
    state := TaskState.queued.value
    leaseVersion := leaseVersion
    errorMessage := some errorMessage
    assignedWorkerId := none
    assignedWorkerFencingToken := none }

/-- The dead letter of a task. Source: `postgres_task_repository.py`, `record_execution_failure`. Kind: D -/
def deadLetter (draws : Draws) (taskId : String) (row : TaskRow) (workerId errorMessage : String) :
    DeadLetterRow :=
  { eventId := "dlq_" ++ draws.letterHex
    taskId := taskId
    reason := "EXHAUSTED"
    attempts := row.attempts
    maxAttempts := row.maxAttempts
    sanitizedErrorMessage := String.ofList (errorMessage.toList.take 8192)
    workerId := workerId }

/-! ## Operations -/

/-- Why no row was updated. Source: `postgres_task_repository.py`, `atomic_transition`. Kind: D -/
def transitionRejected (taskId : String) (row : TaskRow) (expectedLeaseVersion : ℤ)
    (expectedStates : List TaskState) (newState : TaskState) : TaskError :=
  if row.state ∈ terminalValues then
    .invalidTaskState
      s!"Terminal state task '{taskId}' (state='{row.state}') cannot be resurrected to '{newState.value}'."
  else if row.leaseVersion ≠ expectedLeaseVersion then
    .staleLeaseVersion
      s!"Task fencing lease version mismatch for '{taskId}'. Expected v{expectedLeaseVersion}, active is v{row.leaseVersion}."
  else
    let expected := joinStr ", " (expectedStates.map fun s => s!"'{s.value}'")
    .invalidTaskState
      s!"Task state transition rejected for '{taskId}'. Current state '{row.state}' not in expected [{expected}]."

/-- Whether a transition is a resurrection by its own arguments.
Source: `postgres_task_repository.py`, `atomic_transition`, "Terminal state resurrection check"
Kind: D -/
def resurrects (expectedStates : List TaskState) (newState : TaskState) : Bool :=
  (newState = .queued || newState = .running) && expectedStates.any fun s => s ∈ TaskState.terminal

/-- Whether a task is assigned to another worker; an empty name counts as none.
Source: `postgres_task_repository.py`, `complete_task`, `record_execution_failure`
Kind: D -/
def assignedElsewhere (row : TaskRow) (workerId : String) : Bool :=
  match row.assignedWorkerId with
  | none => false
  | some assigned => assigned ≠ "" ∧ assigned ≠ workerId

namespace Database

section

variable (sha256 : String → String) (draws : Draws) (db : Database)

/-- The columns hold a row, its audit row, and its event where none has its key.
Source: `models.py`, `TaskModel`, `TaskAuditLogModel`, `OutboxEventModel`
Kind: D -/
def holds (taskId : String) (row : TaskRow) (entry : Transition) (staged : Staged) : Bool :=
  row.fits taskId && entry.fits &&
    (TransactionalOutbox.hasKey db.outbox staged.deduplicationKey || staged.fits)

/-- A row of a task with its audit row and its event.
Source: `postgres_task_repository.py`, "Automatic Audit and Outbox Staging"
Kind: D -/
def commit (taskId : String) (row : TaskRow) (entry : Transition) (staged : Staged) :
    Except TaskError (Database × RemediationTask) :=
  if !db.holds taskId row entry staged then .error (.data "tasks, task_audit_log, outbox_events")
  else
    match TaskAuditLedger.recordTransition sha256 draws db.audit entry with
    | .error e => .error e
    | .ok audit =>
      match TransactionalOutbox.stageEvent draws db.outbox staged with
      | .error e => .error e
      | .ok outbox =>
        match row.toDomain taskId with
        | .error e => .error e
        | .ok task =>
          .ok ({ db with tasks := db.tasks.set taskId row, audit := audit, outbox := outbox }, task)

/-- Source: `postgres_task_repository.py`, `create_task`. Kind: D -/
def createTask (task : RemediationTask) : Except TaskError (Database × RemediationTask) :=
  if db.tasks.contains task.taskId then
    .error (.value s!"Task with ID {task.taskId} already exists")
  else
    db.commit sha256 draws task.taskId (TaskRow.ofTask task) (createdEntry task) (createdEvent task)

/-- The row is updated where identifier, version and state match.
Source: `postgres_task_repository.py`, `atomic_transition`
Kind: D -/
def atomicTransition (taskId : String) (expectedLeaseVersion : ℤ) (expectedStates : List TaskState)
    (newState : TaskState) (args : TaskArgs) : Except TaskError (Database × RemediationTask) :=
  if resurrects expectedStates newState then
    .error (.invalidTaskState
      s!"Terminal state task '{taskId}' cannot be resurrected to '{newState.value}'.")
  else
    match db.tasks.get? taskId with
    | none => .error (.value s!"Task with ID '{taskId}' not found")
    | some row =>
      if row.leaseVersion = expectedLeaseVersion ∧ row.state ∈ expectedStates.map TaskState.value then
        let next := nextLeaseVersion expectedLeaseVersion args
        db.commit sha256 draws taskId (transitionRow row next newState args)
          (transitionEntry taskId expectedStates newState next args) (transitionEvent taskId newState next)
      else .error (transitionRejected taskId row expectedLeaseVersion expectedStates newState)

/-- Source: `postgres_task_repository.py`, `update_task`. Kind: D -/
def updateTask (taskId : String) (args : TaskArgs) : Except TaskError (Database × RemediationTask) :=
  match db.tasks.get? taskId with
  | none => .error (.value s!"Task with ID {taskId} not found")
  | some row =>
    match args.state? with
    | some newState =>
      match row.toDomain taskId with
      | .error e => .error e
      | .ok current => db.atomicTransition sha256 draws taskId current.leaseVersion [current.state]
          newState args.popState
    | none =>
      match args.entries.foldlM TaskRow.setArg row with
      | .error e => .error e
      | .ok row =>
        if !row.fits taskId then .error (.data "tasks")
        else
          match row.toDomain taskId with
          | .error e => .error e
          | .ok task => .ok ({ db with tasks := db.tasks.set taskId row }, task)

/-- The status of a worker; one without a row counts as ONLINE.
Source: `postgres_task_repository.py`, `assign_task`
Kind: D -/
def workerStatus (workerId : String) : String :=
  ((db.workers.get? workerId).map WorkerRow.status).getD "ONLINE"

/-- Source: `postgres_task_repository.py`, `assign_task`, `worker_fencing_token`. Kind: D -/
def workerToken (workerId : String) : ℤ := ((db.workers.get? workerId).map WorkerRow.fencingToken).getD 1

/-- Source: `postgres_task_repository.py`, `assign_task`. Kind: D -/
def assignTask (taskId workerId : String) : Except TaskError (Database × RemediationTask) :=
  let status := db.workerStatus workerId
  if status ∈ ["DRAINING", "DRAINED", "FENCED", "OFFLINE"] then
    .error (.invalidWorkerState
      s!"Worker '{workerId}' status is '{status}', expected ONLINE for assignment.")
  else
    match db.tasks.get? taskId with
    | none => .error (.value s!"Task with ID '{taskId}' not found")
    | some row =>
      if row.state ∈ terminalValues then
        .error (.invalidTaskState s!"Terminal state task '{taskId}' cannot be assigned.")
      else if row.maxAttempts ≤ row.attempts then
        .error (.invalidTaskState
          s!"Task '{taskId}' attempts exhausted ({row.attempts}/{row.maxAttempts}).")
      else if row.state ∉ [TaskState.queued.value, TaskState.pending.value] then
        .error (.invalidTaskState
          s!"Task state transition rejected for '{taskId}'. Current state '{row.state}' not in expected QUEUED/PENDING.")
      else
        let token := db.workerToken workerId
        let version := row.leaseVersion + 1
        db.commit sha256 draws taskId (assignedRow row workerId token)
          (workerEntry taskId row .running workerId token version "TASK_ASSIGNED")
          (workerEvent taskId "TASK_ASSIGNED" "assigned" version)

/-- What keeps a worker from changing a task, if anything: its status or a newer token.
Source: `postgres_task_repository.py`, `complete_task`, `record_execution_failure`
Kind: D -/
def workerFenced (taskId workerId : String) (workerFencingToken : ℤ) : Option TaskError :=
  match db.workers.get? workerId with
  | none => none
  | some worker =>
    if worker.status ∈ ["FENCED", "OFFLINE"] then
      some (.workerFenced
        s!"Worker '{workerId}' status is '{worker.status}' and cannot mutate task '{taskId}'.")
    else if workerFencingToken < worker.fencingToken then
      some (.workerFenced
        s!"Worker '{workerId}' fencing token mismatch (active {worker.fencingToken} > provided {workerFencingToken}).")
    else none

/-- The running task that a worker may change, with the version it expects.
Source: `postgres_task_repository.py`, `complete_task`, `record_execution_failure`
Kind: D -/
def mutableRow (taskId : String) (expectedLeaseVersion : ℤ) (workerId : String) (workerFencingToken : ℤ)
    (notRunning : String → String) : Except TaskError TaskRow :=
  match db.workerFenced taskId workerId workerFencingToken with
  | some e => .error e
  | none =>
    match db.tasks.get? taskId with
    | none => .error (.value s!"Task with ID '{taskId}' not found")
    | some row =>
      if assignedElsewhere row workerId then
        let assigned := row.assignedWorkerId.getD ""
        .error (.workerFenced
          s!"Worker '{workerId}' cannot mutate task '{taskId}' assigned to '{assigned}'.")
      else if row.leaseVersion ≠ expectedLeaseVersion then
        .error (.staleLeaseVersion
          s!"Task fencing lease version mismatch for '{taskId}'. Expected v{expectedLeaseVersion}, active is v{row.leaseVersion}.")
      else if row.state ≠ TaskState.running.value then
        .error (.invalidTaskState (notRunning row.state))
      else .ok row

/-- Source: `postgres_task_repository.py`, `complete_task`. Kind: D -/
def completeTask (taskId : String) (expectedLeaseVersion : ℤ) (workerId : String) (workerFencingToken : ℤ)
    (receiptId receiptFingerprint securityVerificationStatus : Option String) :
    Except TaskError (Database × RemediationTask) :=
  match db.mutableRow taskId expectedLeaseVersion workerId workerFencingToken
      fun state => s!"Task state '{state}' cannot be completed." with
  | .error e => .error e
  | .ok row =>
    let version := expectedLeaseVersion + 1
    db.commit sha256 draws taskId
      (completedRow row version receiptId receiptFingerprint securityVerificationStatus)
      (workerEntry taskId row .completed workerId workerFencingToken version "TASK_COMPLETED")
      (workerEvent taskId "TASK_COMPLETED" "completed" version)

/-- The dead letters with one more, whose task and identifier are unique; its columns hold it where those of
the task and of the report hold theirs.
Source: `postgres_task_repository.py`, `record_execution_failure`; `models.py`, `DeadLetterEventModel`
Kind: D -/
def bury (letter : DeadLetterRow) : Except TaskError Database :=
  if letter.taskId ∈ db.deadLetters.map DeadLetterRow.taskId then
    .error (.integrity "dead_letter_events.task_id")
  else if letter.eventId ∈ db.deadLetters.map DeadLetterRow.eventId then
    .error (.integrity "dead_letter_events.event_id")
  else .ok { db with deadLetters := db.deadLetters ++ [letter] }

/-- Source: `postgres_task_repository.py`, `record_execution_failure`. Kind: D -/
def recordExecutionFailure (taskId : String) (expectedLeaseVersion : ℤ) (workerId : String)
    (workerFencingToken : ℤ) (errorMessage : String) : Except TaskError (Database × RemediationTask) :=
  match db.mutableRow taskId expectedLeaseVersion workerId workerFencingToken
      fun state => s!"Task state '{state}' cannot record execution failure." with
  | .error e => .error e
  | .ok row =>
    let version := expectedLeaseVersion + 1
    if row.maxAttempts ≤ row.attempts then
      match db.bury (deadLetter draws taskId row workerId errorMessage) with
      | .error e => .error e
      | .ok db =>
        db.commit sha256 draws taskId (failedRow row version errorMessage)
          (workerEntry taskId row .failed workerId workerFencingToken version "TASK_FAILED")
          (workerEvent taskId "TASK_FAILED" "failure" version)
    else
      db.commit sha256 draws taskId (retriedRow row version errorMessage)
        (workerEntry taskId row .queued workerId workerFencingToken version "TASK_RETRIED")
        (workerEvent taskId "TASK_RETRIED" "transition" version)

/-- One call of the interface. Source: `postgres_task_repository.py`, `PostgresTaskRepository`. Kind: D -/
def call : TaskOp → Except TaskError (Database × RemediationTask)
  | .create task => db.createTask sha256 draws task
  | .update taskId args => db.updateTask sha256 draws taskId args
  | .transition taskId expectedLeaseVersion expectedStates newState args =>
    db.atomicTransition sha256 draws taskId expectedLeaseVersion expectedStates newState args
  | .assign taskId workerId => db.assignTask sha256 draws taskId workerId
  | .complete taskId expectedLeaseVersion workerId workerFencingToken receiptId receiptFingerprint
      securityVerificationStatus =>
      db.completeTask sha256 draws taskId expectedLeaseVersion workerId workerFencingToken receiptId
        receiptFingerprint securityVerificationStatus
  | .failure taskId expectedLeaseVersion workerId workerFencingToken errorMessage =>
    db.recordExecutionFailure sha256 draws taskId expectedLeaseVersion workerId workerFencingToken
      errorMessage

end

end Database

/-! ## Runs -/

/-- What happens to the tables: a call with what it draws, or another component writes a worker.
Source: `postgres_task_repository.py`; `postgres_worker_repository.py`
Kind: D -/
inductive RepositoryEvent
  | call (draws : Draws) (op : TaskOp)
  | worker (workerId : String) (row : WorkerRow)

/-- The tables after an event; a call that raises is rolled back.
Source: `db.py`, `session_scope`
Kind: D -/
def Database.step (sha256 : String → String) (db : Database) : RepositoryEvent → Database
  | .call draws op =>
    match db.call sha256 draws op with
    | .ok (db, _) => db
    | .error _ => db
  | .worker workerId row => { db with workers := db.workers.set workerId row }

end KarsaSec.Persistence
