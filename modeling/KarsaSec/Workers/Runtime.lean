import KarsaSec.Persistence.TaskRepository

/-!
# Worker nodes

`CustomWorkerRuntime`: what a worker node does with a task, as a program whose repository calls are single
steps, and several nodes that run it on one database.

* `Phase` is where a node stands: the call that comes next, with the variables that are read afterwards.
* `CustomWorkerRuntime.call` is the next repository call of `process_task` or `recover_stale_tasks`. It returns,
  fails without effect, or has its effect and fails all the same (`Fate`).
* A queue may hand out any task, list any tasks as being processed, and fail; the engine may return any receipt.
* `Cluster.step` interleaves the nodes with writes to the table of workers and with calls of other components
  that leave the lease version to the repository.
-/

namespace KarsaSec.Workers

open KarsaSec.Found KarsaSec.Events KarsaSec.Persistence

/-- `str(exc)`. Kind: D -/
def TaskError.text : TaskError → String
  | .value message => message
  | .attribute message => message
  | .staleLeaseVersion message => message
  | .invalidTaskState message => message
  | .workerFenced message => message
  | .invalidWorkerState message => message
  | .integrity constraint => constraint
  | .data table => table

/-! ## Calls -/

/-- How a repository call ends for the node that makes it. Kind: D -/
inductive Fate
  | returns
  | fails (message : String)
  | lost (message : String)
  deriving DecidableEq

namespace Fate

/-- The tables after a call, and what the node gets of it. Kind: D -/
def write (fate : Fate) (db : Database) (result : Except TaskError (Database × RemediationTask)) :
    Database × Except String RemediationTask :=
  match fate, result with
  | .returns, .ok (db', task) => (db', .ok task)
  | .returns, .error e => (db, .error e.text)
  | .fails message, _ => (db, .error message)
  | .lost message, .ok (db', _) => (db', .error message)
  | .lost message, .error _ => (db, .error message)

/-- What the node gets of a call that only reads. Kind: D -/
def read {α : Type} (fate : Fate) (result : Except TaskError α) : Except String α :=
  match fate, result with
  | .returns, .ok value => .ok value
  | .returns, .error e => .error e.text
  | .fails message, _ => .error message
  | .lost message, _ => .error message

end Fate

/-- Source: `postgres_task_repository.py`, `get_task`. Kind: D -/
def getTask (db : Database) (taskId : String) : Except TaskError (Option RemediationTask) :=
  match db.tasks.get? taskId with
  | none => .ok none
  | some row => (row.toDomain taskId).map some

/-! ## Nodes -/

/-- What the engine, the package and the receipt leave for the task.
Source: `worker.py`, `process_task`, `receipt`, `validation_result`
Kind: D -/
structure Receipt where
  receiptId : String
  receiptFingerprint : String
  securityVerificationStatus : String
  deriving DecidableEq

/-- Where a node stands. Source: `worker.py`, `process_task`, `recover_stale_tasks`. Kind: D -/
inductive Phase
  | idle
  /-- Before `get_task`. -/
  | fetching (taskId : String)
  /-- Before `assign_task`. -/
  | assigning (taskId : String) (task : RemediationTask)
  /-- After `assign_task` raised, before `update_task(state=RUNNING)`. -/
  | starting (taskId : String) (task : RemediationTask)
  /-- Before the engine. -/
  | executing (taskId : String) (task : RemediationTask)
  /-- Before `complete_task`. -/
  | completing (taskId : String) (task : RemediationTask) (receipt : Receipt)
  /-- After `complete_task` raised, before `update_task(state=COMPLETED, ...)`. -/
  | finishing (taskId : String) (task : RemediationTask) (receipt : Receipt)
  /-- Before `acknowledge`. -/
  | acknowledging (taskId : String) (task : RemediationTask)
  /-- Before `record_execution_failure`. -/
  | failing (taskId : String) (task : RemediationTask) (message : String)
  /-- In the loop over the tasks that are being processed, before `get_task`. -/
  | recovering (currentTime : ℚ) (processingIds : List String)
  /-- Before the `atomic_transition` of a task whose lease has expired. -/
  | requeueing (currentTime : ℚ) (taskId : String) (task : RemediationTask) (processingIds : List String)
  deriving DecidableEq

/-- What happens to a node: the queue hands out a task, the loop turns to stale tasks, the call that comes next
is made, the engine ends, or the task is acknowledged.
Source: `worker.py`, `start`, `process_task`, `recover_stale_tasks`
Kind: D -/
inductive Move
  | process (taskId : String)
  | recover (currentTime : ℚ) (processingIds : List String)
  | call (draws : Draws) (fate : Fate)
  | engine (result : Except String Receipt)
  | acknowledge (raised : Option String)

/-- Source: `worker.py`, `CustomWorkerRuntime.__init__`. Kind: D -/
structure CustomWorkerRuntime where
  workerId : String := "worker-default"
  fencingToken : ℤ := 1

/-- `state=RUNNING`. Source: `worker.py`, `process_task`. Kind: D -/
def runningArgs : TaskArgs := ⟨[.state .running], by decide⟩

/-- `state=COMPLETED` with the receipt. Source: `worker.py`, `process_task`. Kind: D -/
def completedArgs (receipt : Receipt) : TaskArgs where
  entries :=
    [.state .completed, .receiptId (some receipt.receiptId),
      .receiptFingerprint (some receipt.receiptFingerprint),
      .securityVerificationStatus (some receipt.securityVerificationStatus)]
  nodup := by
    show ["state", "receipt_id", "receipt_fingerprint", "security_verification_status"].Nodup
    decide

/-- `error_message="Lease expired"`. Source: `worker.py`, `recover_stale_tasks`. Kind: D -/
def expiredArgs : TaskArgs := ⟨[.errorMessage (some "Lease expired")], by decide⟩

/-- Source: `worker.py`, `recover_stale_tasks`, `target_state`. Kind: D -/
def targetState (task : RemediationTask) : TaskState :=
  if task.attempts < task.maxAttempts then .queued else .failed

/-- Where a node stands after a move without a repository call; one that does not fit changes nothing.
Source: `worker.py`, `start`, `process_task`
Kind: D -/
def Phase.next : Phase → Move → Phase
  | idle, .process taskId => fetching taskId
  | idle, .recover currentTime processingIds => recovering currentTime processingIds
  | executing taskId task, .engine (.ok receipt) => completing taskId task receipt
  | executing taskId task, .engine (.error message) => failing taskId task message
  | acknowledging _ _, .acknowledge none => idle
  | acknowledging taskId task, .acknowledge (some message) => failing taskId task message
  | phase, _ => phase

namespace CustomWorkerRuntime

variable (sha256 : String → String) (runtime : CustomWorkerRuntime) (db : Database)

/-- The repository call that comes next.
Source: `worker.py`, `process_task`, `recover_stale_tasks`
Kind: D -/
def call (draws : Draws) (fate : Fate) : Phase → Database × Phase
  | .fetching taskId =>
    match fate.read (getTask db taskId) with
    | .ok (some task) =>
      if task.state ∈ [TaskState.queued, TaskState.failedRetryable] then (db, .assigning taskId task)
      else (db, .idle)
    | _ => (db, .idle)
  | .assigning taskId task =>
    match fate.write db (db.assignTask sha256 draws taskId runtime.workerId) with
    | (db, .ok assigned) => (db, .executing taskId assigned)
    | (db, .error _) => (db, .starting taskId task)
  | .starting taskId task =>
    match fate.write db (db.updateTask sha256 draws taskId runningArgs) with
    | (db, .ok _) => (db, .executing taskId task)
    | (db, .error message) => (db, .failing taskId task message)
  | .completing taskId task receipt =>
    match fate.write db (db.completeTask sha256 draws taskId task.leaseVersion runtime.workerId
        runtime.fencingToken (some receipt.receiptId) (some receipt.receiptFingerprint)
        (some receipt.securityVerificationStatus)) with
    | (db, .ok _) => (db, .acknowledging taskId task)
    | (db, .error _) => (db, .finishing taskId task receipt)
  | .finishing taskId task receipt =>
    match fate.write db (db.updateTask sha256 draws taskId (completedArgs receipt)) with
    | (db, .ok _) => (db, .acknowledging taskId task)
    | (db, .error message) => (db, .failing taskId task message)
  | .failing taskId task message =>
    ((fate.write db (db.recordExecutionFailure sha256 draws taskId task.leaseVersion runtime.workerId
      runtime.fencingToken message)).1, .idle)
  | .recovering currentTime processingIds =>
    match processingIds with
    | [] => (db, .idle)
    | taskId :: processingIds =>
      match fate.read (getTask db taskId) with
      | .ok (some task) =>
        if task.state = .running ∧ task.isLeaseExpired currentTime then
          (db, .requeueing currentTime taskId task processingIds)
        else (db, .recovering currentTime processingIds)
      | .ok none => (db, .recovering currentTime processingIds)
      | .error _ => (db, .idle)
  | .requeueing currentTime taskId task processingIds =>
    ((fate.write db (db.atomicTransition sha256 draws taskId task.leaseVersion [.running]
      (targetState task) expiredArgs)).1, .recovering currentTime processingIds)
  | phase => (db, phase)

/-- A step of a node. Kind: D -/
def step (phase : Phase) : Move → Database × Phase
  | .call draws fate => runtime.call sha256 db draws fate phase
  | move => (db, phase.next move)

end CustomWorkerRuntime

/-! ## Clusters -/

/-- A call that leaves the lease version to the repository. Kind: D -/
def TaskOp.SetsNoVersion : TaskOp → Prop
  | .update _ args => args.leaseVersion? = none
  | .transition _ _ _ _ args => args.leaseVersion? = none
  | _ => True

/-- Nodes on one database. Kind: D -/
structure Cluster (ι : Type) where
  db : Database := {}
  phase : ι → Phase := fun _ => .idle

/-- An event of a cluster: a node moves, a worker row is written, or another component calls the repository.
Source: `worker.py`; `postgres_worker_repository.py`; `recovery.py`; `remediation_service.py`
Kind: D -/
inductive ClusterEvent (ι : Type)
  | node (i : ι) (move : Move)
  | worker (workerId : String) (row : WorkerRow)
  | other (draws : Draws) (op : TaskOp) (leaves : op.SetsNoVersion)

/-- One event, with the nodes that make up the cluster. Kind: D -/
def Cluster.step {ι : Type} [DecidableEq ι] (sha256 : String → String) (runtimes : ι → CustomWorkerRuntime)
    (cluster : Cluster ι) : ClusterEvent ι → Cluster ι
  | .node i move =>
    let (db, phase) := (runtimes i).step sha256 cluster.db (cluster.phase i) move
    { db := db, phase := Function.update cluster.phase i phase }
  | .worker workerId row => { cluster with db := cluster.db.step sha256 (.worker workerId row) }
  | .other draws op _ => { cluster with db := cluster.db.step sha256 (.call draws op) }

/-- The cluster after a run of events. Kind: D -/
def Cluster.run {ι : Type} [DecidableEq ι] (sha256 : String → String) (runtimes : ι → CustomWorkerRuntime)
    (start : Cluster ι) (events : List (ClusterEvent ι)) : Cluster ι :=
  events.foldl (Cluster.step sha256 runtimes) start

end KarsaSec.Workers
