import KarsaSec.Found.Runs
import KarsaSec.Persistence.Lifetimes
import Mathlib.Tactic.NormNum

/-!
# Draining workers

`PostgresWorkerRepository` with the operations of the task repository that read or write what it guards, and
`HeartbeatEngine` with its registry.

* `assign_task` reads the row of the worker without a lock, and commits later: `readWorker` and `finishAssign`.
* `DrainedIdle`: a DRAINED worker has no RUNNING task. `StaysOut`: a heartbeat or an evaluation brings no worker that
  was taken out back ONLINE.
* A task is assigned to a worker that was drained meanwhile: `assigned_after_drain`.
* `drain_respected_iff`: both hold in a run exactly when no assignment commits for a DRAINED worker, and no heartbeat
  or evaluation counts for one that was taken out.
-/

namespace KarsaSec.Workers

open KarsaSec.Found KarsaSec.Events KarsaSec.Persistence

/-! ## Workers -/

/-- Source: `worker_registry.py`, `WorkerStatus`. Kind: D -/
inductive WorkerStatus
  | online
  | draining
  | drained
  | fenced
  | degraded
  | offline
  deriving DecidableEq

/-- Source: `worker_registry.py`, `WorkerStatus`. Kind: D -/
def WorkerStatus.value : WorkerStatus → String
  | online => "ONLINE"
  | draining => "DRAINING"
  | drained => "DRAINED"
  | fenced => "FENCED"
  | degraded => "DEGRADED"
  | offline => "OFFLINE"

theorem WorkerStatus.value_injective : Function.Injective WorkerStatus.value := by
  intro a b h
  cases a <;> cases b <;> first | rfl | exact absurd h (by decide)

/-- A worker that was taken out. Kind: D -/
def takenOut : List String := ["DRAINING", "DRAINED", "FENCED"]

/-- The columns of a worker that only its own repository reads. Source: `models.py`, `WorkerModel`. Kind: D -/
structure WorkerIdentity where
  authTokenHash : String
  hostname : String
  heartbeatSequence : ℤ := 0
  lastHeartbeat : ℚ

/-- Source: `worker_registry.py`, `WorkerNode`. Kind: D -/
structure WorkerNode where
  hostname : String
  status : WorkerStatus := .online
  authTokenHash : String
  heartbeatSequence : ℤ := 0
  lastHeartbeat : ℚ

/-- The tables, the transactions of `assign_task` that have read the worker, and the registry in memory. A row of the
table of workers is split into what the task repository reads and what it does not.
Kind: D -/
structure Fleet (τ : Type) where
  db : Database := {}
  identities : Dict String WorkerIdentity := Dict.empty
  assigning : τ → Option (String × String × ℤ) := fun _ => none
  registry : Dict String WorkerNode := Dict.empty

/-! ## Assignment in two steps -/

/-- The part of `assign_task` after the worker was read.
Source: `postgres_task_repository.py`, `assign_task`
Kind: D -/
def assignRead (sha256 : String → String) (draws : Draws) (db : Database) (taskId workerId : String)
    (workerFencingToken : ℤ) : Except TaskError (Database × RemediationTask) :=
  match db.tasks.get? taskId with
  | none => .error (.value s!"Task with ID '{taskId}' not found")
  | some row =>
    if row.state ∈ terminalValues then
      .error (.invalidTaskState s!"Terminal state task '{taskId}' cannot be assigned.")
    else if row.maxAttempts ≤ row.attempts then
      .error (.invalidTaskState
        s!"Task '{taskId}' attempts exhausted ({row.attempts}/{row.maxAttempts}).")
    else if row.state ∉ [TaskState.queued.value, TaskState.pending.value] then
      .error (.invalidTaskState
        s!"Task state transition rejected for '{taskId}'. Current state '{row.state}' not in expected QUEUED/PENDING.")
    else
      let version := row.leaseVersion + 1
      db.commit sha256 draws taskId (assignedRow row workerId workerFencingToken)
        (workerEntry taskId row .running workerId workerFencingToken version "TASK_ASSIGNED")
        (workerEvent taskId "TASK_ASSIGNED" "assigned" version)

/-- Where nobody is in between, the two steps are `assign_task`. Kind: P -/
theorem assignTask_eq (sha256 : String → String) (draws : Draws) (db : Database) (taskId workerId : String) :
    db.assignTask sha256 draws taskId workerId =
      if db.workerStatus workerId ∈ ["DRAINING", "DRAINED", "FENCED", "OFFLINE"] then
        .error (.invalidWorkerState
          s!"Worker '{workerId}' status is '{db.workerStatus workerId}', expected ONLINE for assignment.")
      else assignRead sha256 draws db taskId workerId (db.workerToken workerId) := rfl

/-! ## The operations -/

/-- Source: `heartbeat.py`, `HeartbeatEngine`. Kind: D -/
def degradedThresholdSeconds : ℚ := 45

/-- Source: `heartbeat.py`, `HeartbeatEngine`. Kind: D -/
def offlineThresholdSeconds : ℚ := 90

/-- `auth_token or default`. Kind: D -/
def tokenOr (authToken : Option String) (default : String) : String :=
  match authToken with
  | none => default
  | some token => if token = "" then default else token

/-- The status that a worker gets by the age of its heartbeat. Source: `heartbeat.py`, `evaluate_workers`. Kind: D -/
def evaluateWorker (now : ℚ) (worker : WorkerNode) : WorkerNode :=
  let age := now - worker.lastHeartbeat
  if offlineThresholdSeconds < age then { worker with status := .offline }
  else if degradedThresholdSeconds < age then { worker with status := .degraded }
  else { worker with status := .online }

namespace Fleet

variable {τ : Type} [DecidableEq τ] (sha256 : String → String) (fleet : Fleet τ)

/-- A worker row with another status. Kind: D -/
def setStatus (workerId : String) (row : WorkerRow) (status : WorkerStatus) : Fleet τ :=
  { fleet with db :=
      { fleet.db with workers := fleet.db.workers.set workerId { row with status := status.value } } }

/-- Source: `postgres_worker_repository.py`, `register_worker`. Kind: D -/
def registerWorker (workerId authToken hostname : String) (now : ℚ) : Fleet τ × Option TaskError :=
  let tokenHash := sha256 authToken
  match fleet.db.workers.get? workerId, fleet.identities.get? workerId with
  | some row, some identity =>
    if identity.authTokenHash ≠ tokenHash then
      (fleet, some (.value s!"Worker '{workerId}' already registered with conflicting credentials."))
    else
      ({ fleet.setStatus workerId row .online with
          identities :=
            fleet.identities.set workerId { identity with hostname := hostname, lastHeartbeat := now } }, none)
  | _, _ =>
    ({ fleet.setStatus workerId {} .online with
        identities := fleet.identities.set workerId ⟨tokenHash, hostname, 0, now⟩ }, none)

/-- Source: `postgres_worker_repository.py`, `heartbeat`. Kind: D -/
def heartbeat (workerId : String) (sequence : ℤ) (authToken : Option String) (now : ℚ) :
    Fleet τ × Option TaskError :=
  match fleet.db.workers.get? workerId, fleet.identities.get? workerId with
  | some row, some identity =>
    if identity.heartbeatSequence < sequence ∧
        identity.authTokenHash = sha256 (tokenOr authToken "secret-worker-token") then
      ({ fleet.setStatus workerId row .online with
          identities := fleet.identities.set workerId
            { identity with heartbeatSequence := sequence, lastHeartbeat := now } }, none)
    else if identity.authTokenHash ≠ sha256 (tokenOr authToken "secret-worker-token") then
      (fleet, some (.value s!"Unauthenticated/invalid auth token provided for worker '{workerId}'."))
    else
      (fleet, some (.value
        s!"Stale/replayed heartbeat sequence {sequence} rejected for '{workerId}' (current is {identity.heartbeatSequence})."))
  | _, _ => (fleet, some (.value s!"Worker '{workerId}' is not registered."))

/-- Source: `postgres_worker_repository.py`, `mark_offline`. Kind: D -/
def markOffline (workerId : String) : Fleet τ :=
  match fleet.db.workers.get? workerId with
  | some row => fleet.setStatus workerId row .offline
  | none => fleet

/-- Source: `postgres_worker_repository.py`, `mark_draining`. Kind: D -/
def markDraining (workerId : String) : Fleet τ :=
  match fleet.db.workers.get? workerId with
  | some row => if row.status = WorkerStatus.online.value then fleet.setStatus workerId row .draining else fleet
  | none => fleet

/-- Whether a worker has a running task. Source: `postgres_worker_repository.py`, `active_count`. Kind: D -/
def active (db : Database) (workerId : String) : Bool :=
  db.tasks.values.any fun task => task.assignedWorkerId = some workerId ∧ task.state = "RUNNING"

/-- Source: `postgres_worker_repository.py`, `mark_drained`. Kind: D -/
def markDrained (workerId : String) : Fleet τ × Bool :=
  match fleet.db.workers.get? workerId with
  | none => (fleet, false)
  | some row =>
    if row.status ≠ WorkerStatus.draining.value then (fleet, false)
    else if active fleet.db workerId then (fleet, false)
    else (fleet.setStatus workerId row .drained, true)

/-- Source: `postgres_worker_repository.py`, `mark_fenced`. Kind: D -/
def markFenced (workerId : String) : Fleet τ :=
  match fleet.db.workers.get? workerId with
  | some row =>
    if row.status ∈ [WorkerStatus.draining.value, WorkerStatus.online.value] then
      fleet.setStatus workerId { row with fencingToken := row.fencingToken + 1 } .fenced
    else fleet
  | none => fleet

/-- The first statement of `assign_task`, whose worker is not locked.
Source: `postgres_task_repository.py`, `assign_task`
Kind: D -/
def readWorker (t : τ) (taskId workerId : String) : Fleet τ :=
  if fleet.db.workerStatus workerId ∈ ["DRAINING", "DRAINED", "FENCED", "OFFLINE"] then
    { fleet with assigning := Function.update fleet.assigning t none }
  else
    { fleet with
      assigning := Function.update fleet.assigning t (some (taskId, workerId, fleet.db.workerToken workerId)) }

/-- The rest of `assign_task`, up to its commit or its rollback.
Source: `postgres_task_repository.py`, `assign_task`
Kind: D -/
def finishAssign (t : τ) (draws : Draws) : Fleet τ :=
  match fleet.assigning t with
  | none => fleet
  | some (taskId, workerId, token) =>
    let fleet := { fleet with assigning := Function.update fleet.assigning t none }
    match assignRead sha256 draws fleet.db taskId workerId token with
    | .ok (db, _) => { fleet with db := db }
    | .error _ => fleet

/-- Source: `worker_registry.py`, `WorkerRegistry.register`. Kind: D -/
def registryRegister (workerId hostname : String) (authToken : Option String) (now : ℚ) : Fleet τ :=
  let tokenHash := sha256 (tokenOr authToken s!"worker_secret_{workerId}")
  match fleet.registry.get? workerId with
  | some worker =>
    if worker.authTokenHash ≠ tokenHash then fleet
    else { fleet with
      registry := fleet.registry.set workerId { worker with status := .online, lastHeartbeat := now } }
  | none => { fleet with
      registry := fleet.registry.set workerId
        { hostname := hostname, authTokenHash := tokenHash, lastHeartbeat := now } }

/-- Source: `worker_registry.py`, `WorkerRegistry.heartbeat`. Kind: D -/
def registryHeartbeat (workerId : String) (authToken : Option String) (sequence : Option ℤ) (now : ℚ) :
    Fleet τ × Bool :=
  match fleet.registry.get? workerId with
  | none => (fleet, false)
  | some worker =>
    if worker.authTokenHash ≠ sha256 (tokenOr authToken s!"worker_secret_{workerId}") then (fleet, false)
    else if ∃ n ∈ sequence, n ≤ worker.heartbeatSequence then (fleet, false)
    else
      let worker := { worker with
        status := .online
        lastHeartbeat := now
        heartbeatSequence := sequence.getD worker.heartbeatSequence }
      ({ fleet with registry := fleet.registry.set workerId worker }, true)

/-- Source: `worker_registry.py`, `WorkerRegistry.mark_offline`. Kind: D -/
def registryMarkOffline (workerId : String) : Fleet τ :=
  match fleet.registry.get? workerId with
  | some worker => { fleet with registry := fleet.registry.set workerId { worker with status := .offline } }
  | none => fleet

/-- The number returned is that of the statuses that change. Source: `heartbeat.py`, `evaluate_workers`. Kind: D -/
def evaluateWorkers (now : ℚ) : Fleet τ × ℕ :=
  ({ fleet with registry := fleet.registry.mapValues (evaluateWorker now) },
    fleet.registry.values.countP fun worker => (evaluateWorker now worker).status ≠ worker.status)

end Fleet

/-! ## Runs -/

/-- A call, or a step of `assign_task`. Kind: D -/
inductive FleetEvent (τ : Type)
  | register (workerId authToken hostname : String) (now : ℚ)
  | heartbeat (workerId : String) (sequence : ℤ) (authToken : Option String) (now : ℚ)
  | markOffline (workerId : String)
  | markDraining (workerId : String)
  | markDrained (workerId : String)
  | markFenced (workerId : String)
  | readWorker (t : τ) (taskId workerId : String)
  | finishAssign (t : τ) (draws : Draws)
  | complete (draws : Draws) (taskId : String) (expectedLeaseVersion : ℤ) (workerId : String)
      (workerFencingToken : ℤ) (receiptId receiptFingerprint securityVerificationStatus : Option String)
  | failure (draws : Draws) (taskId : String) (expectedLeaseVersion : ℤ) (workerId : String)
      (workerFencingToken : ℤ) (errorMessage : String)
  | registryRegister (workerId hostname : String) (authToken : Option String) (now : ℚ)
  | registryHeartbeat (workerId : String) (authToken : Option String) (sequence : Option ℤ) (now : ℚ)
  | registryMarkOffline (workerId : String)
  | evaluateWorkers (now : ℚ)

/-- Kind: D -/
def Fleet.step {τ : Type} [DecidableEq τ] (sha256 : String → String) (fleet : Fleet τ) : FleetEvent τ → Fleet τ
  | .register workerId authToken hostname now => (fleet.registerWorker sha256 workerId authToken hostname now).1
  | .heartbeat workerId sequence authToken now => (fleet.heartbeat sha256 workerId sequence authToken now).1
  | .markOffline workerId => fleet.markOffline workerId
  | .markDraining workerId => fleet.markDraining workerId
  | .markDrained workerId => (fleet.markDrained workerId).1
  | .markFenced workerId => fleet.markFenced workerId
  | .readWorker t taskId workerId => fleet.readWorker t taskId workerId
  | .finishAssign t draws => fleet.finishAssign sha256 t draws
  | .complete draws taskId expected workerId token receiptId receiptFingerprint status =>
    let op := TaskOp.complete taskId expected workerId token receiptId receiptFingerprint status
    { fleet with db := fleet.db.step sha256 (.call draws op) }
  | .failure draws taskId expected workerId token message =>
    { fleet with db := fleet.db.step sha256 (.call draws (.failure taskId expected workerId token message)) }
  | .registryRegister workerId hostname authToken now =>
    fleet.registryRegister sha256 workerId hostname authToken now
  | .registryHeartbeat workerId authToken sequence now =>
    (fleet.registryHeartbeat sha256 workerId authToken sequence now).1
  | .registryMarkOffline workerId => fleet.registryMarkOffline workerId
  | .evaluateWorkers now => (fleet.evaluateWorkers now).1

/-! ## What is expected -/

/-- A DRAINED worker has no RUNNING task. Kind: D -/
def DrainedIdle (db : Database) : Prop :=
  ∀ workerId row, db.workers.get? workerId = some row → row.status = "DRAINED" →
    ∀ taskId task, db.tasks.get? taskId = some task → task.assignedWorkerId = some workerId → task.state ≠ "RUNNING"

/-- No worker that was taken out is back ONLINE, in the table or in the registry. Kind: D -/
def StaysOut {τ : Type} (fleet fleet' : Fleet τ) : Prop :=
  (∀ workerId row row', fleet.db.workers.get? workerId = some row → row.status ∈ takenOut →
    fleet'.db.workers.get? workerId = some row' → row'.status ≠ "ONLINE") ∧
  ∀ workerId node node', fleet.registry.get? workerId = some node → node.status.value ∈ takenOut →
    fleet'.registry.get? workerId = some node' → node'.status ≠ .online

/-- A heartbeat or an evaluation of health. Kind: D -/
def FleetEvent.OfHealth {τ : Type} : FleetEvent τ → Prop
  | .heartbeat .. | .registryHeartbeat .. | .evaluateWorkers _ => True
  | _ => False

/-- An assignment that commits is not for a DRAINED worker. Kind: D -/
def CommitsInTime {τ : Type} (sha256 : String → String) (fleet : Fleet τ) : FleetEvent τ → Prop
  | .finishAssign t draws => ∀ taskId workerId token, fleet.assigning t = some (taskId, workerId, token) →
      (∃ result, assignRead sha256 draws fleet.db taskId workerId token = .ok result) →
        ∀ row, fleet.db.workers.get? workerId = some row → row.status ≠ "DRAINED"
  | _ => True

/-- A heartbeat that is accepted, or an evaluation that finds it fresh, is not of a worker that was taken out.
Kind: D -/
def CountsForActive {τ : Type} (sha256 : String → String) (fleet : Fleet τ) : FleetEvent τ → Prop
  | .heartbeat workerId sequence authToken _ => ∀ row identity, fleet.db.workers.get? workerId = some row →
      fleet.identities.get? workerId = some identity → identity.heartbeatSequence < sequence →
        identity.authTokenHash = sha256 (tokenOr authToken "secret-worker-token") → row.status ∉ takenOut
  | .registryHeartbeat workerId authToken sequence _ => ∀ node, fleet.registry.get? workerId = some node →
      node.authTokenHash = sha256 (tokenOr authToken s!"worker_secret_{workerId}") →
        (∀ n ∈ sequence, node.heartbeatSequence < n) → node.status.value ∉ takenOut
  | .evaluateWorkers now => ∀ workerId node, fleet.registry.get? workerId = some node →
      now - node.lastHeartbeat ≤ degradedThresholdSeconds → node.status.value ∉ takenOut
  | _ => True

/-! ## DRAINED workers -/

section

variable {τ : Type} [DecidableEq τ] {sha256 : String → String} {fleet : Fleet τ}

theorem active_iff {db : Database} {workerId : String} :
    Fleet.active db workerId = true ↔ ∃ taskId task, db.tasks.get? taskId = some task ∧
      task.assignedWorkerId = some workerId ∧ task.state = "RUNNING" := by
  unfold Fleet.active
  rw [List.any_eq_true]
  constructor
  · rintro ⟨task, htask, hrunning⟩
    obtain ⟨taskId, hfound⟩ := Dict.mem_values.mp htask
    exact ⟨taskId, task, hfound, of_decide_eq_true hrunning⟩
  · grind [Dict.mem_values]

omit [DecidableEq τ] in
/-- A new status, which is DRAINED only for a worker without a running task. Kind: L -/
theorem DrainedIdle.setStatus (h : DrainedIdle fleet.db) {workerId : String} {row : WorkerRow}
    {status : WorkerStatus} (hstatus : status = .drained → Fleet.active fleet.db workerId = false) :
    DrainedIdle (fleet.setStatus workerId row status).db := by
  intro other row' hrow' hdrained taskId task htask hassigned hrunning
  rcases get?_set_cases hrow' with ⟨rfl, rfl⟩ | ⟨_, hother⟩
  · have hvalue : status.value = WorkerStatus.drained.value := hdrained
    have hstatus' : status = .drained := WorkerStatus.value_injective hvalue
    have hactive : Fleet.active fleet.db other = true := active_iff.mpr ⟨taskId, task, htask, hassigned, hrunning⟩
    rw [hstatus hstatus'] at hactive
    cases hactive
  · exact h other row' hother hdrained taskId task htask hassigned hrunning

/-- A task that does not run now. Kind: L -/
theorem DrainedIdle.stopped {db db' : Database} (h : DrainedIdle db) {taskId : String} {row : TaskRow}
    (hworkers : db'.workers = db.workers) (htasks : db'.tasks = db.tasks.set taskId row)
    (hstopped : row.state ≠ "RUNNING") : DrainedIdle db' := by
  intro workerId worker hworker hdrained other task htask hassigned
  rw [hworkers] at hworker
  rw [htasks] at htask
  rcases get?_set_cases htask with ⟨_, rfl⟩ | ⟨_, hother⟩
  · exact hstopped
  · exact h workerId worker hworker hdrained other task hother hassigned

/-- The calls with which a worker ends a task. Kind: L -/
theorem DrainedIdle.ended {db : Database} (h : DrainedIdle db) {draws : Draws} {op : TaskOp}
    (hop : (∃ taskId expected workerId token receiptId receiptFingerprint status,
        op = .complete taskId expected workerId token receiptId receiptFingerprint status) ∨
      ∃ taskId expected workerId token message, op = .failure taskId expected workerId token message) :
    DrainedIdle (db.step sha256 (.call draws op)) := by
  rcases Database.step_cases sha256 db (.call draws op) with heq | ⟨_, _, taskId, before, row, entry, staged, heq,
    hmoves, hrecorded⟩ | ⟨_, taskId, args, row, row', heq, _⟩ | ⟨_, _, heq, _⟩
  · rw [heq]
    exact h
  · cases heq
    refine h.stopped hrecorded.workers hrecorded.tasks ?_
    cases hmoves with
    | complete receiptId receiptFingerprint status hmay => exact show TaskState.completed.value ≠ "RUNNING" by decide
    | fail message hmay => exact show TaskState.failed.value ≠ "RUNNING" by decide
    | retry message hmay => exact show TaskState.queued.value ≠ "RUNNING" by decide
    | create task hnew => rcases hop with ⟨_, _, _, _, _, _, _, hop⟩ | ⟨_, _, _, _, _, hop⟩ <;> cases hop
    | transition htransition =>
      rcases hop with ⟨_, _, _, _, _, _, _, rfl⟩ | ⟨_, _, _, _, _, rfl⟩ <;>
        rcases htransition with htransition | ⟨_, _, htransition, _⟩ <;> cases htransition
    | assign workerId => rcases hop with ⟨_, _, _, _, _, _, _, hop⟩ | ⟨_, _, _, _, _, hop⟩ <;> cases hop
  · simp_all
  · cases heq

theorem assignRead_ok {db db' : Database} {draws : Draws} {taskId workerId : String} {token : ℤ}
    {task : RemediationTask} (h : assignRead sha256 draws db taskId workerId token = .ok (db', task)) :
    ∃ row, db'.workers = db.workers ∧ db'.tasks = db.tasks.set taskId (assignedRow row workerId token) := by
  unfold assignRead at h
  split at h
  · cases h
  · rename_i row hfound
    split at h
    · cases h
    · split at h
      · cases h
      · split at h
        · cases h
        · obtain ⟨hrecorded, _⟩ := Database.commit_ok h
          exact ⟨row, hrecorded.workers, hrecorded.tasks⟩

/-- An assignment that commits leaves its worker with a running task. Kind: L -/
theorem finishAssign_iff (h : DrainedIdle fleet.db) (t : τ) (draws : Draws) :
    DrainedIdle (fleet.finishAssign sha256 t draws).db ↔ CommitsInTime sha256 fleet (.finishAssign t draws) := by
  unfold Fleet.finishAssign CommitsInTime
  rcases hassigning : fleet.assigning t with _ | ⟨taskId, workerId, token⟩
  · refine ⟨fun _ taskId workerId token hsome => ?_, fun _ => h⟩
    rw [hassigning] at hsome
    cases hsome
  · dsimp only
    rcases hread : assignRead sha256 draws fleet.db taskId workerId token with e | ⟨db', task⟩
    · refine ⟨fun _ taskId' workerId' token' hsome hok => ?_, fun _ => h⟩
      rw [hassigning] at hsome
      cases hsome
      obtain ⟨result, hresult⟩ := hok
      rw [hread] at hresult
      cases hresult
    · obtain ⟨row, hworkers, htasks⟩ := assignRead_ok hread
      dsimp only
      constructor
      · intro hidle taskId' workerId' token' hsome _ worker hworker hdrained
        rw [hassigning] at hsome
        cases hsome
        have hfound : db'.tasks.get? taskId = some (assignedRow row workerId token) := by
          rw [htasks]
          exact Dict.get?_set_self _ _ _
        exact hidle workerId worker (hworkers ▸ hworker) hdrained taskId _ hfound rfl rfl
      · intro hintime other worker hworker hdrained taskId' task' htask' hassigned
        rw [hworkers] at hworker
        rw [htasks] at htask'
        rcases get?_set_cases htask' with ⟨_, rfl⟩ | ⟨_, hother⟩
        · cases hassigned
          exact absurd hdrained (hintime taskId workerId token hassigning ⟨_, hread⟩ worker hworker)
        · exact h other worker hworker hdrained taskId' task' hother hassigned

theorem drainedIdle_step (h : DrainedIdle fleet.db) (event : FleetEvent τ) :
    DrainedIdle (fleet.step sha256 event).db ↔ CommitsInTime sha256 fleet event := by
  cases event with
  | finishAssign t draws => exact finishAssign_iff h t draws
  | register workerId authToken hostname now =>
    refine iff_of_true ?_ trivial
    show DrainedIdle (fleet.registerWorker sha256 workerId authToken hostname now).1.db
    unfold Fleet.registerWorker
    dsimp only
    split
    · split
      · exact h
      · exact h.setStatus fun hdrained => by cases hdrained
    · exact h.setStatus fun hdrained => by cases hdrained
  | heartbeat workerId sequence authToken now =>
    refine iff_of_true ?_ trivial
    show DrainedIdle (fleet.heartbeat sha256 workerId sequence authToken now).1.db
    unfold Fleet.heartbeat
    split
    · split
      · exact h.setStatus fun hdrained => by cases hdrained
      · split <;> exact h
    · exact h
  | markOffline workerId =>
    refine iff_of_true ?_ trivial
    show DrainedIdle (fleet.markOffline workerId).db
    unfold Fleet.markOffline
    split
    · exact h.setStatus fun hdrained => by cases hdrained
    · exact h
  | markDraining workerId =>
    refine iff_of_true ?_ trivial
    show DrainedIdle (fleet.markDraining workerId).db
    unfold Fleet.markDraining
    split
    · split
      · exact h.setStatus fun hdrained => by cases hdrained
      · exact h
    · exact h
  | markDrained workerId =>
    refine iff_of_true ?_ trivial
    show DrainedIdle (fleet.markDrained workerId).1.db
    unfold Fleet.markDrained
    split
    · exact h
    · split
      · exact h
      · split
        · exact h
        · rename_i hidle
          exact h.setStatus fun _ => Bool.eq_false_iff.mpr hidle
  | markFenced workerId =>
    refine iff_of_true ?_ trivial
    show DrainedIdle (fleet.markFenced workerId).db
    unfold Fleet.markFenced
    split
    · split
      · exact h.setStatus fun hdrained => by cases hdrained
      · exact h
    · exact h
  | readWorker t taskId workerId =>
    refine iff_of_true ?_ trivial
    show DrainedIdle (fleet.readWorker t taskId workerId).db
    unfold Fleet.readWorker
    split <;> exact h
  | complete draws taskId expected workerId token receiptId receiptFingerprint status =>
    exact iff_of_true (h.ended (Or.inl ⟨taskId, expected, workerId, token, receiptId, receiptFingerprint, status,
      rfl⟩)) trivial
  | failure draws taskId expected workerId token message =>
    exact iff_of_true (h.ended (Or.inr ⟨taskId, expected, workerId, token, message, rfl⟩)) trivial
  | registryRegister workerId hostname authToken now =>
    refine iff_of_true ?_ trivial
    show DrainedIdle (fleet.registryRegister sha256 workerId hostname authToken now).db
    unfold Fleet.registryRegister
    dsimp only
    split
    · split <;> exact h
    · exact h
  | registryHeartbeat workerId authToken sequence now =>
    refine iff_of_true ?_ trivial
    show DrainedIdle (fleet.registryHeartbeat sha256 workerId authToken sequence now).1.db
    unfold Fleet.registryHeartbeat
    split
    · exact h
    · split
      · exact h
      · split <;> exact h
  | registryMarkOffline workerId =>
    refine iff_of_true ?_ trivial
    show DrainedIdle (fleet.registryMarkOffline workerId).db
    unfold Fleet.registryMarkOffline
    split <;> exact h
  | evaluateWorkers now => exact iff_of_true h trivial

/-! ## Heartbeats and evaluations -/

theorem not_online_of_takenOut {status : String} (h : status ∈ takenOut) : status ≠ "ONLINE" := by
  rintro rfl
  exact absurd h (by decide)

/-- One new row in the table of workers. Kind: L -/
theorem table_stays_iff {workers : Dict String WorkerRow} {workerId : String} {old new : WorkerRow}
    (hold : workers.get? workerId = some old) (hnew : new.status = "ONLINE") :
    (∀ other row row', workers.get? other = some row → row.status ∈ takenOut →
      (workers.set workerId new).get? other = some row' → row'.status ≠ "ONLINE") ↔ old.status ∉ takenOut := by
  constructor
  · grind [Dict.get?_set_self]
  · intro h other row row' hrow hout hrow'
    rcases get?_set_cases hrow' with ⟨rfl, rfl⟩ | ⟨_, hother⟩
    · cases hold.symm.trans hrow
      exact absurd hout h
    · cases hrow.symm.trans hother
      exact not_online_of_takenOut hout

theorem table_stays (workers : Dict String WorkerRow) : ∀ other row row', workers.get? other = some row →
    row.status ∈ takenOut → workers.get? other = some row' → row'.status ≠ "ONLINE" := by
  intro other row row' hrow hout hrow'
  cases hrow.symm.trans hrow'
  exact not_online_of_takenOut hout

theorem node_not_online {node : WorkerNode} (h : node.status.value ∈ takenOut) : node.status ≠ .online :=
  fun honline => not_online_of_takenOut h (congrArg WorkerStatus.value honline)

theorem registry_stays (registry : Dict String WorkerNode) : ∀ other node node', registry.get? other = some node →
    node.status.value ∈ takenOut → registry.get? other = some node' → node'.status ≠ .online := by
  intro other node node' hnode hout hnode'
  cases hnode.symm.trans hnode'
  exact node_not_online hout

omit [DecidableEq τ] in
theorem heartbeat_iff (workerId : String) (sequence : ℤ) (authToken : Option String) (now : ℚ) :
    StaysOut fleet (fleet.heartbeat sha256 workerId sequence authToken now).1 ↔
      CountsForActive sha256 fleet (.heartbeat workerId sequence authToken now) := by
  unfold Fleet.heartbeat CountsForActive
  rcases hrow : fleet.db.workers.get? workerId with _ | row
  · refine iff_of_true ⟨table_stays _, registry_stays _⟩ fun row identity hsome => ?_
    cases hrow.symm.trans hsome
  · rcases hidentity : fleet.identities.get? workerId with _ | identity
    · refine iff_of_true ⟨table_stays _, registry_stays _⟩ fun row identity _ hsome => ?_
      cases hidentity.symm.trans hsome
    · dsimp only
      by_cases haccepted : identity.heartbeatSequence < sequence ∧
          identity.authTokenHash = sha256 (tokenOr authToken "secret-worker-token")
      · rw [if_pos haccepted]
        constructor
        · rintro ⟨htable, _⟩ row' identity' hsome _ _ _
          cases hrow.symm.trans hsome
          exact (table_stays_iff hrow rfl).mp htable
        · intro h
          exact ⟨(table_stays_iff hrow rfl).mpr (h row identity hrow hidentity haccepted.1 haccepted.2), registry_stays _⟩
      · rw [if_neg haccepted]
        refine iff_of_true ?_ fun row' identity' _ hsome hsequence htoken => ?_
        · split <;> exact ⟨table_stays _, registry_stays _⟩
        · simp_all

omit [DecidableEq τ] in
theorem registryHeartbeat_iff (workerId : String) (authToken : Option String) (sequence : Option ℤ) (now : ℚ) :
    StaysOut fleet (fleet.registryHeartbeat sha256 workerId authToken sequence now).1 ↔
      CountsForActive sha256 fleet (.registryHeartbeat workerId authToken sequence now) := by
  unfold Fleet.registryHeartbeat CountsForActive
  rcases hnode : fleet.registry.get? workerId with _ | node
  · refine iff_of_true ⟨table_stays _, registry_stays _⟩ fun node hsome => ?_
    cases hnode.symm.trans hsome
  · dsimp only
    by_cases htoken : node.authTokenHash = sha256 (tokenOr authToken s!"worker_secret_{workerId}")
    · rw [if_neg (not_not.mpr htoken)]
      by_cases hreplayed : ∃ n ∈ sequence, n ≤ node.heartbeatSequence
      · rw [if_pos hreplayed]
        refine iff_of_true ⟨table_stays _, registry_stays _⟩ fun node' hsome _ hfresh => ?_
        cases hnode.symm.trans hsome
        obtain ⟨n, hn, hle⟩ := hreplayed
        exact absurd (hfresh n hn) (not_lt.mpr hle)
      · rw [if_neg hreplayed]
        constructor
        · rintro ⟨_, hregistry⟩ node' hsome _ _ hout
          cases hnode.symm.trans hsome
          exact hregistry workerId node _ hnode hout (Dict.get?_set_self _ _ _) rfl
        · intro h
          have hactive := h node hnode htoken fun n hn => not_le.mp fun hle => hreplayed ⟨n, hn, hle⟩
          refine ⟨table_stays _, fun other old new hold hout hnew => ?_⟩
          rcases get?_set_cases hnew with ⟨rfl, _⟩ | ⟨_, hother⟩
          · cases hnode.symm.trans hold
            exact absurd hout hactive
          · cases hold.symm.trans hother
            exact node_not_online hout
    · rw [if_pos htoken]
      refine iff_of_true ⟨table_stays _, registry_stays _⟩ fun node' hsome htoken' => ?_
      cases hnode.symm.trans hsome
      exact absurd htoken' htoken

/-- An evaluation brings a worker ONLINE whose heartbeat is fresh. Kind: L -/
theorem evaluateWorker_online_iff {now : ℚ} {node : WorkerNode} :
    (evaluateWorker now node).status = .online ↔ now - node.lastHeartbeat ≤ degradedThresholdSeconds := by
  unfold evaluateWorker
  dsimp only
  have hthresholds : degradedThresholdSeconds < offlineThresholdSeconds := by
    unfold degradedThresholdSeconds offlineThresholdSeconds
    norm_num
  split
  · grind
  · grind

omit [DecidableEq τ] in
theorem evaluateWorkers_iff (now : ℚ) :
    StaysOut fleet (fleet.evaluateWorkers now).1 ↔ CountsForActive sha256 fleet (.evaluateWorkers now) := by
  have hafter : ∀ workerId node, fleet.registry.get? workerId = some node →
      (fleet.evaluateWorkers now).1.registry.get? workerId = some (evaluateWorker now node) := by
    intro workerId node hnode
    exact (Dict.get?_mapValues _ _ _).trans (congrArg (Option.map (evaluateWorker now)) hnode)
  constructor
  · rintro ⟨_, hregistry⟩ workerId node hnode hfresh hout
    exact hregistry workerId node _ hnode hout (hafter workerId node hnode) (evaluateWorker_online_iff.mpr hfresh)
  · intro h
    refine ⟨table_stays _, fun workerId node node' hnode hout hnode' honline => ?_⟩
    cases (hafter workerId node hnode).symm.trans hnode'
    exact h workerId node hnode (evaluateWorker_online_iff.mp honline) hout

theorem staysOut_step (event : FleetEvent τ) :
    (event.OfHealth → StaysOut fleet (fleet.step sha256 event)) ↔ CountsForActive sha256 fleet event := by
  cases event with
  | heartbeat workerId sequence authToken now =>
    exact (forall_prop_of_true trivial).trans (heartbeat_iff workerId sequence authToken now)
  | registryHeartbeat workerId authToken sequence now =>
    exact (forall_prop_of_true trivial).trans (registryHeartbeat_iff workerId authToken sequence now)
  | evaluateWorkers now => exact (forall_prop_of_true trivial).trans (evaluateWorkers_iff now)
  | _ => exact iff_of_true False.elim trivial

/-- Source: `postgres_worker_repository.py`; `postgres_task_repository.py`, `assign_task`; `heartbeat.py`. In every
interleaving, DRAINED workers stay without running tasks and no worker that was taken out comes back by its health,
exactly when no assignment commits for a DRAINED worker and no heartbeat counts for one that was taken out.
Kind: T -/
theorem drain_respected_iff (sha256 : String → String) (start : Fleet τ) (hstart : DrainedIdle start.db)
    (events : List (FleetEvent τ)) :
    ((∀ fleet ∈ reached (Fleet.step sha256) start events, DrainedIdle fleet.db) ∧
        Along (Fleet.step sha256) (fun fleet event => event.OfHealth → StaysOut fleet (fleet.step sha256 event)) start
          events) ↔
      Along (Fleet.step sha256) (fun fleet event => CommitsInTime sha256 fleet event ∧
        CountsForActive sha256 fleet event) start events := by
  have hidle : (∀ fleet ∈ reached (Fleet.step sha256) start events, DrainedIdle fleet.db) ↔
      Along (Fleet.step sha256) (CommitsInTime sha256) start events :=
    forall_reached_iff (I := fun _ => True) (J := fun fleet : Fleet τ => DrainedIdle fleet.db) (fun _ _ _ => trivial)
      (fun _ event _ hidle => drainedIdle_step hidle event) trivial hstart events
  rw [hidle, along_and]
  exact and_congr_right fun _ => along_congr fun _ event => staysOut_step event

end

/-- A queued task and no worker. Kind: D -/
def queuedFleet : Fleet Unit := { db := { tasks := Dict.empty.set "t" (TaskRow.ofTask queuedTask) } }

theorem drainedIdle_queuedFleet : DrainedIdle queuedFleet.db := by
  intro workerId row hrow
  cases hrow

/-- A worker gets a task, and is not DRAINED while it runs. -/
theorem drain_respected_iff_assigned :
    (∀ fleet ∈ reached (Fleet.step id) queuedFleet [.register "w" "secret-worker-token" "h" 0, .readWorker () "t" "w",
        .heartbeat "w" 1 none 1, .finishAssign () (drawsAt 0), .markDraining "w", .markDrained "w"],
      DrainedIdle fleet.db) ∧
    Along (Fleet.step id) (fun fleet event => event.OfHealth → StaysOut fleet (fleet.step id event)) queuedFleet
      [.register "w" "secret-worker-token" "h" 0, .readWorker () "t" "w", .heartbeat "w" 1 none 1,
        .finishAssign () (drawsAt 0), .markDraining "w", .markDrained "w"] := by
  refine (drain_respected_iff id queuedFleet drainedIdle_queuedFleet _).mpr ⟨⟨trivial, trivial⟩, ⟨trivial, trivial⟩,
    ⟨trivial, ?_⟩, ⟨?_, trivial⟩, ⟨trivial, trivial⟩, ⟨trivial, trivial⟩, trivial⟩
  · rintro row identity hrow _ _ _
    cases hrow
    exact show "ONLINE" ∉ takenOut by decide
  · rintro taskId workerId token hassigning _ row hrow
    cases hassigning
    cases hrow
    exact show "ONLINE" ≠ "DRAINED" by decide

/-- A worker is drained after `assign_task` has read it. Kind: D -/
def drainedMeanwhile : List (FleetEvent Unit) :=
  [.register "w" "secret-worker-token" "h" 0, .readWorker () "t" "w", .markDraining "w", .markDrained "w",
    .finishAssign () (drawsAt 0)]

/-- The DRAINED worker has a RUNNING task. -/
theorem assigned_after_drain : ¬ ∀ fleet ∈ reached (Fleet.step id) queuedFleet drainedMeanwhile, DrainedIdle fleet.db := by
  intro h
  have hlast := h (drainedMeanwhile.foldl (Fleet.step id) queuedFleet) (foldl_mem_reached _ _)
  exact hlast "w" ⟨"DRAINED", 1⟩ rfl rfl "t" (assignedRow (TaskRow.ofTask queuedTask) "w" 1) rfl rfl rfl

end KarsaSec.Workers
