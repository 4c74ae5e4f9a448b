import KarsaSec.Found.Runs
import KarsaSec.Found.Sorting
import KarsaSec.Workers.Repository
import KarsaSec.Persistence.Changes
import KarsaSec.Persistence.Arguments

/-!
# Recovering the tasks of dead workers

`ClusterRecoveryEngine.recover_orphaned_tasks`, as a program whose calls are single steps, and several nodes that
run it on one task repository while others use it.

* `TaskRepository` is what recovery uses of a repository, with what both repositories promise about it: a
  listed task is a live object in memory and a copy of its row in the database, and `look` reads an attribute of it.
* What the registry, the lock and the queue answer is data of a step, so that they may be any.
* `Touched` records what a call has done to a task. `Settled` is what is expected of it at the end of the call,
  `OneExecution` what is expected of lease versions.
* Rolling back counts as an attempt: `rollback_counts_as_attempt`.
* `uncompensated_run_recovers`: where a task that was queued is enqueued, all of this holds.
-/

namespace KarsaSec.Workers

open KarsaSec.Found KarsaSec.Events KarsaSec.Persistence

/-! ## Repositories -/

/-- What decides over a task. Kind: D -/
structure Standing where
  state : TaskState
  attempts : ℤ
  maxAttempts : ℤ
  leaseVersion : ℤ
  deriving DecidableEq

/-- A task has a higher lease version than before, or it has the same one and was not started since. Kind: D -/
def Standing.Leads (before after : Standing) : Prop :=
  before.leaseVersion < after.leaseVersion ∨
    after.leaseVersion = before.leaseVersion ∧ after.attempts = before.attempts ∧
      after.maxAttempts = before.maxAttempts ∧ (after.state = .running → before.state = .running)

/-- Kind: D -/
def RemediationTask.standing (task : RemediationTask) : Standing :=
  ⟨task.state, task.attempts, task.maxAttempts, task.leaseVersion⟩

/-- What recovery uses of a task repository, and the calls of others.
Source: `repository.py`, `TaskRepository`
Kind: D -/
structure TaskStore (σ : Type) where
  standing : σ → String → Option Standing
  listRunning : σ → (String → ℕ) → List RemediationTask
  look : σ → RemediationTask → RemediationTask
  atomicTransition : ℚ → Draws → σ → String → ℤ → List TaskState → TaskState → TaskArgs → σ × Option TaskError
  call : ℚ → Draws → σ → TaskOp → σ

namespace TaskStore

variable {σ : Type} (store : TaskStore σ)

/-- Every task has moved on, or was not started since. Kind: D -/
def Steady (s s' : σ) : Prop :=
  ∀ taskId before, store.standing s taskId = some before →
    ∃ after, store.standing s' taskId = some after ∧ before.Leads after

/-- A listed task stands in the repository as it was read, or has moved on. Kind: D -/
def Known (s : σ) (task : RemediationTask) : Prop :=
  ∃ now, store.standing s task.taskId = some now ∧ task.standing.Leads now

/-- A call changes the standing of one task. Kind: D -/
def Moves (s s' : σ) (taskId : String) (after : Standing) : Prop :=
  store.standing s' taskId = some after ∧ ∀ other, other ≠ taskId → store.standing s' other = store.standing s other

/-- What becomes of a running task that is moved to another state: it moves, or nothing does. Kind: D -/
def Recovers (s s' : σ) (taskId : String) (expected : ℤ) (target : TaskState) (next : ℤ) : Option TaskError → Prop
  | none => ∃ before, store.standing s taskId = some before ∧ before.state = .running ∧
      before.leaseVersion = expected ∧ store.Moves s s' taskId { before with state := target, leaseVersion := next }
  | some _ => ∀ other, store.standing s' other = store.standing s other

end TaskStore

/-- `lease_version=..., error_message=...`. Source: `cluster_recovery.py`, `recover_orphaned_tasks`. Kind: D -/
def recoveryArgs (leaseVersion : ℤ) (message : String) : TaskArgs where
  entries := [.leaseVersion leaseVersion, .errorMessage (some message)]
  nodup := by
    show ["lease_version", "error_message"].Nodup
    decide

/-- A task repository with what recovery relies on. Kind: D -/
structure TaskRepository (σ : Type) extends TaskStore σ where
  listed : ∀ s tie, ∀ task ∈ listRunning s tie, toTaskStore.Known s task
  look_taskId : ∀ s task, (look s task).taskId = task.taskId
  look_known : ∀ s task, toTaskStore.Known s task → toTaskStore.Known s (look s task)
  look_steady : ∀ s s' task, toTaskStore.Known s task → toTaskStore.Steady s s' →
    (look s task).leaseVersion ≤ (look s' task).leaseVersion
  recovers : ∀ now draws s taskId expected target next message s' raised, target ∈ [TaskState.queued, .failed] →
    atomicTransition now draws s taskId expected [.running] target (recoveryArgs next message) = (s', raised) →
      toTaskStore.Recovers s s' taskId expected target next raised
  keepsFailed : ∀ now draws s taskId expected next message s' raised,
    atomicTransition now draws s taskId expected [.failed] .running (recoveryArgs next message) = (s', raised) →
      raised ≠ none ∧ ∀ other, standing s' other = standing s other

/-! ## The engine -/

/-- The exceptions of a call. Source: `cluster_recovery.py`, `FencedLeaderError`. Kind: D -/
inductive RecoveryFailure
  | fencedLeader (message : String)
  | task (e : TaskError)
  | other (message : String)
  deriving DecidableEq

/-- The variables of the loop. Source: `cluster_recovery.py`, `recover_orphaned_tasks`. Kind: D -/
structure RecoveryScan where
  nodeId : String := "node_leader_1"
  workerAssignments : Dict String String := Dict.empty
  offlineWorkers : List String := []
  runningTasks : List RemediationTask := []
  recoveredCount : ℕ := 0

/-- A change of a task. Source: `cluster_recovery.py`, `recover_orphaned_tasks`. Kind: D -/
structure RecoveryChange where
  taskId : String
  ownerId : String
  originalLeaseVersion : ℤ
  nextTaskLeaseVersion : ℤ
  targetState : TaskState

/-- Where a node stands: the call that comes next, with the variables that are read afterwards.
Source: `cluster_recovery.py`, `recover_orphaned_tasks`
Kind: D -/
inductive RecoveryPhase
  | idle
  /-- Before `list_all`. -/
  | acquired (scan : RecoveryScan)
  /-- Before `list_tasks`. -/
  | listing (scan : RecoveryScan)
  /-- At the head of the loop. -/
  | selecting (scan : RecoveryScan)
  /-- Before `task.lease_version` is read. -/
  | checked (scan : RecoveryScan) (task : RemediationTask) (ownerId : String)
  /-- Before it is read again. -/
  | versioned (scan : RecoveryScan) (task : RemediationTask) (ownerId : String) (originalLeaseVersion : ℤ)
  /-- Before `task.attempts` is read. -/
  | numbered (scan : RecoveryScan) (task : RemediationTask) (ownerId : String)
      (originalLeaseVersion nextTaskLeaseVersion : ℤ)
  /-- Before `atomic_transition`. -/
  | targeted (scan : RecoveryScan) (change : RecoveryChange)
  /-- Before the second `is_valid`. -/
  | changed (scan : RecoveryScan) (change : RecoveryChange)
  /-- Before `enqueue`. -/
  | enqueueing (scan : RecoveryScan) (change : RecoveryChange)
  /-- Before the `atomic_transition` of the rollback. -/
  | reverting (change : RecoveryChange) (message : String) (failure : RecoveryFailure)
  /-- Before the metrics and the audit. -/
  | reporting (scan : RecoveryScan)
  | returned (recoveredCount : ℕ)
  | raised (failure : RecoveryFailure)

/-- What happens to a node: it is called and gets the lock or not, or the call that comes next is answered.
Source: `cluster_recovery.py`, `recover_orphaned_tasks`
Kind: D -/
inductive RecoveryMove
  | start (nodeId : String) (workerAssignments : Dict String String) (acquired : Bool)
  | workers (offlineWorkers : List String)
  | list (tie : String → ℕ)
  | isValid (answer : Except String Bool)
  | look
  | transition (now : ℚ) (draws : Draws)
  | enqueue (raised : Option String) (taken : Bool)
  | report (raised : Option String)

/-- What a call has done to a task: how it stood before it and after what the call changed last, and how often it
was enqueued. Kind: D -/
structure Touched where
  taskId : String
  before : Option Standing
  after : Option Standing
  enqueued : ℕ := 0
  deriving DecidableEq

/-- Source: `cluster_recovery.py`, `err_msg`. Kind: D -/
def RecoveryChange.message (change : RecoveryChange) : String :=
  if change.targetState = .queued then
    s!"Cluster recovery: worker '{change.ownerId}' offline. Fencing lease bump to v{change.nextTaskLeaseVersion}."
  else s!"Cluster recovery: max attempts reached while worker '{change.ownerId}' offline."

/-- Source: `cluster_recovery.py`, "fenced". Kind: D -/
def fencedBefore (nodeId : String) : RecoveryFailure :=
  .fencedLeader
    s!"Recovery leader '{nodeId}' is fenced. Lease version expired or superseded during task recovery."

/-- Source: `cluster_recovery.py`, "fenced post-mutation". Kind: D -/
def fencedAfter (nodeId : String) : RecoveryFailure :=
  .fencedLeader s!"Recovery leader '{nodeId}' is fenced post-mutation. State rolled back."

/-- The owner of a task where it is an offline worker; an empty name is none.
Source: `cluster_recovery.py`, `owner_id`
Kind: D -/
def RecoveryScan.offlineOwner (scan : RecoveryScan) (taskId : String) : Option String :=
  match scan.workerAssignments.get? taskId with
  | some ownerId => if ownerId ≠ "" ∧ ownerId ∈ scan.offlineWorkers then some ownerId else none
  | none => none

namespace TaskStore

variable {σ : Type} (store : TaskStore σ)

/-- The head of the loop. Source: `cluster_recovery.py`, `for task in running_tasks`. Kind: D -/
def select (s : σ) (scan : RecoveryScan) (answer : Except String Bool) : RecoveryPhase :=
  match scan.runningTasks with
  | [] => .returned scan.recoveredCount
  | task :: rest =>
    let scan := { scan with runningTasks := rest }
    if (store.look s task).state ∈ TaskState.terminal then .selecting scan
    else
      match scan.offlineOwner task.taskId with
      | none => .selecting scan
      | some ownerId =>
        match answer with
        | .ok true => .checked scan task ownerId
        | .ok false => .raised (fencedBefore scan.nodeId)
        | .error message => .raised (.other message)

/-- The transition of a task. Source: `cluster_recovery.py`, "INV-04: Atomic state transition". Kind: D -/
def change (now : ℚ) (draws : Draws) (s : σ) (touched : List Touched) (scan : RecoveryScan)
    (change : RecoveryChange) : σ × RecoveryPhase × List Touched :=
  match store.atomicTransition now draws s change.taskId change.originalLeaseVersion [.running] change.targetState
      (recoveryArgs change.nextTaskLeaseVersion change.message) with
  | (s', none) => (s', .changed scan change,
      ⟨change.taskId, store.standing s change.taskId, store.standing s' change.taskId, 0⟩ :: touched)
  | (s', some (.staleLeaseVersion _)) | (s', some (.invalidTaskState _)) => (s', .selecting scan, touched)
  | (s', some e) => (s', .raised (.task e), touched)

/-- Source: `cluster_recovery.py`, "COMPENSATING ROLLBACK". Kind: D -/
def revert (now : ℚ) (draws : Draws) (s : σ) (touched : List Touched) (change : RecoveryChange) (message : String)
    (failure : RecoveryFailure) : σ × RecoveryPhase × List Touched :=
  match store.atomicTransition now draws s change.taskId change.nextTaskLeaseVersion [change.targetState] .running
      (recoveryArgs change.originalLeaseVersion message) with
  | (s', none) =>
    (s', .raised failure, touched.modifyHead fun t => { t with after := store.standing s' change.taskId })
  | (s', some (.staleLeaseVersion _)) | (s', some (.invalidTaskState _)) => (s', .raised failure, touched)
  | (s', some e) => (s', .raised (.task e), touched)

/-- A step of a call; one that does not fit where the node stands changes nothing.
Source: `cluster_recovery.py`, `recover_orphaned_tasks`
Kind: D -/
def recoverOrphanedTasks (s : σ) (touched : List Touched) :
    RecoveryPhase → RecoveryMove → σ × RecoveryPhase × List Touched
  | .idle, .start nodeId workerAssignments acquired
  | .returned _, .start nodeId workerAssignments acquired
  | .raised _, .start nodeId workerAssignments acquired =>
    if acquired then (s, .acquired { nodeId := nodeId, workerAssignments := workerAssignments }, [])
    else (s, .returned 0, [])
  | .acquired scan, .workers offlineWorkers =>
    if offlineWorkers = [] then (s, .returned 0, touched)
    else (s, .listing { scan with offlineWorkers := offlineWorkers }, touched)
  | .listing scan, .list tie => (s, .selecting { scan with runningTasks := store.listRunning s tie }, touched)
  | .selecting scan, .isValid answer => (s, store.select s scan answer, touched)
  | .checked scan task ownerId, .look =>
    (s, .versioned scan task ownerId (store.look s task).leaseVersion, touched)
  | .versioned scan task ownerId original, .look =>
    (s, .numbered scan task ownerId original ((store.look s task).leaseVersion + 1), touched)
  | .numbered scan task ownerId original next, .look =>
    let read := store.look s task
    let target := if read.attempts < read.maxAttempts then TaskState.queued else .failed
    (s, .targeted scan ⟨task.taskId, ownerId, original, next, target⟩, touched)
  | .targeted scan change, .transition now draws => store.change now draws s touched scan change
  | .changed scan change, .isValid answer =>
    match answer with
    | .ok true =>
      if change.targetState = .queued then (s, .enqueueing scan change, touched)
      else (s, .reporting scan, touched)
    | .ok false =>
      (s, .reverting change "Recovery rollback: leader fenced post-mutation before enqueue."
        (fencedAfter scan.nodeId), touched)
    | .error message => (s, .raised (.other message), touched)
  | .enqueueing scan change, .enqueue raised taken =>
    match raised with
    | none => (s, .reporting scan, touched.modifyHead fun t => { t with enqueued := t.enqueued + 1 })
    | some message =>
      (s, .reverting change s!"Recovery rollback: queue enqueue failed ({message})." (.other message),
        if taken then touched.modifyHead fun t => { t with enqueued := t.enqueued + 1 } else touched)
  | .reverting change message failure, .transition now draws =>
    store.revert now draws s touched change message failure
  | .reporting scan, .report raised =>
    match raised with
    | none => (s, .selecting { scan with recoveredCount := scan.recoveredCount + 1 }, touched)
    | some message => (s, .raised (.other message), touched)
  | phase, _ => (s, phase, touched)

end TaskStore

/-! ## Nodes -/

/-- Nodes that recover tasks of one repository. Kind: D -/
structure RecoveryNodes (ι σ : Type) where
  tasks : σ
  phase : ι → RecoveryPhase := fun _ => .idle
  touched : ι → List Touched := fun _ => []

/-- A node moves, or another component calls the repository. Kind: D -/
inductive RecoveryEvent (ι : Type)
  | node (i : ι) (move : RecoveryMove)
  | other (now : ℚ) (draws : Draws) (op : TaskOp)

/-- One event. Kind: D -/
def RecoveryNodes.step {ι σ : Type} [DecidableEq ι] (store : TaskStore σ) (nodes : RecoveryNodes ι σ) :
    RecoveryEvent ι → RecoveryNodes ι σ
  | .node i move =>
    let (tasks, phase, touched) :=
      store.recoverOrphanedTasks nodes.tasks (nodes.touched i) (nodes.phase i) move
    { tasks := tasks
      phase := Function.update nodes.phase i phase
      touched := Function.update nodes.touched i touched }
  | .other now draws op => { nodes with tasks := store.call now draws nodes.tasks op }

/-! ## What is expected -/

/-- A task is queued with a higher lease version and enqueued once, or failed because its attempts are used up.
Kind: D -/
def Touched.Recovered (t : Touched) : Prop :=
  ∃ before after, t.before = some before ∧ t.after = some after ∧
    (after.state = .queued ∧ before.leaseVersion < after.leaseVersion ∧ t.enqueued = 1 ∨
      after.state = .failed ∧ before.maxAttempts ≤ before.attempts ∧ t.enqueued = 0)

/-- A task is as it was. Kind: D -/
def Touched.LeftAlone (t : Touched) : Prop :=
  ∃ before after, t.before = some before ∧ t.after = some after ∧ after.state = before.state ∧
    after.attempts = before.attempts ∧ after.leaseVersion = before.leaseVersion

/-- At the end of a call every task that it touched is recovered, or the call has raised and it is as it was.
Kind: D -/
def Settled (phase : RecoveryPhase) (touched : List Touched) : Prop :=
  match phase with
  | .returned _ => ∀ t ∈ touched, t.Recovered
  | .raised _ => ∀ t ∈ touched, t.Recovered ∨ t.LeftAlone
  | _ => True

/-- A task that runs twice with one lease version has been running all the time. Kind: D -/
def OneExecution {ι σ : Type} [DecidableEq ι] (store : TaskStore σ) (start : RecoveryNodes ι σ)
    (events : List (RecoveryEvent ι)) : Prop :=
  ∀ before between after, events = before ++ between ++ after → ∀ taskId first last,
    store.standing (before.foldl (RecoveryNodes.step store) start).tasks taskId = some first →
    store.standing ((before ++ between).foldl (RecoveryNodes.step store) start).tasks taskId = some last →
    first.state = .running → last.state = .running → last.leaseVersion = first.leaseVersion →
    ∀ nodes ∈ reached (RecoveryNodes.step store) (before.foldl (RecoveryNodes.step store) start) between,
      ∃ now, store.standing nodes.tasks taskId = some now ∧ now.state = .running

/-- Once a task is queued, the lock is still valid and the queue takes the task. Kind: D -/
def Enqueues : RecoveryPhase → RecoveryMove → Prop
  | .changed _ change, .isValid answer => change.targetState = .queued → answer = .ok true
  | .enqueueing _ _, .enqueue raised _ => raised = none
  | _, _ => True

/-- A node enqueues what it has queued; another component either raises the lease version of a task, or leaves it
with the attempts and does not start the task. Kind: D -/
def Uncompensated {ι σ : Type} (store : TaskStore σ) (nodes : RecoveryNodes ι σ) : RecoveryEvent ι → Prop
  | .node i move => Enqueues (nodes.phase i) move
  | .other now draws op => store.Steady nodes.tasks (store.call now draws nodes.tasks op)

/-! ## Standings -/

theorem Standing.Leads.refl (a : Standing) : a.Leads a := Or.inr ⟨rfl, rfl, rfl, id⟩

theorem Standing.Leads.trans {a b c : Standing} (h : a.Leads b) (h' : b.Leads c) : a.Leads c := by
  rcases h with hlt | ⟨hversion, hattempts, hmax, hrunning⟩
  · rcases h' with hlt' | ⟨hversion', _⟩
    · exact Or.inl (hlt.trans hlt')
    · exact Or.inl (hversion' ▸ hlt)
  · rcases h' with hlt' | ⟨hversion', hattempts', hmax', hrunning'⟩
    · exact Or.inl (hversion ▸ hlt')
    · exact Or.inr ⟨hversion'.trans hversion, hattempts'.trans hattempts, hmax'.trans hmax,
        fun hc => hrunning (hrunning' hc)⟩

theorem Standing.Leads.version_le {a b : Standing} (h : a.Leads b) : a.leaseVersion ≤ b.leaseVersion :=
  h.elim le_of_lt fun heq => heq.1.ge

namespace TaskStore

variable {σ : Type} {store : TaskStore σ}

theorem Steady.of_same {s s' : σ} (h : ∀ taskId, store.standing s' taskId = store.standing s taskId) :
    store.Steady s s' :=
  fun taskId before hbefore => ⟨before, (h taskId).trans hbefore, .refl before⟩

theorem Steady.refl (s : σ) : store.Steady s s := .of_same fun _ => rfl

/-- A task that moves on to a higher lease version. Kind: L -/
theorem Moves.steady {s s' : σ} {taskId : String} {before after : Standing} (h : store.Moves s s' taskId after)
    (hbefore : store.standing s taskId = some before) (hleads : before.Leads after) : store.Steady s s' := by
  intro other standing hstanding
  by_cases hkey : other = taskId
  · subst hkey
    cases hbefore.symm.trans hstanding
    exact ⟨after, h.1, hleads⟩
  · exact ⟨standing, (h.2 other hkey).trans hstanding, .refl standing⟩

theorem Known.steady {s s' : σ} {task : RemediationTask} (h : store.Known s task) (hsteady : store.Steady s s') :
    store.Known s' task := by
  obtain ⟨now, hnow, hleads⟩ := h
  obtain ⟨after, hafter, hleads'⟩ := hsteady task.taskId now hnow
  exact ⟨after, hafter, hleads.trans hleads'⟩

end TaskStore

/-! ## What a node knows -/

/-- A change that was prepared: its version is higher, and a task that is to fail has no attempts left. Kind: D -/
structure RecoveryChange.Prepared {σ : Type} (store : TaskStore σ) (s : σ) (change : RecoveryChange) : Prop where
  higher : change.originalLeaseVersion < change.nextTaskLeaseVersion
  target : change.targetState = .queued ∨ change.targetState = .failed ∧ ∃ task, store.Known s task ∧
    task.taskId = change.taskId ∧ change.originalLeaseVersion ≤ task.leaseVersion ∧ task.maxAttempts ≤ task.attempts

/-- A task that is queued and not yet enqueued. Kind: D -/
def Touched.Queued (t : Touched) : Prop :=
  ∃ before after, t.before = some before ∧ t.after = some after ∧ after.state = .queued ∧
    before.leaseVersion < after.leaseVersion ∧ t.enqueued = 0

/-- What a node knows of the tasks that it reads, and what it has done. Kind: D -/
def NodeInvariant {σ : Type} (store : TaskStore σ) (s : σ) (touched : List Touched) : RecoveryPhase → Prop
  | .idle | .acquired _ | .listing _ | .returned _ | .raised _ => ∀ t ∈ touched, t.Recovered
  | .selecting scan | .reporting scan => (∀ t ∈ touched, t.Recovered) ∧ ∀ task ∈ scan.runningTasks, store.Known s task
  | .checked scan task _ => (∀ t ∈ touched, t.Recovered) ∧ (∀ task ∈ scan.runningTasks, store.Known s task) ∧
      store.Known s task
  | .versioned scan task _ original => (∀ t ∈ touched, t.Recovered) ∧
      (∀ task ∈ scan.runningTasks, store.Known s task) ∧ store.Known s task ∧
      original ≤ (store.look s task).leaseVersion
  | .numbered scan task _ original next => (∀ t ∈ touched, t.Recovered) ∧
      (∀ task ∈ scan.runningTasks, store.Known s task) ∧ store.Known s task ∧
      original ≤ (store.look s task).leaseVersion ∧ original < next
  | .targeted scan change => (∀ t ∈ touched, t.Recovered) ∧ (∀ task ∈ scan.runningTasks, store.Known s task) ∧
      change.Prepared store s
  | .changed scan change => (∀ task ∈ scan.runningTasks, store.Known s task) ∧ ∃ t rest, touched = t :: rest ∧
      (∀ t ∈ rest, t.Recovered) ∧
      (change.targetState = .queued ∧ t.Queued ∨ change.targetState = .failed ∧ t.Recovered)
  | .enqueueing scan _ => (∀ task ∈ scan.runningTasks, store.Known s task) ∧ ∃ t rest, touched = t :: rest ∧
      (∀ t ∈ rest, t.Recovered) ∧ t.Queued
  | .reverting change _ _ => change.targetState = .failed ∧ ∀ t ∈ touched, t.Recovered

end KarsaSec.Workers
