import KarsaSec.Found.Runs
import KarsaSec.Persistence.Arguments
import KarsaSec.Workers.Runtime

/-!
# Fencing of worker nodes

A node whose lease was superseded, or whose worker is FENCED or OFFLINE, is not to start or complete the task
nor to write its receipt; one that is DRAINING is not to start it.

* `Superseded`: the lease version that `assign_task` gave to a running call of `process_task` has changed.
* `Untouched` is what is expected of such a node for a task, `Fenced` what is expected of a step of any node.
* A node that is draining completes the task that it holds: `draining_worker_completes`.
* `fenced_step_of_run`: in every interleaving each step of a node that is not one of its two `update_task`
  fallbacks is fenced.
-/

namespace KarsaSec.Workers

open KarsaSec.Found KarsaSec.Events KarsaSec.Persistence

/-! ## Versions grow -/

/-- The lease version of a task. Kind: D -/
def versionOf (db : Database) (taskId : String) : Option ℤ := (db.tasks.get? taskId).map TaskRow.leaseVersion

/-- Every task is still there, with no lower version. Kind: D -/
def Grows (db db' : Database) : Prop :=
  ∀ taskId v, versionOf db taskId = some v → ∃ v', versionOf db' taskId = some v' ∧ v ≤ v'

theorem Grows.refl (db : Database) : Grows db db := fun _ v hv => ⟨v, hv, le_rfl⟩

theorem Grows.trans {db db' db'' : Database} (h : Grows db db') (h' : Grows db' db'') : Grows db db'' := by
  intro taskId v hv
  obtain ⟨v', hv', hle⟩ := h taskId v hv
  obtain ⟨v'', hv'', hle'⟩ := h' taskId v' hv'
  exact ⟨v'', hv'', hle.trans hle'⟩

/-- A new value for a row that is there or not, with no lower version. Kind: L -/
theorem grows_set {db db' : Database} {taskId : String} {row : TaskRow}
    (htasks : db'.tasks = db.tasks.set taskId row)
    (hrow : ∀ old, db.tasks.get? taskId = some old → old.leaseVersion ≤ row.leaseVersion) : Grows db db' := by
  intro other v hv
  unfold versionOf at hv ⊢
  rw [htasks]
  by_cases hkey : other = taskId
  · grind [Option.map_eq_some_iff, Dict.get?_set_self]
  · rw [Dict.get?_set_ne _ hkey]
    exact ⟨v, hv, le_rfl⟩

/-- A call that leaves the lease version to the repository gives no lower one. Kind: L -/
theorem advances_of_leaves {op : TaskOp} (h : op.SetsNoVersion) (db : Database) (draws : Draws) :
    Advances db (.call draws op) := by
  cases op with
  | update taskId args =>
    intro row hrow
    have hnone : args.leaseVersion? = none := h
    split
    · simp_all [popState_leaseVersion?]
    · intro given hgiven
      rw [show args.find? readLeaseVersion = args.leaseVersion? from (leaseVersion?_eq args).symm, hnone]
        at hgiven
      cases hgiven
  | transition taskId expectedLeaseVersion expectedStates newState args =>
    have hnone : args.leaseVersion? = none := h
    intro row hrow hversion hstate hguard given hgiven
    rw [hnone] at hgiven
    cases hgiven
  | _ => trivial

theorem grows_call {sha256 : String → String} {db db' : Database} {draws : Draws} {op : TaskOp}
    {task : RemediationTask} (hleaves : op.SetsNoVersion) (h : db.call sha256 draws op = .ok (db', task)) :
    Grows db db' := by
  have hadvances := advances_of_leaves hleaves db draws
  rcases Database.call_cases h with ⟨moved, before, row, entry, staged, hmoves, hrecorded, _⟩ |
    ⟨moved, args, old, row, rfl, hnew, hfound, hset, _, hdb⟩
  · refine grows_set hrecorded.tasks fun old hold => ?_
    obtain rfl := hmoves.found.symm.trans hold
    exact (move_advances hmoves hadvances).le
  · rw [hdb]
    refine grows_set rfl fun old' hold => ?_
    cases hfound.symm.trans hold
    rw [sets_leaseVersion.updated hset]
    have hnone : args.find? readLeaseVersion = none := (leaseVersion?_eq args).symm.trans hleaves
    rw [hnone]
    exact le_rfl

/-! ## What a step of a node does -/

namespace Phase

/-- The call that comes next is an `update_task` that `process_task` falls back to. Kind: D -/
def IsFallback : Phase → Bool
  | starting _ _ => true
  | finishing _ _ _ => true
  | _ => false

/-- The task of a running call of `process_task` that has passed its start, and the version it goes by.
Kind: D -/
def lease? : Phase → Option (String × ℤ)
  | executing taskId task => some (taskId, task.leaseVersion)
  | completing taskId task _ => some (taskId, task.leaseVersion)
  | finishing taskId task _ => some (taskId, task.leaseVersion)
  | acknowledging taskId task => some (taskId, task.leaseVersion)
  | failing taskId task _ => some (taskId, task.leaseVersion)
  | _ => none

/-- The call that comes next, if it is one that writes. Kind: D -/
def nextOp (runtime : CustomWorkerRuntime) : Phase → Option TaskOp
  | assigning taskId _ => some (.assign taskId runtime.workerId)
  | starting taskId _ => some (.update taskId runningArgs)
  | completing taskId task receipt =>
    some (.complete taskId task.leaseVersion runtime.workerId runtime.fencingToken (some receipt.receiptId)
      (some receipt.receiptFingerprint) (some receipt.securityVerificationStatus))
  | finishing taskId _ receipt => some (.update taskId (completedArgs receipt))
  | failing taskId task message =>
    some (.failure taskId task.leaseVersion runtime.workerId runtime.fencingToken message)
  | requeueing _ taskId task _ =>
    some (.transition taskId task.leaseVersion [.running] (targetState task) expiredArgs)
  | _ => none

theorem nextOp_leaves {runtime : CustomWorkerRuntime} {phase : Phase} {op : TaskOp}
    (h : phase.nextOp runtime = some op) : op.SetsNoVersion := by
  cases phase <;> cases h
  case assigning => trivial
  case completing => trivial
  case failing => trivial
  all_goals rfl

end Phase

/-- The tables after a call are those before it, or those that the call has made. Kind: L -/
theorem Fate.write_cases (fate : Fate) (db : Database)
    (result : Except TaskError (Database × RemediationTask)) :
    (fate.write db result).1 = db ∨ ∃ task, result = .ok ((fate.write db result).1, task) := by
  rcases result with e | ⟨db', task⟩
  · cases fate <;> exact Or.inl rfl
  · cases fate with
    | fails message => exact Or.inl rfl
    | returns => exact Or.inr ⟨task, rfl⟩
    | lost message => exact Or.inr ⟨task, rfl⟩

theorem Fate.write_ok {fate : Fate} {db db' : Database}
    {result : Except TaskError (Database × RemediationTask)} {task : RemediationTask}
    (h : fate.write db result = (db', .ok task)) : result = .ok (db', task) := by
  rcases result with e | ⟨db'', task'⟩ <;> cases fate <;> cases h
  rfl

section

variable (sha256 : String → String) (runtime : CustomWorkerRuntime) (db : Database) (phase : Phase)

/-- A repository call writes nothing, or what it is to write. Kind: L -/
theorem call_writes (draws : Draws) (fate : Fate) :
    (runtime.call sha256 db draws fate phase).1 = db ∨
      ∃ op task, phase.nextOp runtime = some op ∧
        db.call sha256 draws op = .ok ((runtime.call sha256 db draws fate phase).1, task) := by
  have hwrite : ∀ op, phase.nextOp runtime = some op →
      (fate.write db (db.call sha256 draws op)).1 = (runtime.call sha256 db draws fate phase).1 →
      (runtime.call sha256 db draws fate phase).1 = db ∨
        ∃ op task, phase.nextOp runtime = some op ∧
          db.call sha256 draws op = .ok ((runtime.call sha256 db draws fate phase).1, task) := by
    intro op hop heq
    rw [← heq]
    rcases fate.write_cases db (db.call sha256 draws op) with hsame | ⟨task, htask⟩
    · exact Or.inl hsame
    · exact Or.inr ⟨op, task, hop, htask⟩
  cases phase
  case fetching taskId =>
    left
    unfold CustomWorkerRuntime.call
    dsimp only
    split
    · split <;> rfl
    · rfl
  case recovering currentTime processingIds =>
    left
    unfold CustomWorkerRuntime.call
    dsimp only
    split
    · rfl
    · split
      · split <;> rfl
      · rfl
      · rfl
  case assigning | starting | completing | finishing =>
    refine hwrite _ rfl ?_
    unfold CustomWorkerRuntime.call
    dsimp only
    split <;> rename_i hresult <;> exact congrArg Prod.fst hresult
  case failing | requeueing => exact hwrite _ rfl rfl
  all_goals exact Or.inl rfl

theorem step_writes (move : Move) :
    (runtime.step sha256 db phase move).1 = db ∨
      ∃ draws op task, phase.nextOp runtime = some op ∧
        db.call sha256 draws op = .ok ((runtime.step sha256 db phase move).1, task) := by
  cases move with
  | call draws fate =>
    rcases call_writes sha256 runtime db phase draws fate with hsame | ⟨op, task, hop, hcall⟩
    · exact Or.inl hsame
    · exact Or.inr ⟨draws, op, task, hop, hcall⟩
  | _ => exact Or.inl rfl

/-- A call of `process_task` goes by the task that it has read until it ends. Kind: L -/
theorem step_lease {lease : String × ℤ} (hlease : phase.lease? = some lease) (move : Move) :
    (runtime.step sha256 db phase move).2.lease? = some lease ∨
      (runtime.step sha256 db phase move).2 = .idle := by
  cases phase with
  | executing taskId task =>
    left
    rcases move with _ | _ | _ | (_ | _) | _ <;> exact hlease
  | completing taskId task receipt =>
    left
    rcases move with _ | _ | ⟨draws, fate⟩ | _ | _
    case call =>
      show (runtime.call sha256 db draws fate _).2.lease? = some lease
      unfold CustomWorkerRuntime.call
      dsimp only
      split <;> exact hlease
    all_goals exact hlease
  | finishing taskId task receipt =>
    left
    rcases move with _ | _ | ⟨draws, fate⟩ | _ | _
    case call =>
      show (runtime.call sha256 db draws fate _).2.lease? = some lease
      unfold CustomWorkerRuntime.call
      dsimp only
      split <;> exact hlease
    all_goals exact hlease
  | acknowledging taskId task =>
    rcases move with _ | _ | _ | _ | (_ | _)
    case acknowledge.none => exact Or.inr rfl
    all_goals exact Or.inl hlease
  | failing taskId task message =>
    rcases move with _ | _ | _ | _ | _
    case call => exact Or.inr rfl
    all_goals exact Or.inl hlease
  | _ => cases hlease

/-- Where `assign_task` has returned, the task has the version that the node goes by. Kind: L -/
theorem version_of_assigned {taskId : String} {read task : RemediationTask} {move : Move}
    (h : (runtime.step sha256 db (.assigning taskId read) move).2 = .executing taskId task) :
    versionOf (runtime.step sha256 db (.assigning taskId read) move).1 taskId = some task.leaseVersion := by
  cases move with
  | call draws fate =>
    change (runtime.call sha256 db draws fate (.assigning taskId read)).2 = _ at h
    show versionOf (runtime.call sha256 db draws fate (.assigning taskId read)).1 taskId = _
    unfold CustomWorkerRuntime.call at h ⊢
    dsimp only at h ⊢
    split at h
    · rename_i db' assigned hresult
      cases h
      obtain ⟨row, _, _, _, _, hcommit⟩ := Database.assignTask_ok (Fate.write_ok hresult)
      obtain ⟨hrecorded, htask, _⟩ := Database.commit_ok hcommit
      show versionOf db' taskId = _
      unfold versionOf
      rw [hrecorded.tasks, Dict.get?_set_self]
      exact congrArg some (Database.toDomain_ok htask).2.1
    · cases h
  | _ => cases h

end

/-! ## What is expected -/

/-- A task is changed, and is in a state afterwards. Kind: D -/
def MovedTo (db db' : Database) (taskId : String) (state : TaskState) : Prop :=
  db'.tasks.get? taskId ≠ db.tasks.get? taskId ∧
    (db'.tasks.get? taskId).map TaskRow.state = some state.value

/-- The receipt of a task, as its row keeps it. Kind: D -/
def receiptOf (db : Database) (taskId : String) : Option (Option String × Option String × Option String) :=
  (db.tasks.get? taskId).map fun row =>
    (row.receiptId, row.receiptFingerprint, row.securityVerificationStatus)

/-- A task is neither started nor completed, and its receipt stays. Kind: D -/
structure Untouched (db db' : Database) (taskId : String) : Prop where
  running : ¬ MovedTo db db' taskId .running
  completed : ¬ MovedTo db db' taskId .completed
  receipt : receiptOf db' taskId = receiptOf db taskId

theorem untouched_of_same {db db' : Database} {taskId : String}
    (h : db'.tasks.get? taskId = db.tasks.get? taskId) : Untouched db db' taskId :=
  ⟨fun hmoved => hmoved.1 h, fun hmoved => hmoved.1 h, by unfold receiptOf; rw [h]⟩

/-- The row of a task that is neither started nor completed, with its receipt. Kind: D -/
structure Sideways (old row : TaskRow) : Prop where
  running : row.state ≠ TaskState.running.value
  completed : row.state ≠ TaskState.completed.value
  receipt : row.receiptId = old.receiptId ∧ row.receiptFingerprint = old.receiptFingerprint ∧
    row.securityVerificationStatus = old.securityVerificationStatus

theorem sideways_of_state {old row : TaskRow} (state : TaskState) (hrow : row.state = state.value)
    (hstate : state ∈ [TaskState.queued, TaskState.failed])
    (hreceipt : row.receiptId = old.receiptId ∧ row.receiptFingerprint = old.receiptFingerprint ∧
      row.securityVerificationStatus = old.securityVerificationStatus) : Sideways old row := by
  refine ⟨fun hsame => ?_, fun hsame => ?_, hreceipt⟩
  · grind [TaskState.value_injective]
  · grind [TaskState.value_injective]

theorem untouched_of_sideways {db db' : Database} {moved : String} {old row : TaskRow}
    (htasks : db'.tasks = db.tasks.set moved row) (hold : db.tasks.get? moved = some old)
    (h : Sideways old row) (taskId : String) : Untouched db db' taskId := by
  by_cases hkey : taskId = moved
  · subst hkey
    have hrow : db'.tasks.get? taskId = some row := by rw [htasks, Dict.get?_set_self]
    refine ⟨fun hmoved => ?_, fun hmoved => ?_, ?_⟩
    · have hstate := hmoved.2
      rw [hrow] at hstate
      exact h.running (Option.some.inj hstate)
    · have hstate := hmoved.2
      rw [hrow] at hstate
      exact h.completed (Option.some.inj hstate)
    · obtain ⟨hid, hfingerprint, hstatus⟩ := h.receipt
      unfold receiptOf
      rw [hrow, hold, Option.map_some, Option.map_some, hid, hfingerprint, hstatus]
  · refine untouched_of_same ?_
    rw [htasks, Dict.get?_set_ne _ hkey]

/-! ## What each call has checked -/

section

variable {db : Database} {taskId moved workerId : String} {before : Option TaskRow} {row : TaskRow}
  {entry : Transition} {staged : Staged}

theorem assign_checks (h : Moves db (.assign taskId workerId) moved before row entry staged) :
    moved = taskId ∧ db.workerStatus workerId ∉ ["DRAINING", "DRAINED", "FENCED", "OFFLINE"] := by
  cases h with
  | transition hop => rcases hop with hop | ⟨_, _, hop, _⟩ <;> cases hop
  | assign _ _ hworker => exact ⟨rfl, hworker⟩

theorem complete_checks {version token : ℤ} {receiptId fingerprint status : Option String}
    (h : Moves db (.complete taskId version workerId token receiptId fingerprint status) moved before row entry
      staged) :
    moved = taskId ∧ row.state = TaskState.completed.value ∧
      ∃ old, before = some old ∧ MayMutate db taskId old version workerId token := by
  cases h with
  | transition hop => rcases hop with hop | ⟨_, _, hop, _⟩ <;> cases hop
  | complete _ _ _ hmay => exact ⟨rfl, rfl, _, rfl, hmay⟩

theorem failure_sideways {version token : ℤ} {message : String}
    (h : Moves db (.failure taskId version workerId token message) moved before row entry staged) :
    ∃ old, before = some old ∧ Sideways old row := by
  cases h with
  | transition hop => rcases hop with hop | ⟨_, _, hop, _⟩ <;> cases hop
  | fail => exact ⟨_, rfl, sideways_of_state .failed rfl (by decide) ⟨rfl, rfl, rfl⟩⟩
  | retry => exact ⟨_, rfl, sideways_of_state .queued rfl (by decide) ⟨rfl, rfl, rfl⟩⟩

theorem requeue_sideways {version : ℤ} {expected : List TaskState} {task : RemediationTask}
    (h : Moves db (.transition taskId version expected (targetState task) expiredArgs) moved before row entry
      staged) :
    ∃ old, before = some old ∧ Sideways old row := by
  cases h with
  | transition hop =>
    rcases hop with hop | ⟨_, _, hop, _⟩ <;> cases hop
    have htarget : targetState task ∈ [TaskState.queued, TaskState.failed] := by
      unfold targetState
      split <;> decide
    exact ⟨_, rfl, sideways_of_state (targetState task) rfl htarget ⟨rfl, rfl, rfl⟩⟩

theorem status_of_notFenced {token : ℤ} (h : db.workerFenced taskId workerId token = none) :
    db.workerStatus workerId ∉ ["FENCED", "OFFLINE"] := by
  unfold Database.workerFenced at h
  unfold Database.workerStatus
  split at h
  · rename_i hnone
    rw [hnone]
    decide
  · grind

end

/-! ## What a step of a node does to a task -/

/-- What is expected of a step of a node, with what the node has checked: it leaves every task alone, or it
starts the one that it is about to, with a worker that takes tasks, or completes the one that it holds, with a
worker that is not fenced. Kind: D -/
inductive NodeWrites (runtime : CustomWorkerRuntime) (db db' : Database) : Phase → Prop
  | nothing {phase : Phase} (h : ∀ taskId, Untouched db db' taskId) : NodeWrites runtime db db' phase
  | started {moved : String} {read : RemediationTask}
      (hworker : db.workerStatus runtime.workerId ∉ ["DRAINING", "DRAINED", "FENCED", "OFFLINE"])
      (hothers : ∀ taskId ≠ moved, Untouched db db' taskId) : NodeWrites runtime db db' (.assigning moved read)
  | completed {moved : String} {task : RemediationTask} {receipt : Receipt}
      (hworker : db.workerStatus runtime.workerId ∉ ["FENCED", "OFFLINE"])
      (hversion : versionOf db moved = some task.leaseVersion)
      (hothers : ∀ taskId ≠ moved, Untouched db db' taskId)
      (hrunning : ∀ taskId, ¬ MovedTo db db' taskId .running) :
      NodeWrites runtime db db' (.completing moved task receipt)

theorem step_nodeWrites (sha256 : String → String) (runtime : CustomWorkerRuntime) (db : Database)
    {phase : Phase} (hfallback : phase.IsFallback = false) (move : Move) :
    NodeWrites runtime db (runtime.step sha256 db phase move).1 phase := by
  rcases step_writes sha256 runtime db phase move with hsame | ⟨draws, op, result, hop, hcall⟩
  · rw [hsame]
    exact .nothing fun taskId => untouched_of_same rfl
  · generalize (runtime.step sha256 db phase move).1 = db' at hcall
    have hothers : ∀ {moved : String} {row : TaskRow}, db'.tasks = db.tasks.set moved row →
        ∀ taskId ≠ moved, Untouched db db' taskId := by
      intro moved row htasks taskId hne
      refine untouched_of_same ?_
      rw [htasks, Dict.get?_set_ne _ hne]
    rcases Database.call_cases hcall with ⟨moved, before, row, entry, staged, hmoves, hrecorded, _⟩ |
      ⟨_, args, _, _, rfl, hstate, _⟩
    · cases phase <;> cases hop
      case assigning.refl taskId read =>
        obtain ⟨rfl, hworker⟩ := assign_checks hmoves
        exact .started hworker (hothers hrecorded.tasks)
      case completing.refl taskId task receipt =>
        obtain ⟨rfl, hstate, old, rfl, hmay⟩ := complete_checks hmoves
        refine .completed (status_of_notFenced hmay.notFenced) ?_ (hothers hrecorded.tasks) ?_
        · unfold versionOf
          rw [hmay.found, ← hmay.version]
          rfl
        · rintro taskId ⟨hchanged, hrunning⟩
          by_cases hkey : taskId = moved
          · subst hkey
            rw [hrecorded.tasks, Dict.get?_set_self, Option.map_some, hstate] at hrunning
            exact absurd (Option.some.inj hrunning) (by decide)
          · exact hchanged (by rw [hrecorded.tasks, Dict.get?_set_ne _ hkey])
      case failing.refl taskId task message =>
        obtain ⟨old, rfl, hsideways⟩ := failure_sideways hmoves
        exact .nothing (untouched_of_sideways hrecorded.tasks hmoves.found hsideways)
      case requeueing.refl currentTime taskId task processingIds =>
        obtain ⟨old, rfl, hsideways⟩ := requeue_sideways hmoves
        exact .nothing (untouched_of_sideways hrecorded.tasks hmoves.found hsideways)
      all_goals cases hfallback
    · cases phase <;> cases hop <;> cases hfallback

/-! ## Runs -/

variable {ι : Type} [DecidableEq ι]

/-- The lease of the running call of `process_task` of a node was superseded: `assign_task` gave it a version
in the run, the call still goes on, and meanwhile the task has had another version. Kind: D -/
def Superseded (sha256 : String → String) (runtimes : ι → CustomWorkerRuntime) (start : Cluster ι)
    (events : List (ClusterEvent ι)) (i : ι) (taskId : String) : Prop :=
  ∃ before move rest read task, events = before ++ .node i move :: rest ∧
    let assigning := start.run sha256 runtimes before
    let held := assigning.step sha256 runtimes (.node i move)
    assigning.phase i = .assigning taskId read ∧ held.phase i = .executing taskId task ∧
      (∀ cluster ∈ reached (Cluster.step sha256 runtimes) held rest, cluster.phase i ≠ .idle) ∧
      ∃ cluster ∈ reached (Cluster.step sha256 runtimes) held rest,
        versionOf cluster.db taskId ≠ some task.leaseVersion

/-- What is expected of a step of a node for a task, with the name of its worker, where it stands and whether
its lease was superseded. Kind: D -/
structure Fenced (db db' : Database) (workerId : String) (phase : Phase) (superseded : Prop)
    (taskId : String) : Prop where
  barred : superseded ∨ db.workerStatus workerId ∈ ["FENCED", "OFFLINE"] → Untouched db db' taskId
  draining : db.workerStatus workerId ∈ ["DRAINING", "DRAINED"] →
    ¬ MovedTo db db' taskId .running ∧
      (Untouched db db' taskId ∨ ∃ v, phase.lease? = some (taskId, v) ∧ versionOf db taskId = some v)

section

variable {sha256 : String → String} {runtimes : ι → CustomWorkerRuntime}

theorem grows_step (cluster : Cluster ι) (event : ClusterEvent ι) :
    Grows cluster.db (cluster.step sha256 runtimes event).db := by
  cases event with
  | node i move =>
    show Grows cluster.db ((runtimes i).step sha256 cluster.db (cluster.phase i) move).1
    rcases step_writes sha256 (runtimes i) cluster.db (cluster.phase i) move with hsame |
      ⟨draws, op, task, hop, hcall⟩
    · rw [hsame]
      exact Grows.refl _
    · exact grows_call (Phase.nextOp_leaves hop) hcall
  | worker workerId row => exact Grows.refl cluster.db
  | other draws op leaves =>
    show Grows cluster.db (cluster.db.step sha256 (.call draws op))
    rcases hcall : cluster.db.call sha256 draws op with e | ⟨db', task⟩
    · simp_all [Database.step, Grows.refl]
    · grind [Database.step, grows_call]

theorem cluster_lease {cluster : Cluster ι} {i : ι} {lease : String × ℤ}
    (hlease : (cluster.phase i).lease? = some lease) (event : ClusterEvent ι) :
    ((cluster.step sha256 runtimes event).phase i).lease? = some lease ∨
      (cluster.step sha256 runtimes event).phase i = .idle := by
  cases event with
  | node j move =>
    show (Function.update cluster.phase j _ i).lease? = some lease ∨ Function.update cluster.phase j _ i = .idle
    by_cases hnode : i = j
    · subst hnode
      rw [Function.update_self]
      exact step_lease sha256 (runtimes i) cluster.db (cluster.phase i) hlease move
    · rw [Function.update_of_ne hnode]
      exact Or.inl hlease
  | worker => exact Or.inl hlease
  | other => exact Or.inl hlease

/-- A call of `process_task` that goes on keeps its lease. Kind: L -/
theorem run_lease {i : ι} {lease : String × ℤ} {rest : List (ClusterEvent ι)} {cluster : Cluster ι}
    (hlease : (cluster.phase i).lease? = some lease)
    (hactive : ∀ cluster' ∈ reached (Cluster.step sha256 runtimes) cluster rest, cluster'.phase i ≠ .idle) :
    ((rest.foldl (Cluster.step sha256 runtimes) cluster).phase i).lease? = some lease := by
  induction rest generalizing cluster with
  | nil => exact hlease
  | cons event rest ih =>
    have hnext : cluster.step sha256 runtimes event ∈
        reached (Cluster.step sha256 runtimes) cluster (event :: rest) :=
      List.mem_cons_of_mem _ (mem_reached_head _ _)
    rcases cluster_lease hlease event with hkept | hidle
    · exact ih hkept fun cluster' hreached => hactive cluster' (List.mem_cons_of_mem _ hreached)
    · exact absurd hidle (hactive _ hnext)

/-- A superseded node goes by a version that the task has left behind. Kind: L -/
theorem superseded_version {start : Cluster ι} {events : List (ClusterEvent ι)} {i : ι} {taskId : String}
    (h : Superseded sha256 runtimes start events i taskId) :
    ∃ v v', ((start.run sha256 runtimes events).phase i).lease? = some (taskId, v) ∧
      versionOf (start.run sha256 runtimes events).db taskId = some v' ∧ v < v' := by
  obtain ⟨before, move, rest, read, task, rfl, hassigning, hheld, hactive, cluster, hreached, hchanged⟩ := h
  have hrun : start.run sha256 runtimes (before ++ .node i move :: rest) =
      rest.foldl (Cluster.step sha256 runtimes)
        ((start.run sha256 runtimes before).step sha256 runtimes (.node i move)) := List.foldl_append
  rw [hrun]
  generalize start.run sha256 runtimes before = assigning at *
  have hgiven : versionOf (assigning.step sha256 runtimes (.node i move)).db taskId =
      some task.leaseVersion := by
    change Function.update assigning.phase i _ i = _ at hheld
    rw [Function.update_self, hassigning] at hheld
    show versionOf ((runtimes i).step sha256 assigning.db (assigning.phase i) move).1 taskId = _
    rw [hassigning]
    exact version_of_assigned sha256 (runtimes i) assigning.db hheld
  obtain ⟨hsince, hlater⟩ := reached_related (R := fun c c' : Cluster ι => Grows c.db c'.db)
    (fun c => Grows.refl c.db) Grows.trans grows_step rest cluster hreached
  obtain ⟨v, hv, hle⟩ := hsince taskId task.leaseVersion hgiven
  obtain ⟨v', hv', hle'⟩ := hlater taskId v hv
  have hne : v ≠ task.leaseVersion := fun hsame => hchanged (hsame ▸ hv)
  refine ⟨task.leaseVersion, v', run_lease ?_ hactive, hv', by omega⟩
  rw [hheld]
  rfl

/-- A step of a node that a superseded lease, or a fenced worker, bars leaves every task alone. Kind: L -/
theorem untouched_of_barred {runtime : CustomWorkerRuntime} {db db' : Database} {phase : Phase}
    (hwrites : NodeWrites runtime db db' phase) {taskId : String}
    (hbarred : (∃ v v', phase.lease? = some (taskId, v) ∧ versionOf db taskId = some v' ∧ v < v') ∨
      db.workerStatus runtime.workerId ∈ ["FENCED", "OFFLINE"]) : Untouched db db' taskId := by
  cases hwrites with
  | nothing h => exact h taskId
  | started hworker hothers =>
    rcases hbarred with ⟨v, v', hlease, _⟩ | hstatus
    · cases hlease
    · simp_all
  | completed hworker hversion hothers hrunning =>
    rcases hbarred with ⟨v, v', hlease, hv', hlt⟩ | hstatus
    · cases hlease
      obtain rfl := Option.some.inj (hversion.symm.trans hv')
      exact absurd hlt (lt_irrefl _)
    · exact absurd hstatus hworker

/-- A step of a node whose worker is draining starts nothing, and completes what it holds. Kind: L -/
theorem held_of_draining {runtime : CustomWorkerRuntime} {db db' : Database} {phase : Phase}
    (hwrites : NodeWrites runtime db db' phase)
    (hdraining : db.workerStatus runtime.workerId ∈ ["DRAINING", "DRAINED"]) (taskId : String) :
    ¬ MovedTo db db' taskId .running ∧
      (Untouched db db' taskId ∨ ∃ v, phase.lease? = some (taskId, v) ∧ versionOf db taskId = some v) := by
  cases hwrites with
  | nothing h => exact ⟨(h taskId).running, Or.inl (h taskId)⟩
  | started hworker hothers =>
    exact absurd (List.mem_append_left ["FENCED", "OFFLINE"] hdraining) hworker
  | @completed moved task receipt hworker hversion hothers hrunning =>
    refine ⟨hrunning taskId, ?_⟩
    by_cases hkey : taskId = moved
    · subst hkey
      exact Or.inr ⟨task.leaseVersion, rfl, hversion⟩
    · exact Or.inl (hothers taskId hkey)

end

/-- **In every interleaving of worker nodes, each step of a node that is not an `update_task` fallback is
fenced.** Kind: P -/
theorem fenced_step_of_run (sha256 : String → String) (runtimes : ι → CustomWorkerRuntime) (start : Cluster ι)
    (events : List (ClusterEvent ι)) (i : ι) (move : Move)
    (h : ((start.run sha256 runtimes events).phase i).IsFallback = false) (taskId : String) :
    Fenced (start.run sha256 runtimes events).db
      (start.run sha256 runtimes (events ++ [.node i move])).db (runtimes i).workerId
      ((start.run sha256 runtimes events).phase i) (Superseded sha256 runtimes start events i taskId)
      taskId := by
  have hwrites : NodeWrites (runtimes i) (start.run sha256 runtimes events).db
      (start.run sha256 runtimes (events ++ [.node i move])).db
      ((start.run sha256 runtimes events).phase i) := by
    rw [show start.run sha256 runtimes (events ++ [.node i move]) =
      (start.run sha256 runtimes events).step sha256 runtimes (.node i move) from List.foldl_concat ..]
    exact step_nodeWrites sha256 (runtimes i) _ h move
  exact ⟨fun hbarred => untouched_of_barred hwrites (hbarred.imp_left superseded_version),
    fun hdraining => held_of_draining hwrites hdraining taskId⟩

/-- Two nodes. Kind: D -/
def twoNodes (i : Bool) : CustomWorkerRuntime := { workerId := if i then "w" else "v" }

/-- A node has a receipt for the task that it holds when its worker begins to drain. Kind: D -/
def drainingRun : List (ClusterEvent Bool) :=
  [.other (drawsAt 0) (.create queuedTask) trivial, .node true (.process "t"),
    .node true (.call (drawsAt 1) .returns), .node true (.call (drawsAt 2) .returns),
    .node true (.engine (.ok ⟨"r", "f", "VERIFIED"⟩)), .worker "w" { status := "DRAINING" }]

/-- The next step of that node is fenced: it completes the task that it holds. -/
theorem fenced_step_of_run_draining :
    Fenced (Cluster.run id twoNodes {} drainingRun).db
      (Cluster.run id twoNodes {} (drainingRun ++ [.node true (.call (drawsAt 3) .returns)])).db "w"
      ((Cluster.run id twoNodes {} drainingRun).phase true) (Superseded id twoNodes {} drainingRun true "t")
      "t" :=
  fenced_step_of_run id twoNodes {} drainingRun true (.call (drawsAt 3) .returns) (by decide +kernel) "t"

/-- A draining worker completes the task that it holds, and writes its receipt. -/
theorem draining_worker_completes :
    ¬ ((Cluster.run id twoNodes {} drainingRun).db.workerStatus "w" ∈ ["FENCED", "OFFLINE", "DRAINING"] →
      Untouched (Cluster.run id twoNodes {} drainingRun).db
        (Cluster.run id twoNodes {} (drainingRun ++ [.node true (.call (drawsAt 3) .returns)])).db "t") := by
  intro h
  have huntouched := h (by decide +kernel)
  exact huntouched.completed ⟨by decide +kernel, by decide +kernel⟩

end KarsaSec.Workers
