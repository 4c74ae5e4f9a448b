import KarsaSec.Persistence.Columns

/-!
# The two repositories side by side

`InMemoryTaskRepository` and `PostgresTaskRepository` are to accept the same calls and to make the same of
the state, the attempts and the lease version of a task.

* `Concordant` is the condition on a call.
* `InStep` is what holds between the two: a task has the same counters in both.
* `concord_create`, `concord_assign`, `concord_complete`, `concord_failure`: a call that is concordant is
  accepted by both or rejected by both, and keeps them in step.
-/

namespace KarsaSec.Persistence

open KarsaSec.Found KarsaSec.Workers KarsaSec.Events

/-! ## The repositories side by side -/

/-- A call with the clock that the repository in memory reads, and what the database draws. Kind: D -/
structure TimedCall where
  now : ℚ
  draws : Draws
  op : TaskOp

/-- Both repositories. Kind: D -/
structure Repositories where
  memory : InMemoryTaskRepository := {}
  database : Database := {}

/-- Both repositories after the same call. Kind: D -/
def Repositories.step (sha256 : String → String) (r : Repositories) (call : TimedCall) : Repositories :=
  { memory := (r.memory.call call.now call.op).1
    database := r.database.step sha256 (.call call.draws call.op) }

/-- The call is accepted by both or rejected by both. Kind: D -/
def SameAnswer (sha256 : String → String) (r : Repositories) (call : TimedCall) : Prop :=
  (r.memory.call call.now call.op).2 = none ↔
    (r.database.call sha256 call.draws call.op).toOption.isSome = true

/-- Each task has the same state, attempts and lease version in both. Kind: D -/
def SameTasks (r : Repositories) : Prop :=
  ∀ taskId, (r.memory.tasks.get? taskId).map (fun task => (task.state.value, task.attempts, task.leaseVersion)) =
    (r.database.tasks.get? taskId).map fun row => (row.state, row.attempts, row.leaseVersion)

/-! ## Concordant calls -/

/-- What the database draws is new. Kind: D -/
structure Fresh (db : Database) (draws : Draws) : Prop where
  audit : draws.auditId ∉ db.audit.map AuditRow.id
  event : "evt_" ++ draws.eventHex ∉ db.outbox.map OutboxRow.eventId
  letter : "dlq_" ++ draws.letterHex ∉ db.deadLetters.map DeadLetterRow.eventId

/-- An argument that leaves the counters of a task. Kind: D -/
def Leaves (row : TaskRow) (current : TaskState) (arg : TaskArg) : Prop :=
  Neutral current row.attempts row.maxAttempts arg ∧ ∀ v, arg = .leaseVersion v → v = row.leaseVersion

/-- A transition of a task that matches: both reject it, or the state machine allows it, it names a lease
version, the columns hold what it gives, and its arguments are attributes in memory that set no other counters.
Kind: D -/
def ConcordantTransition (taskId : String) (row : TaskRow) (current : TaskState)
    (expectedStates : List TaskState) (newState : TaskState) (args : TaskArgs) : Prop :=
  (newState ∉ current.allowedTransitions ∧ resurrects expectedStates newState = true) ∨
    (newState ∈ current.allowedTransitions ∧ resurrects expectedStates newState = false ∧
      args.leaseVersion?.isSome ∧
      TransitionFits taskId row newState (nextLeaseVersion row.leaseVersion args) args ∧
      ∀ arg ∈ args.entries, onTask arg = true ∧
        Neutral newState (attemptsAfter row newState) row.maxAttempts arg)

/-- An update with a state: both reject it, and it leaves the counters in memory, or the state machine allows
it, it names a lease version, the columns hold what it gives, and its arguments are attributes in memory that set
no other counters, neither before nor after the transition. Kind: D -/
def ConcordantUpdate (taskId : String) (row : TaskRow) (current newState : TaskState) (args : TaskArgs) : Prop :=
  (resurrects [current] newState = true ∧ ∀ arg ∈ args.entries, Leaves row current arg) ∨
    (newState ∈ current.allowedTransitions ∧ args.leaseVersion?.isSome ∧
      TransitionFits taskId row newState (nextLeaseVersion row.leaseVersion args.popState) args.popState ∧
      ∀ arg ∈ args.entries, onTask arg = true ∧ Neutral current row.attempts row.maxAttempts arg ∧
        Neutral newState (attemptsAfter row newState) row.maxAttempts arg)

/-- An update without a state: its arguments are attributes of both and their columns hold them, or each of the
two lacks one and it leaves the counters. Kind: D -/
def ConcordantFields (row : TaskRow) (current : TaskState) (args : TaskArgs) : Prop :=
  (∀ arg ∈ args.entries, onTask arg = true ∧ onModel arg = true ∧ argFits arg = true) ∨
    ((∃ arg ∈ args.entries, onTask arg = false) ∧ (∃ arg ∈ args.entries, onModel arg = false) ∧
      ∀ arg ∈ args.entries, Leaves row current arg)

/-- The condition on a call: what is drawn is new; the columns hold what an accepted call is given, the version
it leads to and the key of its event; a task that is assigned is not pending with attempts left; a running task is
completed, or fails, by no other worker than the one it is assigned to. Kind: D -/
def Concordant (db : Database) (call : TimedCall) : Prop :=
  Fresh db call.draws ∧
    match call.op with
    | .create task => db.tasks.get? task.taskId = none →
        (TaskRow.ofTask task).fits task.taskId = true ∧ fitsString 128 (createdKey task.taskId) = true
    | .update taskId args => ∀ row current, db.tasks.get? taskId = some row → row.state = current.value →
        match args.state? with
        | some newState => ConcordantUpdate taskId row current newState args
        | none => ConcordantFields row current args
    | .transition taskId expectedLeaseVersion expectedStates newState args => ∀ row current,
        db.tasks.get? taskId = some row → row.state = current.value →
          row.leaseVersion = expectedLeaseVersion → current ∈ expectedStates →
            ConcordantTransition taskId row current expectedStates newState args
    | .assign taskId workerId => ∀ row, db.tasks.get? taskId = some row →
        (row.state = TaskState.pending.value → row.maxAttempts ≤ row.attempts) ∧
          (row.state = TaskState.queued.value → row.attempts < row.maxAttempts →
            WorkerFits "assigned" taskId workerId (db.workerToken workerId) (row.leaseVersion + 1))
    | .complete taskId expectedLeaseVersion workerId token receiptId receiptFingerprint
        securityVerificationStatus => ∀ row, db.tasks.get? taskId = some row →
        row.leaseVersion = expectedLeaseVersion → row.state = TaskState.running.value →
          assignedElsewhere row workerId = false ∧
            WorkerFits "completed" taskId workerId token (expectedLeaseVersion + 1) ∧
            receiptId.all (fitsString 128) = true ∧ receiptFingerprint.all (fitsString 64) = true ∧
            securityVerificationStatus.all (fitsString 64) = true
    | .failure taskId expectedLeaseVersion workerId token errorMessage => ∀ row,
        db.tasks.get? taskId = some row → row.leaseVersion = expectedLeaseVersion →
          row.state = TaskState.running.value → assignedElsewhere row workerId = false ∧
            WorkerFits (if row.maxAttempts ≤ row.attempts then "failure" else "transition") taskId workerId token
              (expectedLeaseVersion + 1) ∧ fitsText errorMessage = true

/-! ## In step -/

/-- A task and its row have the same counters. Kind: D -/
structure SameTask (task : RemediationTask) (row : TaskRow) : Prop where
  state : row.state = task.state.value
  attempts : row.attempts = task.attempts
  maxAttempts : row.maxAttempts = task.maxAttempts
  leaseVersion : row.leaseVersion = task.leaseVersion

/-- Each task has the same counters in both, its row fits, no worker has a row, and a task with a dead letter has
failed. Kind: D -/
structure InStep (r : Repositories) : Prop where
  same : ∀ taskId, Option.Rel SameTask (r.memory.tasks.get? taskId) (r.database.tasks.get? taskId)
  stored : ∀ taskId row, r.database.tasks.get? taskId = some row → row.fits taskId = true
  noWorkers : r.database.workers = Dict.empty
  buried : ∀ taskId ∈ r.database.deadLetters.map DeadLetterRow.taskId, ∃ row,
    r.database.tasks.get? taskId = some row ∧ row.state = TaskState.failed.value

theorem inStep_init : InStep {} :=
  ⟨fun _ => Option.Rel.none, fun _ _ h => (nomatch h), rfl, fun _ h => absurd h List.not_mem_nil⟩

variable {sha256 : String → String} {r : Repositories} {taskId : String} {task : RemediationTask}
  {row : TaskRow} {draws : Draws} {now : ℚ}

theorem InStep.sameTasks (h : InStep r) : SameTasks r := by
  intro taskId
  have hsame := h.same taskId
  revert hsame
  generalize r.memory.tasks.get? taskId = stored
  generalize r.database.tasks.get? taskId = found
  intro hsame
  cases hsame with
  | none => rfl
  | some hsame =>
    rw [Option.map_some, Option.map_some, hsame.state, hsame.attempts, hsame.leaseVersion]

/-- A task is in neither, or in both with the same counters. Kind: L -/
theorem InStep.found (h : InStep r) (taskId : String) :
    (r.memory.tasks.get? taskId = none ∧ r.database.tasks.get? taskId = none) ∨
      ∃ task row, r.memory.tasks.get? taskId = some task ∧ r.database.tasks.get? taskId = some row ∧
        SameTask task row := by
  have hsame := h.same taskId
  rcases hmem : r.memory.tasks.get? taskId with _ | task <;>
    rcases hdb : r.database.tasks.get? taskId with _ | row <;> rw [hmem, hdb] at hsame <;> cases hsame
  · exact Or.inl ⟨rfl, rfl⟩
  · exact Or.inr ⟨task, row, rfl, rfl, ‹_›⟩

theorem rel_set (h : InStep r) (hsame : SameTask task row) (other : String) :
    Option.Rel SameTask ((r.memory.put taskId task).tasks.get? other)
      ((r.database.tasks.set taskId row).get? other) := by
  unfold InMemoryTaskRepository.put
  rw [Dict.get?_set, Dict.get?_set]
  split
  · exact Option.Rel.some hsame
  · exact h.same other

theorem stored_set (h : InStep r) (hfits : row.fits taskId = true) (other : String) (old : TaskRow)
    (hold : (r.database.tasks.set taskId row).get? other = some old) : old.fits other = true := by
  rw [Dict.get?_set] at hold
  split at hold
  · rename_i hid
    cases hold
    exact hid ▸ hfits
  · exact h.stored other old hold

/-- The same counters set in both; a failed task stays so. Kind: L -/
theorem InStep.set (h : InStep r) (hsame : SameTask task row) (hfits : row.fits taskId = true)
    (hfailed : ∀ old, r.database.tasks.get? taskId = some old → old.state = TaskState.failed.value →
      row.state = TaskState.failed.value) (audit : List AuditRow) (outbox : List OutboxRow) :
    InStep ⟨r.memory.put taskId task,
      { r.database with tasks := r.database.tasks.set taskId row, audit := audit, outbox := outbox }⟩ := by
  refine ⟨rel_set h hsame, stored_set h hfits, h.noWorkers, fun other hother => ?_⟩
  obtain ⟨old, hold, hstate⟩ := h.buried other hother
  by_cases hid : other = taskId
  · simp_all
  · exact ⟨old, (Dict.get?_set_ne _ hid _).trans hold, hstate⟩

/-- A task that fails for good, with its dead letter. Kind: L -/
theorem InStep.bury (h : InStep r) (hsame : SameTask task row) (hfits : row.fits taskId = true)
    (hfailed : row.state = TaskState.failed.value) {letter : DeadLetterRow} (hletter : letter.taskId = taskId)
    (audit : List AuditRow) (outbox : List OutboxRow) :
    InStep ⟨r.memory.put taskId task,
      { r.database with
        tasks := r.database.tasks.set taskId row, audit := audit, outbox := outbox
        deadLetters := r.database.deadLetters ++ [letter] }⟩ := by
  refine ⟨rel_set h hsame, stored_set h hfits, h.noWorkers, fun other hother => ?_⟩
  by_cases hid : other = taskId
  · simp_all
  · rw [List.map_append] at hother
    rcases List.mem_append.mp hother with hother | hother
    · obtain ⟨old, hold, hstate⟩ := h.buried other hother
      exact ⟨old, (Dict.get?_set_ne _ hid _).trans hold, hstate⟩
    · simp_all

/-- A task in memory that keeps its counters. Kind: L -/
theorem InStep.touch (h : InStep r) (hfound : r.database.tasks.get? taskId = some row)
    (hsame : SameTask task row) : InStep ⟨r.memory.put taskId task, r.database⟩ := by
  refine ⟨fun other => ?_, h.stored, h.noWorkers, h.buried⟩
  unfold InMemoryTaskRepository.put
  rw [Dict.get?_set]
  split
  · simp_all
  · exact h.same other

/-- A call that both accept or both reject, and that keeps them in step. Kind: D -/
inductive Concord (sha256 : String → String) (r : Repositories) (call : TimedCall) : Prop
  | accepted (memory : InMemoryTaskRepository) (database : Database) (task : RemediationTask)
      (hmem : r.memory.call call.now call.op = (memory, none))
      (hdb : r.database.call sha256 call.draws call.op = .ok (database, task))
      (h : InStep ⟨memory, database⟩)
  | rejected (memory : InMemoryTaskRepository) (e e' : TaskError)
      (hmem : r.memory.call call.now call.op = (memory, some e))
      (hdb : r.database.call sha256 call.draws call.op = .error e') (h : InStep ⟨memory, r.database⟩)

/-- A commit with new draws, of rows that fit, succeeds. Kind: L -/
theorem commit_succeeds {db : Database} (hid : draws.auditId ∉ db.audit.map AuditRow.id)
    (hevent : "evt_" ++ draws.eventHex ∉ db.outbox.map OutboxRow.eventId) (taskId : String) (row : TaskRow)
    (state : TaskState) (hstate : row.state = state.value) (entry : Transition) (staged : Staged)
    (hholds : db.holds taskId row entry staged = true) :
    ∃ audit outbox task, db.commit sha256 draws taskId row entry staged =
      .ok ({ db with tasks := db.tasks.set taskId row, audit := audit, outbox := outbox }, task) := by
  have haudit : TaskAuditLedger.recordTransition sha256 draws db.audit entry =
      .ok (db.audit ++ [TaskAuditLedger.newRow sha256 draws db.audit entry]) := if_neg hid
  obtain ⟨outbox, houtbox⟩ : ∃ outbox, TransactionalOutbox.stageEvent draws db.outbox staged = .ok outbox := by
    unfold TransactionalOutbox.stageEvent
    rw [if_neg hevent]
    split
    · exact ⟨_, rfl⟩
    · exact ⟨_, rfl⟩
  obtain ⟨task, htask⟩ : ∃ task, row.toDomain taskId = .ok task := by
    unfold TaskRow.toDomain
    rw [hstate, TaskState.ofValue_value]
    exact ⟨_, rfl⟩
  refine ⟨db.audit ++ [TaskAuditLedger.newRow sha256 draws db.audit entry], outbox, task, ?_⟩
  unfold Database.commit
  rw [hholds, haudit, houtbox, htask]
  rfl

theorem concord_create (h : InStep r) (hfresh : Fresh r.database draws) (task : RemediationTask)
    (hcondition : r.database.tasks.get? task.taskId = none →
      (TaskRow.ofTask task).fits task.taskId = true ∧ fitsString 128 (createdKey task.taskId) = true) :
    Concord sha256 r ⟨now, draws, .create task⟩ := by
  rcases h.found task.taskId with ⟨hmem, hdb⟩ | ⟨stored, row, hmem, hdb, _⟩
  · have hcontains : r.memory.tasks.contains task.taskId = false := congrArg Option.isSome hmem
    have hcontains' : r.database.tasks.contains task.taskId = false := congrArg Option.isSome hdb
    obtain ⟨hfits, hkey⟩ := hcondition hdb
    obtain ⟨audit, outbox, committed, hcommit⟩ := commit_succeeds hfresh.audit hfresh.event task.taskId
      (TaskRow.ofTask task) task.state rfl (createdEntry task) (createdEvent task) (holds_create hfits hkey)
    refine .accepted _ _ committed (if_neg ?_) ((if_neg ?_).trans hcommit)
      (h.set ⟨rfl, rfl, rfl, rfl⟩ hfits (fun old hold => ?_) audit outbox)
    · rw [hcontains]
      exact Bool.false_ne_true
    · rw [hcontains']
      exact Bool.false_ne_true
    · rw [hdb] at hold
      cases hold
  · have hcontains : r.memory.tasks.contains task.taskId = true := congrArg Option.isSome hmem
    have hcontains' : r.database.tasks.contains task.taskId = true := congrArg Option.isSome hdb
    exact .rejected r.memory _ _ (if_pos hcontains) (if_pos hcontains') h

/-! ## Workers -/

theorem workerStatus_noWorkers {db : Database} (h : db.workers = Dict.empty) (workerId : String) :
    db.workerStatus workerId = "ONLINE" := by
  unfold Database.workerStatus
  rw [h]
  rfl

theorem workerFenced_noWorkers {db : Database} (h : db.workers = Dict.empty) (taskId workerId : String)
    (token : ℤ) : db.workerFenced taskId workerId token = none := by
  unfold Database.workerFenced
  rw [h]
  rfl

theorem mem_terminalValues {state : TaskState} : state.value ∈ terminalValues ↔ state ∈ TaskState.terminal := by
  cases state <;> decide

theorem value_eq {state state' : TaskState} : state.value = state'.value ↔ state = state' :=
  ⟨fun h => TaskState.value_injective h, congrArg _⟩

theorem concord_assign (h : InStep r) (hfresh : Fresh r.database draws) (workerId : String)
    (hcondition : ∀ row, r.database.tasks.get? taskId = some row →
      (row.state = TaskState.pending.value → row.maxAttempts ≤ row.attempts) ∧
        (row.state = TaskState.queued.value → row.attempts < row.maxAttempts →
          WorkerFits "assigned" taskId workerId (r.database.workerToken workerId) (row.leaseVersion + 1))) :
    Concord sha256 r ⟨now, draws, .assign taskId workerId⟩ := by
  have hstatus : r.database.workerStatus workerId ∉ ["DRAINING", "DRAINED", "FENCED", "OFFLINE"] := by
    rw [workerStatus_noWorkers h.noWorkers]
    decide
  have hcall : r.database.call sha256 draws (.assign taskId workerId) =
      r.database.assignTask sha256 draws taskId workerId := rfl
  have hcall' : r.memory.call now (.assign taskId workerId) = r.memory.assignTask now taskId workerId := rfl
  unfold Database.assignTask at hcall
  unfold InMemoryTaskRepository.assignTask at hcall'
  dsimp only at hcall
  rw [if_neg hstatus] at hcall
  rcases h.found taskId with ⟨hmem, hdb⟩ | ⟨task, row, hmem, hdb, hsame⟩
  · rw [hmem] at hcall'
    rw [hdb] at hcall
    exact .rejected _ _ _ hcall' hcall h
  · rw [hmem] at hcall'
    rw [hdb] at hcall
    dsimp only at hcall hcall'
    rw [hsame.state, hsame.attempts, hsame.maxAttempts] at hcall
    by_cases hterminal : task.state ∈ TaskState.terminal
    · rw [if_pos hterminal] at hcall'
      rw [if_pos (mem_terminalValues.mpr hterminal)] at hcall
      exact .rejected _ _ _ hcall' hcall h
    rw [if_neg hterminal] at hcall'
    rw [if_neg (fun hmem => hterminal (mem_terminalValues.mp hmem))] at hcall
    by_cases hattempts : task.maxAttempts ≤ task.attempts
    · rw [if_pos hattempts] at hcall hcall'
      exact .rejected _ _ _ hcall' hcall h
    rw [if_neg hattempts] at hcall hcall'
    by_cases hqueued : task.state = .queued
    · have hstart : task.transitionTo now .running = .ok (task.enter now .running) :=
        if_pos (by rw [hqueued]; decide)
      have hleft : row.attempts < row.maxAttempts := by
        rw [hsame.attempts, hsame.maxAttempts]
        exact not_le.mp hattempts
      have hworker := (hcondition row hdb).2 (hsame.state.trans (congrArg _ hqueued)) hleft
      have hfits := assignedRow_fits (h.stored taskId row hdb) hleft hworker
      obtain ⟨audit, outbox, committed, hcommit⟩ := commit_succeeds hfresh.audit hfresh.event taskId
        (assignedRow row workerId (r.database.workerToken workerId)) .running rfl
        (workerEntry taskId row .running workerId (r.database.workerToken workerId) (row.leaseVersion + 1)
          "TASK_ASSIGNED")
        (workerEvent taskId "TASK_ASSIGNED" "assigned" (row.leaseVersion + 1))
        (holds_worker (h.stored taskId row hdb) hfits hworker (by decide) (by decide))
      rw [if_neg (by rw [hqueued]; decide)] at hcall hcall'
      rw [hstart] at hcall'
      have hnext : SameTask (task.enter now .running).incrementLeaseVersion
          (assignedRow row workerId (r.database.workerToken workerId)) :=
        ⟨rfl, congrArg (· + 1) hsame.attempts, hsame.maxAttempts, congrArg (· + 1) hsame.leaseVersion⟩
      refine .accepted _ _ committed hcall' (hcall.trans hcommit)
        (h.set hnext hfits (fun old hold hfailed => ?_) _ _)
      cases hdb.symm.trans hold
      rw [hsame.state, hqueued] at hfailed
      exact absurd hfailed (by decide)
    · have hother : task.state ∉ [TaskState.queued, TaskState.pending] := by
        intro hmem
        rcases List.mem_cons.mp hmem with hstate | hstate
        · exact hqueued hstate
        · have hrow := (hcondition row hdb).1 (hsame.state.trans (congrArg _ (List.mem_singleton.mp hstate)))
          rw [hsame.attempts, hsame.maxAttempts] at hrow
          exact hattempts hrow
      have hother' : task.state.value ∉ [TaskState.queued.value, TaskState.pending.value] := by simp_all [value_eq]
      rw [if_pos hother] at hcall'
      rw [if_pos hother'] at hcall
      exact .rejected _ _ _ hcall' hcall h

/-- A task that is not there, has another version or is not running. Kind: D -/
def NotMutable (memory : InMemoryTaskRepository) (taskId : String) (expectedLeaseVersion : ℤ) : Prop :=
  memory.tasks.get? taskId = none ∨ ∃ task, memory.tasks.get? taskId = some task ∧
    (task.leaseVersion ≠ expectedLeaseVersion ∨ task.state ≠ .running)

/-- A running task is changed by both with the version that it has, by the worker it is assigned to; else both
reject. Kind: L -/
theorem mutable_cases (h : InStep r) (taskId : String) (expectedLeaseVersion : ℤ) (workerId : String) (token : ℤ)
    (notRunning : String → String)
    (hassigned : ∀ row, r.database.tasks.get? taskId = some row → row.leaseVersion = expectedLeaseVersion →
      row.state = TaskState.running.value → assignedElsewhere row workerId = false) :
    (∃ e, r.database.mutableRow taskId expectedLeaseVersion workerId token notRunning = .error e ∧
      NotMutable r.memory taskId expectedLeaseVersion) ∨
      ∃ task row, r.memory.tasks.get? taskId = some task ∧ r.database.tasks.get? taskId = some row ∧
        SameTask task row ∧ task.leaseVersion = expectedLeaseVersion ∧ task.state = .running ∧
        r.database.mutableRow taskId expectedLeaseVersion workerId token notRunning = .ok row := by
  unfold Database.mutableRow
  rw [workerFenced_noWorkers h.noWorkers]
  dsimp only
  rcases h.found taskId with ⟨hmem, hdb⟩ | ⟨task, row, hmem, hdb, hsame⟩
  · rw [hdb]
    exact Or.inl ⟨_, rfl, Or.inl hmem⟩
  · rw [hdb]
    dsimp only
    by_cases hmatch : task.leaseVersion = expectedLeaseVersion ∧ task.state = .running
    · obtain ⟨hversion, hrunning⟩ := hmatch
      have hversion' : row.leaseVersion = expectedLeaseVersion := hsame.leaseVersion.trans hversion
      have hrunning' : row.state = TaskState.running.value := hsame.state.trans (congrArg _ hrunning)
      rw [hassigned row hdb hversion' hrunning', if_neg Bool.false_ne_true, if_neg (not_not.mpr hversion'),
        if_neg (not_not.mpr hrunning')]
      exact Or.inr ⟨task, row, hmem, rfl, hsame, hversion, hrunning, rfl⟩
    · refine Or.inl ?_
      have hside : task.leaseVersion ≠ expectedLeaseVersion ∨ task.state ≠ .running := by grind
      by_cases helsewhere : assignedElsewhere row workerId = true
      · rw [if_pos helsewhere]
        exact ⟨_, rfl, Or.inr ⟨task, hmem, hside⟩⟩
      · rw [if_neg helsewhere]
        by_cases hversion : row.leaseVersion = expectedLeaseVersion
        · have hnot : row.state ≠ TaskState.running.value := fun hrunning =>
            hmatch ⟨hsame.leaseVersion.symm.trans hversion, value_eq.mp (hsame.state.symm.trans hrunning)⟩
          rw [if_neg (not_not.mpr hversion), if_pos hnot]
          exact ⟨_, rfl, Or.inr ⟨task, hmem, hside⟩⟩
        · rw [if_pos hversion]
          exact ⟨_, rfl, Or.inr ⟨task, hmem, hside⟩⟩

theorem completeTask_rejects {memory : InMemoryTaskRepository} {expectedLeaseVersion : ℤ}
    (h : NotMutable memory taskId expectedLeaseVersion)
    (receiptId receiptFingerprint securityVerificationStatus : Option String) :
    ∃ e, memory.completeTask now taskId expectedLeaseVersion receiptId receiptFingerprint
      securityVerificationStatus = (memory, some e) := by
  unfold InMemoryTaskRepository.completeTask
  rcases h with hnone | ⟨task, hsome, hside⟩
  · rw [hnone]
    exact ⟨_, rfl⟩
  · rw [hsome]
    dsimp only
    by_cases hversion : task.leaseVersion = expectedLeaseVersion
    · simp_all
    · rw [if_pos hversion]
      exact ⟨_, rfl⟩

theorem recordExecutionFailure_rejects {memory : InMemoryTaskRepository} {expectedLeaseVersion : ℤ}
    (h : NotMutable memory taskId expectedLeaseVersion) (errorMessage : String) :
    ∃ e, memory.recordExecutionFailure now taskId expectedLeaseVersion errorMessage = (memory, some e) := by
  unfold InMemoryTaskRepository.recordExecutionFailure
  rcases h with hnone | ⟨task, hsome, hside⟩
  · rw [hnone]
    exact ⟨_, rfl⟩
  · rw [hsome]
    dsimp only
    by_cases hversion : task.leaseVersion = expectedLeaseVersion
    · simp_all
    · rw [if_pos hversion]
      exact ⟨_, rfl⟩

theorem concord_complete (h : InStep r) (hfresh : Fresh r.database draws) (expectedLeaseVersion : ℤ)
    (workerId : String) (token : ℤ) (receiptId receiptFingerprint securityVerificationStatus : Option String)
    (hcondition : ∀ row, r.database.tasks.get? taskId = some row → row.leaseVersion = expectedLeaseVersion →
      row.state = TaskState.running.value → assignedElsewhere row workerId = false ∧
        WorkerFits "completed" taskId workerId token (expectedLeaseVersion + 1) ∧
        receiptId.all (fitsString 128) = true ∧ receiptFingerprint.all (fitsString 64) = true ∧
        securityVerificationStatus.all (fitsString 64) = true) :
    Concord sha256 r ⟨now, draws, .complete taskId expectedLeaseVersion workerId token receiptId
      receiptFingerprint securityVerificationStatus⟩ := by
  have hcall : r.database.call sha256 draws (.complete taskId expectedLeaseVersion workerId token receiptId
      receiptFingerprint securityVerificationStatus) = r.database.completeTask sha256 draws taskId
        expectedLeaseVersion workerId token receiptId receiptFingerprint securityVerificationStatus := rfl
  have hcall' : r.memory.call now (.complete taskId expectedLeaseVersion workerId token receiptId
      receiptFingerprint securityVerificationStatus) = r.memory.completeTask now taskId expectedLeaseVersion
        receiptId receiptFingerprint securityVerificationStatus := rfl
  unfold Database.completeTask at hcall
  rcases mutable_cases h taskId expectedLeaseVersion workerId token _
      (fun row hdb hversion hrunning => (hcondition row hdb hversion hrunning).1) with
    ⟨e, hrow, hside⟩ | ⟨task, row, hmem, hdb, hsame, hversion, hrunning, hrow⟩
  · obtain ⟨e', hrejected⟩ := completeTask_rejects hside receiptId receiptFingerprint
      securityVerificationStatus
    rw [hrow] at hcall
    exact .rejected _ e' e (hcall'.trans hrejected) hcall h
  · have hfinish : task.transitionTo now .completed = .ok (task.enter now .completed) :=
      if_pos (by rw [hrunning]; decide)
    obtain ⟨_, hworker, hreceipt, hfingerprint, hstatus⟩ := hcondition row hdb
      (hsame.leaseVersion.trans hversion) (hsame.state.trans (congrArg _ hrunning))
    have hfits := completedRow_fits (h.stored taskId row hdb) hworker.version.number hreceipt hfingerprint hstatus
    obtain ⟨audit, outbox, committed, hcommit⟩ := commit_succeeds hfresh.audit hfresh.event taskId
      (completedRow row (expectedLeaseVersion + 1) receiptId receiptFingerprint securityVerificationStatus)
      .completed rfl
      (workerEntry taskId row .completed workerId token (expectedLeaseVersion + 1) "TASK_COMPLETED")
      (workerEvent taskId "TASK_COMPLETED" "completed" (expectedLeaseVersion + 1))
      (holds_worker (h.stored taskId row hdb) hfits hworker (by decide) (by decide))
    have hnext : SameTask
        { (task.enter now .completed).incrementLeaseVersion with
          receiptId := givenOr receiptId task.receiptId
          receiptFingerprint := givenOr receiptFingerprint task.receiptFingerprint
          securityVerificationStatus := givenOr securityVerificationStatus task.securityVerificationStatus }
        (completedRow row (expectedLeaseVersion + 1) receiptId receiptFingerprint
          securityVerificationStatus) :=
      ⟨rfl, hsame.attempts, hsame.maxAttempts, congrArg (· + 1) hversion.symm⟩
    unfold InMemoryTaskRepository.completeTask at hcall'
    rw [hrow] at hcall
    rw [hmem] at hcall'
    dsimp only at hcall'
    rw [if_neg (not_not.mpr hversion), if_neg (not_not.mpr hrunning), hfinish] at hcall'
    refine .accepted _ _ committed hcall' (hcall.trans hcommit)
      (h.set hnext hfits (fun old hold hfailed => ?_) _ _)
    cases hdb.symm.trans hold
    rw [hsame.state, hrunning] at hfailed
    exact absurd hfailed (by decide)

theorem concord_failure (h : InStep r) (hfresh : Fresh r.database draws) (expectedLeaseVersion : ℤ)
    (workerId : String) (token : ℤ) (errorMessage : String)
    (hcondition : ∀ row, r.database.tasks.get? taskId = some row → row.leaseVersion = expectedLeaseVersion →
      row.state = TaskState.running.value → assignedElsewhere row workerId = false ∧
        WorkerFits (if row.maxAttempts ≤ row.attempts then "failure" else "transition") taskId workerId token
          (expectedLeaseVersion + 1) ∧ fitsText errorMessage = true) :
    Concord sha256 r ⟨now, draws, .failure taskId expectedLeaseVersion workerId token errorMessage⟩ := by
  have hcall : r.database.call sha256 draws (.failure taskId expectedLeaseVersion workerId token errorMessage) =
      r.database.recordExecutionFailure sha256 draws taskId expectedLeaseVersion workerId token
        errorMessage := rfl
  have hcall' : r.memory.call now (.failure taskId expectedLeaseVersion workerId token errorMessage) =
      r.memory.recordExecutionFailure now taskId expectedLeaseVersion errorMessage := rfl
  unfold Database.recordExecutionFailure at hcall
  rcases mutable_cases h taskId expectedLeaseVersion workerId token _
      (fun row hdb hversion hrunning => (hcondition row hdb hversion hrunning).1) with
    ⟨e, hrow, hside⟩ | ⟨task, row, hmem, hdb, hsame, hversion, hrunning, hrow⟩
  · obtain ⟨e', hrejected⟩ := recordExecutionFailure_rejects hside errorMessage
    rw [hrow] at hcall
    exact .rejected _ e' e (hcall'.trans hrejected) hcall h
  have hnotFailed : ∀ old, r.database.tasks.get? taskId = some old → old.state ≠ TaskState.failed.value := by
    intro old hold
    cases hdb.symm.trans hold
    rw [hsame.state, hrunning]
    decide
  obtain ⟨_, hworker, hmessage⟩ := hcondition row hdb (hsame.leaseVersion.trans hversion)
    (hsame.state.trans (congrArg _ hrunning))
  unfold InMemoryTaskRepository.recordExecutionFailure at hcall'
  rw [hrow] at hcall
  rw [hmem] at hcall'
  dsimp only at hcall hcall'
  rw [if_neg (not_not.mpr hversion), if_neg (not_not.mpr hrunning)] at hcall'
  rw [hsame.attempts, hsame.maxAttempts] at hcall hworker
  have hstored := h.stored taskId row hdb
  by_cases hattempts : task.maxAttempts ≤ task.attempts
  · rw [if_pos hattempts] at hworker
    have hfits := failedRow_fits hstored hworker.version.number hmessage
    have hfinish : ({ task with errorMessage := some errorMessage } : RemediationTask).transitionTo now .failed =
        .ok (({ task with errorMessage := some errorMessage } : RemediationTask).enter now .failed) :=
      if_pos (by rw [hrunning]; decide)
    have hunburied : taskId ∉ r.database.deadLetters.map DeadLetterRow.taskId := fun hmem => by
      obtain ⟨old, hold, hfailed⟩ := h.buried taskId hmem
      exact hnotFailed old hold hfailed
    have hbury : r.database.bury (deadLetter draws taskId row workerId errorMessage) =
        .ok { r.database with
          deadLetters := r.database.deadLetters ++ [deadLetter draws taskId row workerId errorMessage] } :=
      (if_neg hunburied).trans (if_neg hfresh.letter)
    have hnext : SameTask
        (({ task with errorMessage := some errorMessage } : RemediationTask).enter now
          .failed).incrementLeaseVersion (failedRow row (expectedLeaseVersion + 1) errorMessage) :=
      ⟨rfl, hsame.attempts, hsame.maxAttempts, congrArg (· + 1) hversion.symm⟩
    obtain ⟨audit, outbox, committed, hcommit⟩ :=
      @commit_succeeds sha256 draws
        { r.database with
          deadLetters := r.database.deadLetters ++ [deadLetter draws taskId row workerId errorMessage] }
        hfresh.audit hfresh.event taskId (failedRow row (expectedLeaseVersion + 1) errorMessage) .failed rfl
        (workerEntry taskId row .failed workerId token (expectedLeaseVersion + 1) "TASK_FAILED")
        (workerEvent taskId "TASK_FAILED" "failure" (expectedLeaseVersion + 1))
        (holds_worker hstored hfits hworker (by decide) (by decide))
    rw [if_pos hattempts, hfinish] at hcall'
    rw [if_pos hattempts, hbury] at hcall
    exact .accepted _ _ committed hcall' (hcall.trans hcommit)
      (h.bury hnext hfits rfl (show (deadLetter draws taskId row workerId errorMessage).taskId = taskId from rfl) _ _)
  · rw [if_neg hattempts] at hworker
    have hfits := retriedRow_fits hstored hworker.version.number hmessage
    have hretry : ({ task with errorMessage := some errorMessage } : RemediationTask).transitionTo now .queued =
        .ok (({ task with errorMessage := some errorMessage } : RemediationTask).enter now .queued) :=
      if_pos (by rw [hrunning]; decide)
    have hnext : SameTask
        (({ task with errorMessage := some errorMessage } : RemediationTask).enter now
          .queued).incrementLeaseVersion (retriedRow row (expectedLeaseVersion + 1) errorMessage) :=
      ⟨rfl, hsame.attempts, hsame.maxAttempts, congrArg (· + 1) hversion.symm⟩
    obtain ⟨audit, outbox, committed, hcommit⟩ := commit_succeeds hfresh.audit hfresh.event taskId
      (retriedRow row (expectedLeaseVersion + 1) errorMessage) .queued rfl
      (workerEntry taskId row .queued workerId token (expectedLeaseVersion + 1) "TASK_RETRIED")
      (workerEvent taskId "TASK_RETRIED" "transition" (expectedLeaseVersion + 1))
      (holds_worker hstored hfits hworker (by decide) (by decide))
    rw [if_neg hattempts, hretry] at hcall'
    rw [if_neg hattempts] at hcall
    exact .accepted _ _ committed hcall' (hcall.trans hcommit)
      (h.set hnext hfits (fun old hold hfailed => absurd hfailed (hnotFailed old hold)) _ _)

end KarsaSec.Persistence
