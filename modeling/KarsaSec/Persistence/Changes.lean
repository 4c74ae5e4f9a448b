import KarsaSec.Persistence.TaskRepository

/-!
# What a call writes

* `Moves db op taskId before row entry staged`: the call `op` moves a task from its row `before` (`none`
  when it is new) to `row`, and reports it by `entry` and `staged`. Each constructor carries what the call has
  checked.
* `Recorded` is what is in the tables after such a move.
* `call_cases`: a call that does not raise moves a task, or sets fields of one and reports nothing.
-/

namespace KarsaSec.Persistence

open KarsaSec.Found KarsaSec.Workers KarsaSec.Events

/-- The tables after a move: its row, its audit row, and its event unless the key was there. Kind: D -/
structure Recorded (sha256 : String → String) (draws : Draws) (db db' : Database) (taskId : String)
    (row : TaskRow) (entry : Transition) (staged : Staged) : Prop where
  fresh : draws.auditId ∉ db.audit.map AuditRow.id
  tasks : db'.tasks = db.tasks.set taskId row
  workers : db'.workers = db.workers
  audit : db'.audit = db.audit ++ [TaskAuditLedger.newRow sha256 draws db.audit entry]
  outbox : TransactionalOutbox.stageEvent draws db.outbox staged = .ok db'.outbox

/-- A worker that may change a running task with the version it expects. Kind: D -/
structure MayMutate (db : Database) (taskId : String) (row : TaskRow) (expectedLeaseVersion : ℤ)
    (workerId : String) (workerFencingToken : ℤ) : Prop where
  found : db.tasks.get? taskId = some row
  notFenced : db.workerFenced taskId workerId workerFencingToken = none
  assigned : assignedElsewhere row workerId = false
  version : row.leaseVersion = expectedLeaseVersion
  running : row.state = TaskState.running.value

/-- What a call that moves a task has checked, and what it writes. Kind: D -/
inductive Moves (db : Database) :
    TaskOp → String → Option TaskRow → TaskRow → Transition → Staged → Prop
  | create (task : RemediationTask) (hnew : db.tasks.get? task.taskId = none) :
      Moves db (.create task) task.taskId none (TaskRow.ofTask task) (createdEntry task) (createdEvent task)
  | transition {taskId : String} {row : TaskRow} {expectedLeaseVersion : ℤ}
      {expectedStates : List TaskState} {newState : TaskState} {args : TaskArgs} {op : TaskOp}
      (hop : op = .transition taskId expectedLeaseVersion expectedStates newState args ∨
        ∃ all current, op = .update taskId all ∧ all.state? = some newState ∧ args = all.popState ∧
          row.leaseVersion = expectedLeaseVersion ∧ row.state = TaskState.value current ∧
          expectedStates = [current])
      (hfound : db.tasks.get? taskId = some row) (hguard : resurrects expectedStates newState = false)
      (hversion : row.leaseVersion = expectedLeaseVersion)
      (hstate : row.state ∈ expectedStates.map TaskState.value) :
      Moves db op taskId (some row)
        (transitionRow row (nextLeaseVersion expectedLeaseVersion args) newState args)
        (transitionEntry taskId expectedStates newState (nextLeaseVersion expectedLeaseVersion args) args)
        (transitionEvent taskId newState (nextLeaseVersion expectedLeaseVersion args))
  | assign {taskId : String} {row : TaskRow} (workerId : String)
      (hfound : db.tasks.get? taskId = some row)
      (hworker : db.workerStatus workerId ∉ ["DRAINING", "DRAINED", "FENCED", "OFFLINE"])
      (hattempts : row.attempts < row.maxAttempts)
      (hstate : row.state ∈ [TaskState.queued.value, TaskState.pending.value]) :
      Moves db (.assign taskId workerId) taskId (some row)
        (assignedRow row workerId (db.workerToken workerId))
        (workerEntry taskId row .running workerId (db.workerToken workerId) (row.leaseVersion + 1)
          "TASK_ASSIGNED")
        (workerEvent taskId "TASK_ASSIGNED" "assigned" (row.leaseVersion + 1))
  | complete {taskId : String} {row : TaskRow} {workerId : String} {workerFencingToken : ℤ}
      (receiptId receiptFingerprint securityVerificationStatus : Option String)
      (hmay : MayMutate db taskId row row.leaseVersion workerId workerFencingToken) :
      Moves db (.complete taskId row.leaseVersion workerId workerFencingToken receiptId receiptFingerprint
          securityVerificationStatus) taskId (some row)
        (completedRow row (row.leaseVersion + 1) receiptId receiptFingerprint securityVerificationStatus)
        (workerEntry taskId row .completed workerId workerFencingToken (row.leaseVersion + 1)
          "TASK_COMPLETED")
        (workerEvent taskId "TASK_COMPLETED" "completed" (row.leaseVersion + 1))
  | fail {taskId : String} {row : TaskRow} {workerId : String} {workerFencingToken : ℤ}
      (errorMessage : String)
      (hmay : MayMutate db taskId row row.leaseVersion workerId workerFencingToken)
      (hattempts : row.maxAttempts ≤ row.attempts)
      (hburied : taskId ∉ db.deadLetters.map DeadLetterRow.taskId) :
      Moves db (.failure taskId row.leaseVersion workerId workerFencingToken errorMessage) taskId (some row)
        (failedRow row (row.leaseVersion + 1) errorMessage)
        (workerEntry taskId row .failed workerId workerFencingToken (row.leaseVersion + 1) "TASK_FAILED")
        (workerEvent taskId "TASK_FAILED" "failure" (row.leaseVersion + 1))
  | retry {taskId : String} {row : TaskRow} {workerId : String} {workerFencingToken : ℤ}
      (errorMessage : String)
      (hmay : MayMutate db taskId row row.leaseVersion workerId workerFencingToken)
      (hattempts : row.attempts < row.maxAttempts) :
      Moves db (.failure taskId row.leaseVersion workerId workerFencingToken errorMessage) taskId (some row)
        (retriedRow row (row.leaseVersion + 1) errorMessage)
        (workerEntry taskId row .queued workerId workerFencingToken (row.leaseVersion + 1) "TASK_RETRIED")
        (workerEvent taskId "TASK_RETRIED" "transition" (row.leaseVersion + 1))

namespace Database

variable {sha256 : String → String} {draws : Draws} {db db' : Database} {taskId : String}
  {task : RemediationTask}

theorem recordTransition_ok {rows rows' : List AuditRow} {entry : Transition}
    (h : TaskAuditLedger.recordTransition sha256 draws rows entry = .ok rows') :
    draws.auditId ∉ rows.map AuditRow.id ∧
      rows' = rows ++ [TaskAuditLedger.newRow sha256 draws rows entry] := by
  unfold TaskAuditLedger.recordTransition at h
  split at h
  · cases h
  · rename_i hfresh
    cases h
    exact ⟨hfresh, rfl⟩

theorem commit_ok {row : TaskRow} {entry : Transition} {staged : Staged}
    (h : db.commit sha256 draws taskId row entry staged = .ok (db', task)) :
    Recorded sha256 draws db db' taskId row entry staged ∧ row.toDomain taskId = .ok task ∧
      db'.deadLetters = db.deadLetters := by
  unfold commit at h
  split at h
  · cases h
  split at h
  · cases h
  · rename_i audit haudit
    split at h
    · cases h
    · rename_i outbox houtbox
      split at h
      · cases h
      · rename_i task' htask
        cases h
        obtain ⟨hfresh, rfl⟩ := recordTransition_ok haudit
        exact ⟨⟨hfresh, rfl, rfl, rfl, houtbox⟩, htask, rfl⟩

theorem createTask_ok {new : RemediationTask} (h : db.createTask sha256 draws new = .ok (db', task)) :
    db.tasks.get? new.taskId = none ∧
      db.commit sha256 draws new.taskId (TaskRow.ofTask new) (createdEntry new) (createdEvent new) =
        .ok (db', task) := by
  unfold createTask at h
  split at h
  · cases h
  · simp_all [Dict.contains]

theorem atomicTransition_ok {expectedLeaseVersion : ℤ} {expectedStates : List TaskState}
    {newState : TaskState} {args : TaskArgs}
    (h : db.atomicTransition sha256 draws taskId expectedLeaseVersion expectedStates newState args =
      .ok (db', task)) :
    ∃ row, db.tasks.get? taskId = some row ∧ resurrects expectedStates newState = false ∧
      row.leaseVersion = expectedLeaseVersion ∧ row.state ∈ expectedStates.map TaskState.value ∧
      db.commit sha256 draws taskId
        (transitionRow row (nextLeaseVersion expectedLeaseVersion args) newState args)
        (transitionEntry taskId expectedStates newState (nextLeaseVersion expectedLeaseVersion args) args)
        (transitionEvent taskId newState (nextLeaseVersion expectedLeaseVersion args)) =
          .ok (db', task) := by
  unfold atomicTransition at h
  split at h
  · cases h
  · rename_i hguard
    split at h
    · cases h
    · grind

theorem toDomain_ok {row : TaskRow} (h : row.toDomain taskId = .ok task) :
    row.state = task.state.value ∧ row.leaseVersion = task.leaseVersion ∧ row.attempts = task.attempts ∧
      row.maxAttempts = task.maxAttempts ∧ task.startedAt = none := by
  unfold TaskRow.toDomain at h
  split at h
  · cases h
  · grind [TaskState.value_of_ofValue]

theorem updateTask_ok {args : TaskArgs} (h : db.updateTask sha256 draws taskId args = .ok (db', task)) :
    ∃ row, db.tasks.get? taskId = some row ∧
      ((∃ newState current, args.state? = some newState ∧ row.state = TaskState.value current ∧
          db.atomicTransition sha256 draws taskId row.leaseVersion [current] newState args.popState =
            .ok (db', task)) ∨
        (args.state? = none ∧ ∃ row', args.entries.foldlM TaskRow.setArg row = .ok row' ∧
          row'.toDomain taskId = .ok task ∧ db' = { db with tasks := db.tasks.set taskId row' })) := by
  unfold updateTask at h
  split at h
  · cases h
  · rename_i row hfound
    refine ⟨row, hfound, ?_⟩
    split at h
    · rename_i newState hnew
      split at h
      · cases h
      · rename_i current hcurrent
        obtain ⟨hstate, hversion, _⟩ := toDomain_ok hcurrent
        rw [← hversion] at h
        exact Or.inl ⟨newState, current.state, hnew, hstate, h⟩
    · rename_i hnew
      split at h
      · cases h
      · grind

theorem assignTask_ok {workerId : String} (h : db.assignTask sha256 draws taskId workerId = .ok (db', task)) :
    ∃ row, db.tasks.get? taskId = some row ∧
      db.workerStatus workerId ∉ ["DRAINING", "DRAINED", "FENCED", "OFFLINE"] ∧
      row.attempts < row.maxAttempts ∧ row.state ∈ [TaskState.queued.value, TaskState.pending.value] ∧
      db.commit sha256 draws taskId (assignedRow row workerId (db.workerToken workerId))
        (workerEntry taskId row .running workerId (db.workerToken workerId) (row.leaseVersion + 1)
          "TASK_ASSIGNED")
        (workerEvent taskId "TASK_ASSIGNED" "assigned" (row.leaseVersion + 1)) = .ok (db', task) := by
  unfold assignTask at h
  dsimp only at h
  split at h
  · cases h
  · rename_i hworker
    split at h
    · cases h
    · rename_i row hfound
      split at h
      · cases h
      · split at h
        · cases h
        · grind

theorem mutableRow_ok {expectedLeaseVersion workerFencingToken : ℤ} {workerId : String}
    {notRunning : String → String} {row : TaskRow}
    (h : db.mutableRow taskId expectedLeaseVersion workerId workerFencingToken notRunning = .ok row) :
    MayMutate db taskId row expectedLeaseVersion workerId workerFencingToken := by
  unfold mutableRow at h
  split at h
  · cases h
  · rename_i hfenced
    split at h
    · cases h
    · rename_i row' hfound
      split at h
      · cases h
      · rename_i hassigned
        split at h
        · cases h
        · rename_i hversion
          split at h
          · cases h
          · rename_i hrunning
            cases h
            exact ⟨hfound, hfenced, by simpa using hassigned, not_not.mp hversion, not_not.mp hrunning⟩

theorem bury_ok {letter : DeadLetterRow} (h : db.bury letter = .ok db') :
    letter.taskId ∉ db.deadLetters.map DeadLetterRow.taskId ∧
      db' = { db with deadLetters := db.deadLetters ++ [letter] } := by
  unfold bury at h
  split at h
  · cases h
  · grind

/-- A call that does not raise moves a task, or sets fields of one. Kind: P -/
theorem call_cases {op : TaskOp} (h : db.call sha256 draws op = .ok (db', task)) :
    (∃ taskId before row entry staged, Moves db op taskId before row entry staged ∧
        Recorded sha256 draws db db' taskId row entry staged ∧ row.toDomain taskId = .ok task) ∨
      ∃ taskId args row row', op = .update taskId args ∧ args.state? = none ∧
        db.tasks.get? taskId = some row ∧ args.entries.foldlM TaskRow.setArg row = .ok row' ∧
        row'.toDomain taskId = .ok task ∧ db' = { db with tasks := db.tasks.set taskId row' } := by
  cases op with
  | create new =>
    obtain ⟨hnew, hcommit⟩ := createTask_ok h
    obtain ⟨hrecorded, htask, _⟩ := commit_ok hcommit
    exact Or.inl ⟨_, _, _, _, _, .create new hnew, hrecorded, htask⟩
  | update taskId args =>
    obtain ⟨row, hfound, ⟨newState, current, hnew, hstate, hcas⟩ | ⟨hnew, row', hrow', htask, hdb⟩⟩ :=
      updateTask_ok h
    · obtain ⟨row', hfound', hguard, hversion, hmem, hcommit⟩ := atomicTransition_ok hcas
      cases hfound.symm.trans hfound'
      obtain ⟨hrecorded, htask, _⟩ := commit_ok hcommit
      exact Or.inl ⟨_, _, _, _, _, .transition (Or.inr ⟨args, current, rfl, hnew, rfl, rfl, hstate, rfl⟩)
        hfound hguard hversion hmem, hrecorded, htask⟩
    · exact Or.inr ⟨taskId, args, row, row', rfl, hnew, hfound, hrow', htask, hdb⟩
  | transition taskId expectedLeaseVersion expectedStates newState args =>
    obtain ⟨row, hfound, hguard, hversion, hmem, hcommit⟩ := atomicTransition_ok h
    obtain ⟨hrecorded, htask, _⟩ := commit_ok hcommit
    exact Or.inl ⟨_, _, _, _, _, .transition (Or.inl rfl) hfound hguard hversion hmem, hrecorded, htask⟩
  | assign taskId workerId =>
    obtain ⟨row, hfound, hworker, hattempts, hstate, hcommit⟩ := assignTask_ok h
    obtain ⟨hrecorded, htask, _⟩ := commit_ok hcommit
    exact Or.inl ⟨_, _, _, _, _, .assign workerId hfound hworker hattempts hstate, hrecorded, htask⟩
  | complete taskId expectedLeaseVersion workerId token receiptId fingerprint status =>
    unfold call completeTask at h
    dsimp only at h
    split at h
    · cases h
    · rename_i row hrow
      have hmay := mutableRow_ok hrow
      obtain ⟨hrecorded, htask, _⟩ := commit_ok h
      obtain rfl := hmay.version
      exact Or.inl ⟨_, _, _, _, _, .complete receiptId fingerprint status hmay, hrecorded, htask⟩
  | failure taskId expectedLeaseVersion workerId token message =>
    unfold call recordExecutionFailure at h
    dsimp only at h
    split at h
    · cases h
    · rename_i row hrow
      have hmay := mutableRow_ok hrow
      obtain rfl := hmay.version
      split at h
      · rename_i hattempts
        split at h
        · cases h
        · rename_i buried hbury
          obtain ⟨hfree, rfl⟩ := bury_ok hbury
          obtain ⟨hrecorded, htask, _⟩ := commit_ok h
          exact Or.inl ⟨_, _, _, _, _, .fail message hmay hattempts hfree,
            ⟨hrecorded.fresh, hrecorded.tasks, hrecorded.workers, hrecorded.audit, hrecorded.outbox⟩, htask⟩
      · rename_i hattempts
        obtain ⟨hrecorded, htask, _⟩ := commit_ok h
        exact Or.inl ⟨_, _, _, _, _, .retry message hmay (not_le.mp hattempts), hrecorded, htask⟩

/-- What an event does to the tables: nothing, a move, new values in the fields of a task, or a new row of a
worker. Kind: L -/
theorem step_cases (sha256 : String → String) (db : Database) (event : RepositoryEvent) :
    db.step sha256 event = db ∨
      (∃ draws op taskId before row entry staged, event = .call draws op ∧
        Moves db op taskId before row entry staged ∧
        Recorded sha256 draws db (db.step sha256 event) taskId row entry staged) ∨
      (∃ draws taskId args row row', event = .call draws (.update taskId args) ∧ args.state? = none ∧
        db.tasks.get? taskId = some row ∧ args.entries.foldlM TaskRow.setArg row = .ok row' ∧
        db.step sha256 event = { db with tasks := db.tasks.set taskId row' }) ∨
      ∃ workerId row, event = .worker workerId row ∧
        db.step sha256 event = { db with workers := db.workers.set workerId row } := by
  cases event with
  | worker workerId row => exact Or.inr (Or.inr (Or.inr ⟨workerId, row, rfl, rfl⟩))
  | call draws op =>
    rcases hcall : db.call sha256 draws op with e | ⟨db', task⟩
    · left
      unfold step
      dsimp only
      rw [hcall]
    · have hstep : db.step sha256 (.call draws op) = db' := by
        unfold step
        dsimp only
        rw [hcall]
      rw [hstep]
      rcases call_cases hcall with ⟨taskId, before, row, entry, staged, hmoves, hrecorded, _⟩ |
        ⟨taskId, args, row, row', rfl, hnew, hfound, hrow', _, hdb⟩
      · grind
      · exact Or.inr (Or.inr (Or.inl ⟨draws, taskId, args, row, row', rfl, hnew, hfound, hrow', hdb⟩))

end Database

/-! ## What a move reports -/

namespace Moves

variable {db : Database} {op : TaskOp} {taskId : String} {before : Option TaskRow} {row : TaskRow}
  {entry : Transition} {staged : Staged}

theorem found (h : Moves db op taskId before row entry staged) : db.tasks.get? taskId = before := by
  cases h with
  | create task hnew => exact hnew
  | transition _ hfound => exact hfound
  | assign _ hfound => exact hfound
  | complete _ _ _ hmay => exact hmay.found
  | fail _ hmay => exact hmay.found
  | retry _ hmay => exact hmay.found

theorem entry_taskId (h : Moves db op taskId before row entry staged) : entry.taskId = taskId := by
  cases h <;> rfl

theorem entry_newState (h : Moves db op taskId before row entry staged) : entry.newState = row.state := by
  cases h <;> rfl

theorem entry_leaseVersion (h : Moves db op taskId before row entry staged) :
    entry.leaseVersion = row.leaseVersion := by
  cases h <;> rfl

theorem staged_leaseVersion (h : Moves db op taskId before row entry staged) :
    staged.leaseVersion = row.leaseVersion := by
  cases h <;> rfl

theorem staged_aggregateId (h : Moves db op taskId before row entry staged) :
    staged.aggregateId = taskId := by
  cases h <;> rfl

end Moves

/-! ## Fields that are set -/

/-- An argument reads as the new value of a field, or leaves it; one name only sets it. Kind: D -/
structure Sets {β : Type} (get : TaskRow → β) (read : TaskArg → Option β) : Prop where
  set : ∀ row arg row', row.setArg arg = .ok row' → get row' = (read arg).getD (get row)
  once : ∀ a b, (read a).isSome → (read b).isSome → a.name = b.name

/-- Where one name only is read, a value is read from the first argument or from the others. Kind: L -/
theorem read_cons {β : Type} {read : TaskArg → Option β}
    (honce : ∀ a b, (read a).isSome → (read b).isSome → a.name = b.name) {arg : TaskArg}
    {rest : List TaskArg} (hname : arg.name ∉ rest.map TaskArg.name) (default : β) :
    (rest.findSome? read).getD ((read arg).getD default) = ((arg :: rest).findSome? read).getD default := by
  rw [List.findSome?_cons]
  rcases hread : read arg with _ | v
  · rfl
  · have hnone : rest.findSome? read = none := by
      rw [List.findSome?_eq_none_iff]
      intro other hother
      by_contra hsome
      have hsame := honce arg other (by rw [hread]; rfl) (Option.isSome_iff_ne_none.mpr hsome)
      exact hname (hsame ▸ List.mem_map_of_mem hother)
    rw [hnone]
    rfl

/-- After all arguments are set a field has the value that one of them gives, if any. Kind: L -/
theorem Sets.foldlM {β : Type} {get : TaskRow → β} {read : TaskArg → Option β} (h : Sets get read) :
    (entries : List TaskArg) → (entries.map TaskArg.name).Nodup → (row row' : TaskRow) →
      entries.foldlM TaskRow.setArg row = .ok row' →
      get row' = (entries.findSome? read).getD (get row)
  | [], _, row, row', hset => by
    cases hset
    rfl
  | arg :: rest, hnodup, row, row', hset => by
    rw [List.map_cons, List.nodup_cons] at hnodup
    rw [List.foldlM_cons] at hset
    rcases hfirst : row.setArg arg with e | middle
    · rw [hfirst] at hset
      cases hset
    · rw [hfirst] at hset
      have hrest := h.foldlM rest hnodup.2 middle row' hset
      rw [h.set row arg middle hfirst] at hrest
      exact hrest.trans (read_cons h.once hnodup.1 _)

theorem Sets.updated {β : Type} {get : TaskRow → β} {read : TaskArg → Option β} (h : Sets get read)
    {args : TaskArgs} {row row' : TaskRow} (hset : args.entries.foldlM TaskRow.setArg row = .ok row') :
    get row' = (args.find? read).getD (get row) :=
  h.foldlM args.entries args.nodup row row' hset

end KarsaSec.Persistence
