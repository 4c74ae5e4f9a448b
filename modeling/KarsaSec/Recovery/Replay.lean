import KarsaSec.Persistence.TaskRepository

/-!
# Replay of the audit rows

`AuditReplayEngine`: the tasks are brought forward by the audit rows after a boundary, and lost events are
rebuilt from the audit rows.

* The engine works on the session of its caller. `autoflush` says whether a query of that session sees what
  was added before; the sessions of `db.py` do not.
* What is added is checked against the unique columns of its table when it is flushed.
-/

namespace KarsaSec.Recovery

open KarsaSec.Found KarsaSec.Workers KarsaSec.Events KarsaSec.Persistence

/-- Source: `recovery/__init__.py`; the `IntegrityError` of the database. Kind: D -/
inductive RecoveryError
  | checkpointNotFound (checkpointId : String)
  | recoveryFencing (recoveryId recoveryLeaseToken owner : String)
  | leaseAcquisition
  | snapshotIntegrity (message : String)
  | schemaMismatch (found expected : ℕ)
  | snapshotFencing (generation latest : ℕ)
  | auditCorruption (error : ChainError)
  | integrity (constraint : String)
  deriving DecidableEq

namespace AuditReplayEngine

/-- The audit rows of all tasks in their order. Source: `replay.py`, `audit_entries`. Kind: D -/
def chronological (audit : List AuditRow) : List AuditRow :=
  audit.insertionSort fun a b => a.place ≤ b.place

/-! ## Events -/

/-- Source: `replay.py`, `EVENT_TYPE_MAP`. Kind: D -/
def eventTypeMap : List ((String × String) × String) :=
  [(("NONE", "QUEUED"), "TASK_CREATED"),
    (("PENDING", "QUEUED"), "TASK_CREATED"),
    (("QUEUED", "RUNNING"), "TASK_ASSIGNED"),
    (("RUNNING", "COMPLETED"), "TASK_COMPLETED"),
    (("RUNNING", "FAILED"), "TASK_FAILED"),
    (("RUNNING", "QUEUED"), "TASK_RECOVERED"),
    (("RUNNING", "FAILED_RETRYABLE"), "TASK_FAILED_RETRYABLE"),
    (("FAILED_RETRYABLE", "QUEUED"), "TASK_REQUEUED")]

/-- Source: `replay.py`, `rebuild_outbox_from_audit`, `event_type`. Kind: D -/
def rebuiltType (entry : AuditRow) : String :=
  (Dict.lookup (entry.previousState, entry.newState) eventTypeMap).getD s!"TASK_{entry.newState}"

/-- The deduplication key of the move that a row reports.
Source: `replay.py`, `rebuild_outbox_from_audit`, `dedup_key`
Kind: D -/
def rebuiltKey (taskId previousState newState : String) (leaseVersion : ℤ) : String :=
  if (previousState, newState) ∈ [("NONE", "QUEUED"), ("PENDING", "QUEUED")] then createdKey taskId
  else if (previousState, newState) = ("QUEUED", "RUNNING") then versionKey "assigned" taskId leaseVersion
  else if (previousState, newState) = ("RUNNING", "COMPLETED") then
    versionKey "completed" taskId leaseVersion
  else if newState ∈ ["FAILED", "FAILED_RETRYABLE"] then versionKey "failure" taskId leaseVersion
  else versionKey "transition" taskId leaseVersion

/-- Source: `replay.py`, `rebuild_outbox_from_audit`, `dedup_key`. Kind: D -/
def keyOf (entry : AuditRow) : String :=
  rebuiltKey entry.taskId entry.previousState entry.newState entry.leaseVersion

/-- Source: `replay.py`, `rebuild_outbox_from_audit`, `outbox_entry`. Kind: D -/
def rebuiltEvent (entry : AuditRow) : OutboxRow :=
  { eventId := s!"evt_{entry.taskId}_{entry.leaseVersion}"
    aggregateId := entry.taskId
    aggregateType := "TASK"
    eventType := rebuiltType entry
    deduplicationKey := keyOf entry
    aggregateSequence := entry.leaseVersion
    createdAt := entry.createdAt }

/-- The events that are added, after one more row.
Source: `replay.py`, `rebuild_outbox_from_audit`
Kind: D -/
def rebuildStep (autoflush : Bool) (outbox added : List OutboxRow) (entry : AuditRow) : List OutboxRow :=
  let seen := if autoflush then outbox ++ added else outbox
  if TransactionalOutbox.hasKey seen (keyOf entry) then added else added ++ [rebuiltEvent entry]

/-- The events after a rebuild, and how many were added.
Source: `replay.py`, `rebuild_outbox_from_audit`
Kind: D -/
def rebuildOutboxFromAudit (autoflush : Bool) (audit : List AuditRow) (outbox : List OutboxRow) :
    Except RecoveryError (List OutboxRow × ℕ) :=
  let added := (chronological audit).foldl (rebuildStep autoflush outbox) []
  if ((outbox ++ added).map OutboxRow.deduplicationKey).Nodup then
    if ((outbox ++ added).map OutboxRow.eventId).Nodup then .ok (outbox ++ added, added.length)
    else .error (.integrity "outbox_events.event_id")
  else .error (.integrity "outbox_events.deduplication_key")

/-! ## Tasks -/

/-- Source: `replay.py`, `verify_audit_chain`. Kind: D -/
def verifyAuditChain (sha256 : String → String) (audit : List AuditRow) : Except RecoveryError Unit :=
  match (audit.map AuditRow.taskId).dedup.mapM fun taskId =>
      TaskAuditLedger.verifyChainIntegrity sha256 audit taskId with
  | .ok _ => .ok ()
  | .error e => .error (.auditCorruption e)

/-- The rows after the row with the hash of the boundary; all of them where there is no such row.
Source: `replay.py`, `replay_events`, `start_index`
Kind: D -/
def afterBoundary (auditChainHead : String) (entries : List AuditRow) : List AuditRow :=
  if auditChainHead = "GENESIS" then entries
  else
    match entries.findIdx? fun entry => entry.eventHash = auditChainHead with
    | some i => entries.drop (i + 1)
    | none => entries

/-- The row of a task that is not there. Source: `replay.py`, `replay_events`. Kind: D -/
def reconstructedRow (entry : AuditRow) : TaskRow :=
  { findingId := "RECONSTRUCTED"
    approvalTokenId := "RECONSTRUCTED"
    fingerprint := "RECONSTRUCTED"
    state := entry.newState
    attempts := 0
    maxAttempts := 3
    leaseVersion := entry.leaseVersion
    assignedWorkerId := entry.workerId
    assignedWorkerFencingToken := entry.fencingToken }

/-- What an audit row makes of the row of its task. Source: `replay.py`, `replay_events`. Kind: D -/
def replayRow (row : TaskRow) (entry : AuditRow) : TaskRow :=
  { row with
    state := entry.newState
    leaseVersion := entry.leaseVersion
    assignedWorkerId := if entry.newState = "QUEUED" then none else entry.workerId
    assignedWorkerFencingToken := if entry.newState = "QUEUED" then none else entry.fencingToken }

/-- The tasks that the queries see, and those that are added. Kind: D -/
structure Replayed where
  tasks : Dict String TaskRow
  added : List (String × TaskRow) := []

/-- Source: `replay.py`, `replay_events`. Kind: D -/
def replayStep (autoflush : Bool) (acc : Replayed) (entry : AuditRow) : Replayed :=
  match acc.tasks.get? entry.taskId with
  | some row => { acc with tasks := acc.tasks.set entry.taskId (replayRow row entry) }
  | none =>
    if autoflush then { acc with tasks := acc.tasks.set entry.taskId (reconstructedRow entry) }
    else { acc with added := acc.added ++ [(entry.taskId, reconstructedRow entry)] }

/-- The rows up to a version, if one is given.
Source: `replay.py`, `replay_events`, `target_sequence`
Kind: D -/
def upTo (targetSequence : Option ℤ) (entries : List AuditRow) : List AuditRow :=
  match targetSequence with
  | none => entries
  | some target => entries.takeWhile fun entry => entry.leaseVersion ≤ target

/-- The tasks after a replay, and how many rows were replayed. Source: `replay.py`, `replay_events`. Kind: D -/
def replayEvents (sha256 : String → String) (autoflush : Bool) (audit : List AuditRow)
    (tasks : Dict String TaskRow) (auditChainHead : String) (targetSequence : Option ℤ) :
    Except RecoveryError (Dict String TaskRow × ℕ) :=
  match verifyAuditChain sha256 audit with
  | .error e => .error e
  | .ok _ =>
    let entries := upTo targetSequence (afterBoundary auditChainHead (chronological audit))
    let replayed := entries.foldl (replayStep autoflush) { tasks := tasks }
    if (replayed.added.map Prod.fst).Nodup then
      .ok (replayed.added.foldl (fun tasks new => tasks.set new.1 new.2) replayed.tasks, entries.length)
    else .error (.integrity "tasks.task_id")

end AuditReplayEngine

end KarsaSec.Recovery
