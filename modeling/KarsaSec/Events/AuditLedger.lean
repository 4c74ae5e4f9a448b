import KarsaSec.Workers.Task
import Mathlib.Data.List.Sort
import Mathlib.Data.Prod.Lex

/-!
# The audit ledger and the outbox of tasks

`TaskAuditLedger`: the rows of a task form a chain of hashes. The table is a list of rows; their order is
rebuilt from the time of a row and its random identifier.

* `sha256` is the hash function of the language; it stays a parameter.
* `recordTransition` appends a row to the latest one, `verifyChainIntegrity` checks the rows of a task in
  their order.
* Times are whole numbers of microseconds.

`TransactionalOutbox.stage_event`: an event is staged in the transaction of an operation, unless one with
its deduplication key is there. Both its identifier and its key are unique in the table.
-/

namespace KarsaSec.Events

open KarsaSec.Found KarsaSec.Workers

/-- Source: `models.py`, `TaskAuditLogModel`. Kind: D -/
structure AuditRow where
  id : String
  taskId : String
  previousState : String
  newState : String
  workerId : Option String
  fencingToken : Option ℤ
  leaseVersion : ℤ
  reason : String
  previousEventHash : Option String
  eventHash : String
  createdAt : ℤ
  deriving DecidableEq

/-- The place of a row in the order of its table: its time, then its identifier.
Source: `audit_ledger.py`, `order_by(created_at, id)`
Kind: D -/
def AuditRow.place (row : AuditRow) : ℤ ×ₗ String := toLex (row.createdAt, row.id)

/-- What an operation reports of a transition. Source: `audit_ledger.py`, `record_transition`. Kind: D -/
structure Transition where
  taskId : String
  previousState : String
  newState : String
  workerId : Option String := none
  fencingToken : Option ℤ := none
  leaseVersion : ℤ := 1
  reason : String := ""
  deriving DecidableEq

/-- The columns hold what is reported; the identifiers and hashes that are made always fit.
Source: `models.py`, `TaskAuditLogModel`
Kind: D -/
def Transition.fits (t : Transition) : Bool :=
  fitsString 128 t.taskId && fitsString 32 t.previousState && fitsString 32 t.newState &&
    t.workerId.all (fitsString 128) && t.fencingToken.all fitsInteger && fitsInteger t.leaseVersion &&
    fitsString 256 t.reason

/-- What a row reports. Kind: D -/
def AuditRow.transition (row : AuditRow) : Transition :=
  { taskId := row.taskId
    previousState := row.previousState
    newState := row.newState
    workerId := row.workerId
    fencingToken := row.fencingToken
    leaseVersion := row.leaseVersion
    reason := row.reason }

/-- The clock and the random identifiers that one operation draws; the part of an event's identifier that is
drawn consists of hexadecimal digits.
Source: `uuid.uuid4().hex[:16]`
Kind: D -/
structure Draws where
  auditId : String
  auditAt : ℤ
  eventHex : String
  eventAt : ℤ
  letterHex : String
  plain : '_' ∉ eventHex.toList
  deriving DecidableEq

/-- Source: `audit_ledger.py`, `AuditChainTamperedError`. Kind: D -/
inductive ChainError
  | chainBroken (index : ℕ) (taskId : String) (expected got : Option String)
  | hashMismatch (index : ℕ) (taskId computed stored : String)
  deriving DecidableEq

namespace TaskAuditLedger

/-- The text that is hashed for a row. Source: `audit_ledger.py`, `_compute_hash`, `raw`. Kind: D -/
def hashInput (t : Transition) (previousEventHash : Option String) : String :=
  let prev := orDefault previousEventHash "GENESIS"
  let worker := t.workerId.getD ""
  let token := t.fencingToken.getD 0
  s!"{t.taskId}:{prev}:{t.previousState}:{t.newState}:{worker}:{token}:{t.leaseVersion}:{t.reason}"

/-- The rows of a task in their order. Source: `audit_ledger.py`, `verify_chain_integrity`. Kind: D -/
def rowsOf (rows : List AuditRow) (taskId : String) : List AuditRow :=
  (rows.filter fun row => row.taskId = taskId).insertionSort fun a b => a.place ≤ b.place

variable (sha256 : String → String)

/-- Source: `audit_ledger.py`, `_compute_hash`. Kind: D -/
def computeHash (t : Transition) (previousEventHash : Option String) : String :=
  sha256 (hashInput t previousEventHash)

/-- The row that is recorded for a transition. Source: `audit_ledger.py`, `record_transition`. Kind: D -/
def newRow (draws : Draws) (rows : List AuditRow) (t : Transition) : AuditRow :=
  let previousEventHash := (rowsOf rows t.taskId).getLast?.map AuditRow.eventHash
  { id := draws.auditId
    taskId := t.taskId
    previousState := t.previousState
    newState := t.newState
    workerId := t.workerId
    fencingToken := t.fencingToken
    leaseVersion := t.leaseVersion
    reason := t.reason
    previousEventHash := previousEventHash
    eventHash := computeHash sha256 t previousEventHash
    createdAt := draws.auditAt }

/-- Identifiers are the primary key of the table.
Source: `audit_ledger.py`, `record_transition`
Kind: D -/
def recordTransition (draws : Draws) (rows : List AuditRow) (t : Transition) :
    Except TaskError (List AuditRow) :=
  if draws.auditId ∈ rows.map AuditRow.id then .error (.integrity "task_audit_log.id")
  else .ok (rows ++ [newRow sha256 draws rows t])

/-- The check of the rows from an index on, after a row with the given hash.
Source: `audit_ledger.py`, `verify_chain_integrity`
Kind: D -/
def verifyFrom (taskId : String) : ℕ → Option String → List AuditRow → Except ChainError Unit
  | _, _, [] => .ok ()
  | i, prevHash, row :: rest =>
    if row.previousEventHash ≠ prevHash then
      .error (.chainBroken i taskId prevHash row.previousEventHash)
    else
      let expectedHash := computeHash sha256 row.transition row.previousEventHash
      if row.eventHash ≠ expectedHash then .error (.hashMismatch i taskId expectedHash row.eventHash)
      else verifyFrom taskId (i + 1) (some row.eventHash) rest

/-- Source: `audit_ledger.py`, `verify_chain_integrity`. Kind: D -/
def verifyChainIntegrity (rows : List AuditRow) (taskId : String) : Except ChainError Unit :=
  verifyFrom sha256 taskId 0 none (rowsOf rows taskId)

end TaskAuditLedger

/-! ## The transactional outbox -/

/-- An event that waits to be published. Source: `models.py`, `OutboxEventModel`. Kind: D -/
structure OutboxRow where
  eventId : String
  aggregateId : String
  aggregateType : String
  eventType : String
  deduplicationKey : String
  aggregateSequence : ℤ
  createdAt : ℤ
  deriving DecidableEq

/-- An event that an operation stages. Source: `outbox.py`, `stage_event`. Kind: D -/
structure Staged where
  aggregateId : String
  eventType : String
  leaseVersion : ℤ
  deduplicationKey : String
  deriving DecidableEq

/-- The columns hold the event. Source: `models.py`, `OutboxEventModel`. Kind: D -/
def Staged.fits (s : Staged) : Bool :=
  fitsString 128 s.aggregateId && fitsString 64 s.eventType && fitsString 128 s.deduplicationKey &&
    fitsInteger s.leaseVersion

namespace TransactionalOutbox

/-- Whether an event has a key. Source: `outbox.py`, `stage_event`, `existing`. Kind: D -/
def hasKey (outbox : List OutboxRow) (key : String) : Bool :=
  outbox.any fun event => event.deduplicationKey = key

/-- The event that is staged. Source: `outbox.py`, `stage_event`. Kind: D -/
def newEvent (draws : Draws) (staged : Staged) : OutboxRow :=
  { eventId := "evt_" ++ draws.eventHex
    aggregateId := staged.aggregateId
    aggregateType := "remediation_task"
    eventType := staged.eventType
    deduplicationKey := staged.deduplicationKey
    aggregateSequence := staged.leaseVersion
    createdAt := draws.eventAt }

/-- Source: `outbox.py`, `TransactionalOutbox.stage_event`. Kind: D -/
def stageEvent (draws : Draws) (outbox : List OutboxRow) (staged : Staged) :
    Except TaskError (List OutboxRow) :=
  if hasKey outbox staged.deduplicationKey then .ok outbox
  else if "evt_" ++ draws.eventHex ∈ outbox.map OutboxRow.eventId then
    .error (.integrity "outbox_events.event_id")
  else .ok (outbox ++ [newEvent draws staged])

end TransactionalOutbox

end KarsaSec.Events
