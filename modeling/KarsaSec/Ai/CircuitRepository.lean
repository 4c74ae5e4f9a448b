import KarsaSec.Ai.CircuitBreaker
import KarsaSec.Found.Runs

/-!
# Persistent circuits

`PostgresCircuitStateRepository` and its use in `ProviderExecutionService.execute`: each process has a circuit
breaker of its own; an attempt records its outcome there, exports the circuit and saves it.

* `save` is the code: it finds the row, checks the expected version where one is given, and assigns the columns.
  The flush writes the columns that differ from the row that was found, or inserts a row.
* `CircuitWorkers` is the table with the processes and their sessions, `CircuitWorkers.step` one step of one of
  them. A session sees the committed rows and its own; a row that it has written is locked until its end.
* `base` is bookkeeping: the version of the row that the circuit of a process was last in step with. So are the `log`
  of all that breakers were asked and told, and the outcomes that went down with a transaction.
-/

namespace KarsaSec.Ai

open KarsaSec.Found

/-! ## The repository -/

/-- The columns of a circuit. Source: `circuit_repository.py`, `CircuitStateData`. Kind: D -/
structure CircuitSnapshot where
  state : CircuitState
  failureCount : ℕ
  successCount : ℕ
  failures : List Bool
  openedAt : Option ℚ
  cooldownUntil : Option ℚ
  cooldownReason : Option String
  deriving DecidableEq

/-- Source: `circuit_repository.py`, `CircuitStateData`. Kind: D -/
structure CircuitStateData extends CircuitSnapshot where
  providerId : String
  modelId : String
  stateVersion : ℤ := 1
  deriving DecidableEq

/-- A row of `ai_circuit_states`; its provider and model are its key. Source: `models.py`, `AICircuitStateModel`.
Kind: D -/
structure CircuitRow extends CircuitSnapshot where
  stateVersion : ℤ
  deriving DecidableEq

/-- What a save raises: a conflict of versions, or an insertion of a row that another transaction has inserted.
Kind: D -/
inductive SaveError
  | circuitStateConflict (message : String)
  | integrityError
  | staleData
  deriving DecidableEq

/-- Source: `circuit_breaker.py`, `export_data`. Kind: D -/
def ProviderCircuitState.snapshot (st : ProviderCircuitState) : CircuitSnapshot where
  state := st.state
  failureCount := st.failures.count true
  successCount := st.failures.count false
  failures := st.failures
  openedAt := st.openedAt
  cooldownUntil := st.cooldownUntil
  cooldownReason := st.cooldownReason

/-- Source: `circuit_breaker.py`, `export_data`. Kind: D -/
def exportData (key : ProviderKey) (st : ProviderCircuitState) : CircuitStateData :=
  { st.snapshot with providerId := key.1, modelId := key.2 }

/-- Source: `circuit_breaker.py`, `restore_from_data`. Kind: D -/
def restoreFromData (data : CircuitSnapshot) : ProviderCircuitState where
  state := data.state
  failures := data.failures
  openedAt := data.openedAt
  cooldownUntil := data.cooldownUntil
  cooldownReason := data.cooldownReason
  activeProbes := 0

/-- The columns of `save`, assigned to the row that was found or to a new one.
Source: `circuit_repository.py`, `save`
Kind: D -/
def save (row : Option CircuitRow) (data : CircuitStateData) (expectedVersion : Option ℤ) :
    Except SaveError CircuitRow :=
  match row with
  | none => .ok { data.toCircuitSnapshot with stateVersion := 1 }
  | some row =>
    match expectedVersion.filter (row.stateVersion ≠ ·) with
    | some expected =>
      .error (.circuitStateConflict
        (s!"Circuit state version mismatch for provider '{data.providerId}' model '{data.modelId}'. " ++
          s!"Expected version {expected}, but found {row.stateVersion} in database."))
    | none => .ok { data.toCircuitSnapshot with stateVersion := row.stateVersion + 1 }

/-- A column of an update: one that was not changed keeps what the table has. Kind: D -/
def changed {α : Type} [DecidableEq α] (found assigned stored : α) : α := if assigned = found then stored else assigned

/-- The statement that a flush sends: an insertion, or an update of the columns that were changed. Kind: D -/
def writeRow (found : Option CircuitRow) (assigned : CircuitRow) (stored : Option CircuitRow) :
    Except SaveError CircuitRow :=
  match found, stored with
  | none, none => .ok assigned
  | none, some _ => .error .integrityError
  | some _, none => .error .staleData
  | some found, some stored =>
    .ok
      { state := changed found.state assigned.state stored.state
        failureCount := changed found.failureCount assigned.failureCount stored.failureCount
        successCount := changed found.successCount assigned.successCount stored.successCount
        failures := changed found.failures assigned.failures stored.failures
        openedAt := changed found.openedAt assigned.openedAt stored.openedAt
        cooldownUntil := changed found.cooldownUntil assigned.cooldownUntil stored.cooldownUntil
        cooldownReason := changed found.cooldownReason assigned.cooldownReason stored.cooldownReason
        stateVersion := changed found.stateVersion assigned.stateVersion stored.stateVersion }

/-! ## Processes and sessions -/

/-- What a breaker is asked or told about a circuit. Kind: D -/
inductive CircuitEvent
  | check (now : ℚ)
  | success (now : ℚ)
  | failure (now : ℚ) (classification : FailureClassification)
  deriving DecidableEq

namespace CircuitEvent

/-- An event is the outcome of an attempt. Kind: D -/
def isOutcome : CircuitEvent → Bool
  | .check _ => false
  | .success _ | .failure _ _ => true

/-- What an event makes of a circuit. Source: `circuit_breaker.py`, `is_open`, `record_success`, `record_failure`.
Kind: D -/
def apply (cb : ProviderCircuitBreaker) (st : ProviderCircuitState) : CircuitEvent → ProviderCircuitState
  | .check now => (cb.isOpen now st).2
  | .success now => cb.recordSuccess now st
  | .failure now classification => cb.recordFailure now st classification

end CircuitEvent

/-- Where a session is with the outcome of an attempt, the number of the outcome in the log with it. A save under
way has the exported data, the version that they are based on, and the row that was found. Kind: D -/
inductive SavePhase
  | idle
  | recorded (key : ProviderKey) (outcome : ℕ)
  | exported (key : ProviderKey) (outcome : ℕ) (data : CircuitStateData) (base : ℤ)
  | selected (key : ProviderKey) (outcome : ℕ) (data : CircuitStateData) (base : ℤ) (found : Option CircuitRow)
  deriving DecidableEq

/-- The outcome that a session is saving. Kind: D -/
def SavePhase.outcome : SavePhase → Option ℕ
  | .idle => none
  | .recorded _ outcome | .exported _ outcome _ _ | .selected _ outcome _ _ _ => some outcome

/-- A session: its phase, the rows it has written since its last commit, and the outcomes saved with them. Kind: D -/
structure CircuitSession where
  phase : SavePhase := .idle
  written : Dict ProviderKey CircuitRow := .empty
  flushed : List ℕ := []

/-- The outcomes that a session has recorded and not committed. Kind: D -/
def CircuitSession.inHand (session : CircuitSession) : List ℕ := session.phase.outcome.toList ++ session.flushed

/-- The breakers of the processes, the table, its row locks and the sessions. Kind: D -/
structure CircuitWorkers (π γ : Type) where
  circuits : π → Dict ProviderKey ProviderCircuitState := fun _ => .empty
  table : Dict ProviderKey CircuitRow := .empty
  locks : ProviderKey → Option γ := fun _ => none
  sessions : γ → CircuitSession := fun _ => {}
  base : π → ProviderKey → ℤ := fun _ _ => 0
  log : List (ProviderKey × CircuitEvent) := []
  dropped : Set ℕ := ∅

/-- A step: the router of a process checks a circuit; a session records an outcome, exports the circuit, finds the
row, flushes, commits or rolls back; a process starts again and restores its circuits.
Source: `execution.py`, `execute`; `router.py`, `_filter_eligible`, `restore_circuit_states`
Kind: D -/
inductive CircuitStep (π γ : Type)
  | check (p : π) (now : ℚ) (key : ProviderKey)
  | recordSuccess (c : γ) (now : ℚ) (key : ProviderKey)
  | recordFailure (c : γ) (now : ℚ) (key : ProviderKey) (classification : FailureClassification)
  | exportData (c : γ)
  | select (c : γ)
  | flush (c : γ)
  | commit (c : γ)
  | rollback (c : γ)
  | startup (p : π)

/-- The version of a row, 0 where there is none. Kind: D -/
def versionOf (row : Option CircuitRow) : ℤ := (row.map CircuitRow.stateVersion).getD 0

namespace CircuitWorkers

variable {π γ : Type} [DecidableEq π] [DecidableEq γ] (cb : ProviderCircuitBreaker) (worker : γ → π)
  (s : CircuitWorkers π γ)

/-- Source: `circuit_breaker.py`, `_get_or_create_state`. Kind: D -/
def circuit (p : π) (key : ProviderKey) : ProviderCircuitState := (s.circuits p).getD key {}

/-- The row that a session sees: the one it has written, or the committed one. Kind: D -/
def seen (c : γ) (key : ProviderKey) : Option CircuitRow := ((s.sessions c).written.get? key).or (s.table.get? key)

/-- No other session has a lock on a row. Kind: D -/
def Free (c : γ) (key : ProviderKey) : Prop := s.locks key = none ∨ s.locks key = some c

instance (c : γ) (key : ProviderKey) : Decidable (s.Free c key) :=
  inferInstanceAs (Decidable (s.locks key = none ∨ s.locks key = some c))

/-- A process asks or tells its breaker. Kind: D -/
def observe (p : π) (key : ProviderKey) (event : CircuitEvent) : CircuitWorkers π γ :=
  { s with
    circuits := Function.update s.circuits p ((s.circuits p).set key (event.apply cb (s.circuit p key)))
    log := s.log ++ [(key, event)] }

/-- A session goes on to another phase. Kind: D -/
def goto (c : γ) (phase : SavePhase) : CircuitWorkers π γ :=
  { s with sessions := Function.update s.sessions c { s.sessions c with phase := phase } }

/-- An idle session records an outcome. Kind: D -/
def record (c : γ) (key : ProviderKey) (event : CircuitEvent) : CircuitWorkers π γ :=
  match (s.sessions c).phase with
  | .idle => (s.observe cb (worker c) key event).goto c (.recorded key s.log.length)
  | _ => s

/-- The transactions of some sessions end without effect; what they had in hand is dropped. Kind: D -/
def abort (ends : γ → Bool) : CircuitWorkers π γ :=
  { s with
    sessions := fun c => if ends c then {} else s.sessions c
    locks := fun key => (s.locks key).filter fun c => !ends c
    dropped := s.dropped ∪ {outcome | ∃ c, ends c ∧ outcome ∈ (s.sessions c).inHand} }

/-- What the flush of a save makes of the row: `execute` gives no expected version.
Source: `execution.py`, `execute`
Kind: D -/
def saved (c : γ) (key : ProviderKey) (data : CircuitStateData) (found : Option CircuitRow) :
    Except SaveError CircuitRow := do
  let assigned ← save found data none
  writeRow found assigned (s.seen c key)

/-- The row of a session is written and locked. Kind: D -/
def write (c : γ) (key : ProviderKey) (outcome : ℕ) (row : CircuitRow) : CircuitWorkers π γ :=
  { s with
    sessions := Function.update s.sessions c
      { phase := .idle
        written := (s.sessions c).written.set key row
        flushed := (s.sessions c).flushed ++ [outcome] }
    locks := Function.update s.locks key (some c) }

/-- The rows of a session go into the table. Kind: D -/
def committed (c : γ) : CircuitWorkers π γ :=
  { s with
    table := s.table.update (s.sessions c).written
    sessions := Function.update s.sessions c {}
    locks := fun key => (s.locks key).filter (· ≠ c)
    base := Function.update s.base (worker c) fun key =>
      match (s.sessions c).written.get? key with
      | some row => row.stateVersion
      | none => s.base (worker c) key }

/-- A process starts again, and restores its circuits from the table.
Source: `router.py`, `restore_circuit_states`
Kind: D -/
def restarted (p : π) : CircuitWorkers π γ :=
  { s.abort (fun c => worker c = p) with
    circuits := Function.update s.circuits p (s.table.mapValues fun row => restoreFromData row.toCircuitSnapshot)
    base := Function.update s.base p fun key => versionOf (s.table.get? key) }

/-- One step. A flush of a row that another session has locked waits; one that raises ends the transaction. Kind: D -/
def step : CircuitStep π γ → CircuitWorkers π γ
  | .check p now key => s.observe cb p key (.check now)
  | .recordSuccess c now key => s.record cb worker c key (.success now)
  | .recordFailure c now key classification => s.record cb worker c key (.failure now classification)
  | .exportData c =>
    match (s.sessions c).phase with
    | .recorded key outcome =>
      let base := match (s.sessions c).written.get? key with
        | some row => row.stateVersion
        | none => s.base (worker c) key
      s.goto c (.exported key outcome (KarsaSec.Ai.exportData key (s.circuit (worker c) key)) base)
    | _ => s
  | .select c =>
    match (s.sessions c).phase with
    | .exported key outcome data base => s.goto c (.selected key outcome data base (s.seen c key))
    | _ => s
  | .flush c =>
    match (s.sessions c).phase with
    | .selected key outcome data _ found =>
      if s.Free c key then
        match s.saved c key data found with
        | .ok row => s.write c key outcome row
        | .error _ => s.abort fun c' => c' = c
      else s
    | _ => s
  | .commit c => if (s.sessions c).phase = .idle then s.committed worker c else s
  | .rollback c => s.abort fun c' => c' = c
  | .startup p => s.restarted worker p

end CircuitWorkers

/-! ## What is expected -/

/-- The circuit of one breaker that is asked and told some things in their order. Kind: D -/
def replay (cb : ProviderCircuitBreaker) (events : List CircuitEvent) : ProviderCircuitState :=
  events.foldl (CircuitEvent.apply cb) {}

/-- What the table says of a circuit; without a row it is a new one. Kind: D -/
def persisted (row : Option CircuitRow) : CircuitSnapshot :=
  match row with
  | some row => row.toCircuitSnapshot
  | none => ProviderCircuitState.snapshot {}

namespace CircuitWorkers

variable {π γ : Type} [DecidableEq π] [DecidableEq γ] (cb : ProviderCircuitBreaker) (worker : γ → π)

/-- The table has the circuits of a serial order: of things that breakers were asked and told, each once, among
them every outcome that no session has in hand and that was not dropped with its transaction. Kind: D -/
def NothingLost (s : CircuitWorkers π γ) : Prop :=
  ∀ key, ∃ order : List (ℕ × CircuitEvent), (order.map Prod.fst).Nodup ∧
    (∀ entry ∈ order, s.log[entry.1]? = some (key, entry.2)) ∧
    (∀ i event, s.log[i]? = some (key, event) → event.isOutcome = true →
      i ∉ s.dropped → (∀ c, i ∉ (s.sessions c).inHand) → (i, event) ∈ order) ∧
    persisted (s.table.get? key) = (replay cb (order.map Prod.snd)).snapshot

/-- A save under way is based on an older version of the row than the one that it is to replace: the circuit was
not in step with it, or it has changed since it was found. Kind: D -/
def Stale (s : CircuitWorkers π γ) (c : γ) (key : ProviderKey) (base : ℤ) (found : Option CircuitRow) : Prop :=
  base < versionOf (s.seen c key) ∨ versionOf found < versionOf (s.seen c key)

/-- A save based on an older version raises. Kind: D -/
def RejectsStale (s : CircuitWorkers π γ) : CircuitStep π γ → Prop
  | .flush c => ∀ key outcome data base found, (s.sessions c).phase = .selected key outcome data base found →
      s.Free c key → s.Stale c key base found → ∃ e, s.saved c key data found = .error e
  | _ => True

/-- A save that finds a row is based on the version that is stored; so is one that finds none, unless the row has
been inserted since. Kind: D -/
def UpToDate (s : CircuitWorkers π γ) : CircuitStep π γ → Prop
  | .flush c => ∀ key outcome data base found, (s.sessions c).phase = .selected key outcome data base found →
      s.Free c key → s.Stale c key base found → found = none ∧ (s.seen c key).isSome
  | _ => True

end CircuitWorkers

end KarsaSec.Ai
