import KarsaSec.Found.Runs
import KarsaSec.Persistence.Changes

/-!
# The lifetime of a task

COMPLETED, FAILED and CANCELLED are to be kept, each change of state is to raise the lease version, and a
task is not to have more attempts than it may.

* `Obedient` is the condition on a call: a task is not made or set with too many attempts, and a transition
  that is accepted keeps a terminal state, gets no lower version of its own, and does not start a task whose
  attempts are used up. `assign_task`, `complete_task` and `record_execution_failure` are always obedient.
* `resurrected_by_way_of_retry`: the guard against resurrection looks at the targets QUEUED and RUNNING only,
  so a completed task is queued again through FAILED_RETRYABLE.
* `obedient_run_keeps`: in a run of obedient calls all of this holds.
-/

namespace KarsaSec.Persistence

open KarsaSec.Found KarsaSec.Workers KarsaSec.Events

/-! ## The fields of an update -/

/-- Kind: D -/
def readAttempts : TaskArg → Option ℤ
  | .attempts v => some v
  | _ => none

/-- Kind: D -/
def readMaxAttempts : TaskArg → Option ℤ
  | .maxAttempts v => some v
  | _ => none

theorem sets_attempts : Sets TaskRow.attempts readAttempts where
  set row arg row' h := by
    unfold TaskRow.setArg at h
    split at h <;> cases h <;> rfl
  once a b ha hb := by
    cases a <;> cases ha
    cases b <;> cases hb
    rfl

theorem sets_maxAttempts : Sets TaskRow.maxAttempts readMaxAttempts where
  set row arg row' h := by
    unfold TaskRow.setArg at h
    split at h <;> cases h <;> rfl
  once a b ha hb := by
    cases a <;> cases ha
    cases b <;> cases hb
    rfl

/-- An update without a state leaves the state. Kind: L -/
theorem sets_state : Sets TaskRow.state fun
    | .state v => some v.value
    | _ => none where
  set row arg row' h := by
    unfold TaskRow.setArg at h
    split at h <;> cases h <;> rfl
  once a b ha hb := by
    cases a <;> cases ha
    cases b <;> cases hb
    rfl

theorem state_of_update {args : TaskArgs} {row row' : TaskRow} (hstate : args.state? = none)
    (hset : args.entries.foldlM TaskRow.setArg row = .ok row') : row'.state = row.state := by
  have hnone : args.find? (fun
      | .state v => some v.value
      | _ => none) = none := by
    refine List.findSome?_eq_none_iff.mpr fun arg harg => ?_
    have hread := List.findSome?_eq_none_iff.mp hstate arg harg
    cases arg with
    | state v => cases hread
    | _ => rfl
  rw [sets_state.updated hset, hnone]
  rfl

/-! ## Obedient calls -/

/-- An accepted transition keeps a terminal state, gets no version of its own that is not higher, and does
not start a task without attempts left. Kind: D -/
structure TransitionObeys (row : TaskRow) (newState : TaskState) (args : TaskArgs) : Prop where
  terminal : row.state ∈ terminalValues → newState.value = row.state
  version : newState.value ≠ row.state → ∀ given ∈ args.leaseVersion?, row.leaseVersion < given
  attempts : newState = .running → row.attempts < row.maxAttempts

/-- The condition on an event. Kind: D -/
def Obedient (db : Database) : RepositoryEvent → Prop
  | .call _ (.create task) => task.attempts ≤ task.maxAttempts
  | .call _ (.update taskId args) => ∀ row, db.tasks.get? taskId = some row →
      match args.state? with
      | some newState => TransitionObeys row newState args.popState
      | none => (args.find? readAttempts).getD row.attempts ≤
          (args.find? readMaxAttempts).getD row.maxAttempts
  | .call _ (.transition taskId expectedLeaseVersion expectedStates newState args) =>
    ∀ row, db.tasks.get? taskId = some row → row.leaseVersion = expectedLeaseVersion →
      row.state ∈ expectedStates.map TaskState.value → resurrects expectedStates newState = false →
        TransitionObeys row newState args
  | _ => True

/-! ## What is expected -/

/-- No task has more attempts than it may. Kind: D -/
def WithinAttempts (db : Database) : Prop :=
  ∀ taskId row, db.tasks.get? taskId = some row → row.attempts ≤ row.maxAttempts

/-- What is expected of an event: terminal states stay, a change of state raises the version, and a call that
raises changes nothing. Kind: D -/
structure Kept (sha256 : String → String) (db : Database) (event : RepositoryEvent) : Prop where
  absorbing : ∀ taskId row, db.tasks.get? taskId = some row → row.state ∈ terminalValues →
    ∃ row', (db.step sha256 event).tasks.get? taskId = some row' ∧ row'.state = row.state
  version : ∀ taskId row row', db.tasks.get? taskId = some row →
    (db.step sha256 event).tasks.get? taskId = some row' → row'.state ≠ row.state →
      row.leaseVersion < row'.leaseVersion
  rejected : ∀ draws op e, event = .call draws op → db.call sha256 draws op = .error e →
    db.step sha256 event = db

variable {sha256 : String → String} {db : Database}

theorem obeys_of_move {op : TaskOp} {draws : Draws} {taskId : String} {row : TaskRow}
    {expectedLeaseVersion : ℤ} {expectedStates : List TaskState} {newState : TaskState} {args : TaskArgs}
    (hobedient : Obedient db (.call draws op))
    (hop : op = .transition taskId expectedLeaseVersion expectedStates newState args ∨
      ∃ all current, op = .update taskId all ∧ all.state? = some newState ∧ args = all.popState ∧
        row.leaseVersion = expectedLeaseVersion ∧ row.state = TaskState.value current ∧
        expectedStates = [current])
    (hfound : db.tasks.get? taskId = some row) (hguard : resurrects expectedStates newState = false)
    (hversion : row.leaseVersion = expectedLeaseVersion)
    (hstate : row.state ∈ expectedStates.map TaskState.value) : TransitionObeys row newState args := by
  rcases hop with rfl | ⟨all, current, rfl, hnew, rfl, _⟩
  · exact hobedient row hfound hversion hstate hguard
  · have hobeys := hobedient row hfound
    rwa [hnew] at hobeys

/-- What an obedient move makes of a task that is there. Kind: L -/
theorem move_obeys {op : TaskOp} {draws : Draws} {taskId : String} {before row : TaskRow}
    {entry : Transition} {staged : Staged} (hmoves : Moves db op taskId (some before) row entry staged)
    (hobedient : Obedient db (.call draws op)) :
    (before.state ∈ terminalValues → row.state = before.state) ∧
      (row.state ≠ before.state → before.leaseVersion < row.leaseVersion) ∧
      (before.attempts ≤ before.maxAttempts → row.attempts ≤ row.maxAttempts) := by
  cases hmoves with
  | transition hop hfound hguard hversion hstate =>
    rename_i expectedLeaseVersion expectedStates newState args
    have hobeys := obeys_of_move hobedient hop hfound hguard hversion hstate
    refine ⟨hobeys.terminal, fun hchanged => ?_, fun hattempts => ?_⟩
    · show before.leaseVersion < nextLeaseVersion expectedLeaseVersion args
      unfold nextLeaseVersion
      rcases hgiven : args.leaseVersion? with _ | given
      · simp_all
      · exact hobeys.version hchanged given hgiven
    · show (if newState = .running then before.attempts + 1 else before.attempts) ≤ before.maxAttempts
      split
      · rename_i hrunning
        exact hobeys.attempts hrunning
      · exact hattempts
  | assign workerId hfound hworker hattempts hstate =>
    refine ⟨fun hterminal => ?_, fun _ => Int.lt_succ before.leaseVersion, fun _ => hattempts⟩
    exact absurd hterminal (by
      rcases List.mem_cons.mp hstate with hqueued | hpending
      · rw [hqueued]
        decide
      · rw [List.mem_singleton.mp hpending]
        decide)
  | complete receiptId receiptFingerprint status hmay =>
    refine ⟨fun hterminal => ?_, fun _ => Int.lt_succ before.leaseVersion, fun hattempts => hattempts⟩
    exact absurd (hmay.running ▸ hterminal) (by decide)
  | fail message hmay hattempts hburied =>
    refine ⟨fun hterminal => ?_, fun _ => Int.lt_succ before.leaseVersion, fun hle => hle⟩
    exact absurd (hmay.running ▸ hterminal) (by decide)
  | retry message hmay hattempts =>
    refine ⟨fun hterminal => ?_, fun _ => Int.lt_succ before.leaseVersion, fun hle => hle⟩
    exact absurd (hmay.running ▸ hterminal) (by decide)

theorem get?_set_cases {κ ν : Type} [DecidableEq κ] {d : Dict κ ν} {k k' : κ} {v w : ν}
    (h : (d.set k v).get? k' = some w) : k' = k ∧ w = v ∨ k' ≠ k ∧ d.get? k' = some w := by
  rw [Dict.get?_set] at h
  split at h
  · rename_i hkey
    cases h
    exact Or.inl ⟨hkey, rfl⟩
  · rename_i hkey
    exact Or.inr ⟨hkey, h⟩

theorem withinAttempts_step (h : WithinAttempts db) {event : RepositoryEvent}
    (hobedient : Obedient db event) : WithinAttempts (db.step sha256 event) := by
  intro taskId row hrow
  rcases Database.step_cases sha256 db event with heq | ⟨draws, op, moved, before, row', entry, staged, rfl,
    hmoves, hrecorded⟩ | ⟨draws, moved, args, old, row', rfl, hnew, hfound, hset, heq⟩ | ⟨_, _, _, heq⟩
  · rw [heq] at hrow
    exact h taskId row hrow
  · rw [hrecorded.tasks] at hrow
    rcases get?_set_cases hrow with ⟨_, rfl⟩ | ⟨_, hother⟩
    · rcases before with _ | before
      · cases hmoves with
        | create task hnew => exact hobedient
      · exact (move_obeys hmoves hobedient).2.2 (h moved before hmoves.found)
    · exact h taskId row hother
  · rw [heq] at hrow
    rcases get?_set_cases hrow with ⟨_, rfl⟩ | ⟨_, hother⟩
    · have hobeys := hobedient old hfound
      rw [hnew] at hobeys
      rw [sets_attempts.updated hset, sets_maxAttempts.updated hset]
      exact hobeys
    · exact h taskId row hother
  · rw [heq] at hrow
    exact h taskId row hrow

theorem kept_step {event : RepositoryEvent} (hobedient : Obedient db event) : Kept sha256 db event := by
  have hrejected : ∀ draws op e, event = .call draws op → db.call sha256 draws op = .error e →
      db.step sha256 event = db := by
    rintro draws op e rfl herror
    unfold Database.step
    dsimp only
    rw [herror]
  have hrow : ∀ taskId row, db.tasks.get? taskId = some row →
      ∃ row', (db.step sha256 event).tasks.get? taskId = some row' ∧
        (row.state ∈ terminalValues → row'.state = row.state) ∧
        (row'.state ≠ row.state → row.leaseVersion < row'.leaseVersion) := by
    intro taskId row hrow
    rcases Database.step_cases sha256 db event with heq | ⟨draws, op, moved, before, row', entry, staged, rfl,
      hmoves, hrecorded⟩ | ⟨draws, moved, args, old, row', rfl, hnew, hfound, hset, heq⟩ | ⟨_, _, _, heq⟩
    · rw [heq]
      exact ⟨row, hrow, fun _ => rfl, fun hne => absurd rfl hne⟩
    · rw [hrecorded.tasks]
      by_cases hkey : taskId = moved
      · subst hkey
        obtain rfl := hmoves.found.symm.trans hrow
        obtain ⟨hterminal, hversion, _⟩ := move_obeys hmoves hobedient
        exact ⟨row', Dict.get?_set_self _ _ _, hterminal, hversion⟩
      · simp_all [Dict.get?_set_ne]
    · rw [heq]
      by_cases hkey : taskId = moved
      · grind [state_of_update, Dict.get?_set_self]
      · simp_all [Dict.get?_set_ne]
    · simp_all
  refine ⟨fun taskId row hfound hterminal => ?_, fun taskId row row' hfound hfound' => ?_, hrejected⟩
  · grind
  · grind

/-- **In a run of obedient calls terminal states are kept, each change of state raises the version, and no
task exceeds its attempts.** Kind: P -/
theorem obedient_run_keeps (sha256 : String → String) (events : List RepositoryEvent)
    (h : Along (Database.step sha256) Obedient {} events) :
    (∀ db ∈ reached (Database.step sha256) {} events, WithinAttempts db) ∧
      Along (Database.step sha256) (Kept sha256) {} events := by
  refine ⟨Along.invariant (fun db event hwithin hobedient => withinAttempts_step hwithin hobedient) ?_ h,
    h.mono fun db event hobedient => kept_step hobedient⟩
  intro taskId row hrow
  cases hrow

/-- Draws that are all different. Kind: D -/
def drawsAt (n : ℕ) : Draws :=
  { auditId := toString n
    auditAt := n
    eventHex := toString n
    eventAt := n
    letterHex := toString n
    plain := fun h => absurd (isDigit_of_mem_toString h) (by decide) }

/-- A queued task. Kind: D -/
def queuedTask : RemediationTask :=
  { taskId := "t", findingId := "f", approvalTokenId := "a", fingerprint := "p", state := .queued }

/-- A task is created, assigned and completed. Kind: D -/
def completing : List RepositoryEvent :=
  [.call (drawsAt 0) (.create queuedTask), .call (drawsAt 1) (.assign "t" "w"),
    .call (drawsAt 2) (.complete "t" 2 "w" 1 (some "r") none none)]

/-- A task that is completed stays so. -/
theorem obedient_run_keeps_completing :
    (∀ db ∈ reached (Database.step id) {} completing, WithinAttempts db) ∧
      Along (Database.step id) (Kept id) {} completing :=
  obedient_run_keeps id completing ⟨show (0 : ℤ) ≤ 3 by decide, trivial, trivial, trivial⟩

/-- A completed task is made retryable, and then queued. Kind: D -/
def resurrecting : List RepositoryEvent :=
  [.call (drawsAt 3) (.transition "t" 3 [.completed] .failedRetryable {}),
    .call (drawsAt 4) (.transition "t" 4 [.failedRetryable] .queued {})]

/-- A completed task is queued again by way of FAILED_RETRYABLE. -/
theorem resurrected_by_way_of_retry :
    (((completing.foldl (Database.step id) {}).tasks.get? "t").map TaskRow.state = some "COMPLETED") ∧
      (((completing ++ resurrecting).foldl (Database.step id) {}).tasks.get? "t").map TaskRow.state =
        some "QUEUED" := by
  decide +kernel

end KarsaSec.Persistence
