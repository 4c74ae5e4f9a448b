import KarsaSec.Persistence.Alignment
import KarsaSec.Persistence.Lifetimes

/-!
# The path of a task in its audit rows

The audit rows of a task are to lead from NONE to its state, with increasing versions and one event each.

* `Leads` is a path of rows from one state to another; `AuditPath` is what is expected of a task.
* `atomic_transition` reports the first of the states that it expects, which need not be the state that it
  finds: `expected_state_is_reported`.
* `audited_run_leads`: where the first expected state is the one that is found, and versions only go up, the
  rows of each task form such a path.
-/

namespace KarsaSec.Persistence

open KarsaSec.Found KarsaSec.Workers KarsaSec.Events

/-- Rows that lead from one state to another, each starting where the one before it ended. Kind: D -/
def Leads : String → List AuditRow → String → Prop
  | state, [], final => state = final
  | state, entry :: rest, final => entry.previousState = state ∧ Leads entry.newState rest final

instance decidableLeads : (state : String) → (entries : List AuditRow) → (final : String) →
    Decidable (Leads state entries final)
  | state, [], final => inferInstanceAs (Decidable (state = final))
  | state, entry :: rest, final =>
    have := decidableLeads entry.newState rest final
    inferInstanceAs (Decidable (entry.previousState = state ∧ Leads entry.newState rest final))

theorem leads_snoc {entry : AuditRow} : {state : String} → {entries : List AuditRow} →
    Leads state entries entry.previousState → Leads state (entries ++ [entry]) entry.newState
  | _, [], h => ⟨h.symm, rfl⟩
  | _, _ :: _, h => ⟨h.1, leads_snoc h.2⟩

/-- The state of a task; before it is created there is none. Kind: D -/
def stateOf (db : Database) (taskId : String) : String := ((db.tasks.get? taskId).map TaskRow.state).getD "NONE"

/-- What is expected of the audit rows of a task: they lead from NONE to its state, their versions increase,
and each has exactly one event. Kind: D -/
structure AuditPath (db : Database) (taskId : String) (row : TaskRow) : Prop where
  nonempty : entriesOf db taskId ≠ []
  leads : Leads "NONE" (entriesOf db taskId) row.state
  increasing : ((entriesOf db taskId).map AuditRow.leaseVersion).Pairwise (· < ·)
  events : ∀ entry ∈ entriesOf db taskId, (db.outbox.filter fun event =>
    event.aggregateId = taskId ∧ event.aggregateSequence = entry.leaseVersion).length = 1

/-- A transition that is accepted names the state that it finds first. Kind: D -/
def NamesState (db : Database) : RepositoryEvent → Prop
  | .call _ (.transition taskId expectedLeaseVersion expectedStates newState _) =>
    ∀ row, db.tasks.get? taskId = some row → row.leaseVersion = expectedLeaseVersion →
      row.state ∈ expectedStates.map TaskState.value → resurrects expectedStates newState = false →
        (expectedStates.map TaskState.value).head? = some row.state
  | _ => True

variable {sha256 : String → String} {db db' : Database} {draws : Draws} {op : TaskOp} {taskId : String}
  {row : TaskRow} {entry : Transition} {staged : Staged}

/-- A move reports the state that it finds, NONE for a new task. Kind: L -/
theorem move_previousState {before : Option TaskRow} (hmoves : Moves db op taskId before row entry staged)
    (h : NamesState db (.call draws op)) : entry.previousState = stateOf db taskId := by
  have hstate : stateOf db taskId = (before.map TaskRow.state).getD "NONE" := by
    unfold stateOf
    rw [hmoves.found]
  rw [hstate]
  cases hmoves with
  | create => rfl
  | transition hop hfound hguard hversion hmem =>
    rename_i row expectedLeaseVersion expectedStates newState args
    show (expectedStates.map TaskState.value).headD "UNKNOWN" = row.state
    rcases hop with rfl | ⟨all, current, rfl, _, rfl, _, hcurrent, rfl⟩
    · rw [List.headD_eq_head?_getD, h row hfound hversion hmem hguard]
      rfl
    · exact hcurrent.symm
  | assign => rfl
  | complete => rfl
  | fail => rfl
  | retry => rfl

/-- The rows of every task lead to its state. Kind: D -/
def AllLead (db : Database) : Prop := ∀ taskId, Leads "NONE" (entriesOf db taskId) (stateOf db taskId)

theorem allLead_step (h : AllLead db) {event : RepositoryEvent} (hnames : NamesState db event) :
    AllLead (db.step sha256 event) := by
  intro other
  rcases Database.step_cases sha256 db event with heq | ⟨draws, op, moved, before, row', entry, staged, rfl,
    hmoves, hrecorded⟩ | ⟨draws, moved, args, old, row', rfl, hnew, hfound, hset, heq⟩ | ⟨_, _, _, heq⟩
  · rw [heq]
    exact h other
  · rw [entriesOf_append hrecorded hmoves.entry_taskId other]
    unfold stateOf
    rw [hrecorded.tasks]
    by_cases hother : moved = other
    · subst hother
      rw [if_pos rfl, Dict.get?_set_self]
      have hlead := h moved
      rw [← move_previousState hmoves hnames] at hlead
      have hsnoc : Leads "NONE" (entriesOf db moved ++ [TaskAuditLedger.newRow sha256 draws db.audit entry])
          entry.newState := leads_snoc hlead
      show Leads "NONE" _ row'.state
      rw [← hmoves.entry_newState]
      exact hsnoc
    · rw [if_neg hother, List.append_nil, Dict.get?_set_ne _ (Ne.symm hother)]
      exact h other
  · rw [heq]
    have hlead := h other
    unfold stateOf at hlead ⊢
    dsimp only
    by_cases hother : other = moved
    · subst hother
      rw [Dict.get?_set_self]
      rw [hfound] at hlead
      show Leads "NONE" _ row'.state
      rw [state_of_update hnew hset]
      exact hlead
    · rw [Dict.get?_set_ne _ hother]
      exact hlead
  · rw [heq]
    exact h other

/-- Every stored state is one of the states of a task. Kind: D -/
def ValidStates (db : Database) : Prop :=
  ∀ taskId row, db.tasks.get? taskId = some row → ∃ state : TaskState, row.state = state.value

theorem move_state {before : Option TaskRow} (hmoves : Moves db op taskId before row entry staged) :
    ∃ state : TaskState, row.state = state.value := by
  cases hmoves with
  | create task => exact ⟨task.state, rfl⟩
  | transition => exact ⟨_, rfl⟩
  | assign => exact ⟨.running, rfl⟩
  | complete => exact ⟨.completed, rfl⟩
  | fail => exact ⟨.failed, rfl⟩
  | retry => exact ⟨.queued, rfl⟩

theorem validStates_step (h : ValidStates db) (event : RepositoryEvent) :
    ValidStates (db.step sha256 event) := by
  intro taskId row hrow
  rcases Database.step_cases sha256 db event with heq | ⟨draws, op, moved, before, row', entry, staged, rfl,
    hmoves, hrecorded⟩ | ⟨draws, moved, args, old, row', rfl, hnew, hfound, hset, heq⟩ | ⟨_, _, _, heq⟩
  · rw [heq] at hrow
    exact h taskId row hrow
  · rw [hrecorded.tasks] at hrow
    rcases get?_set_cases hrow with ⟨_, rfl⟩ | ⟨_, hother⟩
    · exact move_state hmoves
    · exact h taskId row hother
  · rw [heq] at hrow
    rcases get?_set_cases hrow with ⟨_, rfl⟩ | ⟨_, hother⟩
    · rw [state_of_update hnew hset]
      exact h moved old hfound
    · exact h taskId row hother
  · rw [heq] at hrow
    exact h taskId row hrow

/-- Each row of a task has one event. Kind: L -/
theorem Aligned.one_event (h : Aligned db) {taskId : String} {entry : AuditRow}
    (hentry : entry ∈ entriesOf db taskId) :
    (db.outbox.filter fun event =>
      event.aggregateId = taskId ∧ event.aggregateSequence = entry.leaseVersion).length = 1 := by
  have hevents : (db.outbox.filter fun event =>
      event.aggregateId = taskId ∧ event.aggregateSequence = entry.leaseVersion).length =
      (db.outbox.map fun event => (event.aggregateId, event.aggregateSequence)).count
        (taskId, entry.leaseVersion) := by
    unfold List.count
    rw [List.countP_map, ← List.countP_eq_length_filter]
    refine List.countP_congr fun event _ => ?_
    simp [Prod.ext_iff]
  rw [hevents, h.pairs, count_pair]
  exact List.count_eq_one_of_mem (h.nodup_versions taskId) (List.mem_map_of_mem hentry)

theorem auditPath_of_aligned (h : Aligned db) (hlead : AllLead db) (hvalid : ValidStates db)
    (hfound : db.tasks.get? taskId = some row) : AuditPath db taskId row := by
  have hleads := hlead taskId
  unfold stateOf at hleads
  rw [hfound] at hleads
  refine ⟨fun hempty => ?_, hleads, h.increasing taskId, fun entry hentry => h.one_event hentry⟩
  rw [hempty] at hleads
  obtain ⟨state, hstate⟩ := hvalid taskId row hfound
  have hnone : "NONE" = state.value := Eq.trans hleads hstate
  cases state <;> exact absurd hnone (by decide)

/-- **Where calls name the state that they find and versions only go up, the audit rows of every task lead
from NONE to its state.** Kind: P -/
theorem audited_run_leads (sha256 : String → String) (events : List RepositoryEvent)
    (h : Along (Database.step sha256) (fun db event => Advances db event ∧ NamesState db event) {} events) :
    ∀ db ∈ reached (Database.step sha256) {} events, ∀ taskId row, db.tasks.get? taskId = some row →
      AuditPath db taskId row := by
  have hinv : ∀ db ∈ reached (Database.step sha256) {} events,
      Aligned db ∧ AllLead db ∧ ValidStates db := by
    refine Along.invariant (fun db event hdb hcond => ?_) ⟨aligned_init, fun _ => rfl, ?_⟩ h
    · simp_all [aligned_step, allLead_step, validStates_step]
    · intro taskId row hrow
      cases hrow
  intro db hdb taskId row hfound
  obtain ⟨haligned, hlead, hvalid⟩ := hinv db hdb
  exact auditPath_of_aligned haligned hlead hvalid hfound

/-- The rows of a task that is completed lead to COMPLETED. -/
theorem audited_run_leads_completing :
    ∃ row, (completing.foldl (Database.step id) {}).tasks.get? "t" = some row ∧
      AuditPath (completing.foldl (Database.step id) {}) "t" row := by
  have hfound : ((completing.foldl (Database.step id) {}).tasks.get? "t").isSome = true := by decide +kernel
  obtain ⟨row, hrow⟩ := Option.isSome_iff_exists.mp hfound
  exact ⟨row, hrow, audited_run_leads id completing
    ⟨⟨trivial, trivial⟩, ⟨trivial, trivial⟩, ⟨trivial, trivial⟩, trivial⟩ _ (foldl_mem_reached _ _) "t" row
    hrow⟩

/-- A task that is queued is cancelled by a call that expects it to run or to be queued. Kind: D -/
def cancelling : List RepositoryEvent :=
  [.call (drawsAt 0) (.create queuedTask),
    .call (drawsAt 1) (.transition "t" 1 [.running, .queued] .cancelled ⟨[], List.nodup_nil⟩)]

/-- The audit row says that the queued task was running. -/
theorem expected_state_is_reported :
    ((entriesOf (cancelling.foldl (Database.step id) {}) "t").map fun entry =>
        (entry.previousState, entry.newState)) = [("NONE", "QUEUED"), ("RUNNING", "CANCELLED")] ∧
      ¬ Leads "NONE" (entriesOf (cancelling.foldl (Database.step id) {}) "t")
        (stateOf (cancelling.foldl (Database.step id) {}) "t") := by
  decide +kernel

end KarsaSec.Persistence
