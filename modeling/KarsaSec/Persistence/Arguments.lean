import KarsaSec.Persistence.Alignment
import KarsaSec.Persistence.Lifetimes
import KarsaSec.Workers.Repository

/-!
# Arguments in memory and in the database

The keyword arguments of a call, set one after another on a task in memory or on its row.

* `onTask` and `onModel` say which attributes the two have; an argument that is no attribute raises.
* `setAll_keeps`, `setAll_raises`, `setAll_reads`: what a list of arguments keeps, when it raises, and what a
  field reads after it.
* `split_state`: the arguments of an update before and after its state.
-/

namespace KarsaSec.Persistence

open KarsaSec.Found KarsaSec.Workers KarsaSec.Events

/-! ## Attributes -/

/-- Whether the tasks in memory have the attribute. Source: `repository.py`, `hasattr(task, key)`. Kind: D -/
def onTask : TaskArg → Bool
  | .assignedWorkerId _ | .assignedWorkerFencingToken _ | .recoveryFencingToken _ | .payload _ | .reason _ => false
  | .unread _ known _ => known
  | _ => true

/-- Whether the stored tasks have the attribute.
Source: `postgres_task_repository.py`, `hasattr(model, key)`
Kind: D -/
def onModel : TaskArg → Bool
  | .rawState _ | .token _ | .startedAt _ | .reason _ => false
  | .unread _ _ known => known
  | _ => true

theorem setArg_onTask {arg : TaskArg} (h : onTask arg = true) (task : RemediationTask) :
    ∃ task', task.setArg arg = .ok task' := by
  cases arg with
  | unread name known knownModel =>
    cases h
    exact ⟨task, rfl⟩
  | assignedWorkerId => cases h
  | assignedWorkerFencingToken => cases h
  | recoveryFencingToken => cases h
  | payload => cases h
  | reason => cases h
  | _ => exact ⟨_, rfl⟩

theorem setArg_not_onTask {arg : TaskArg} (h : onTask arg = false) (task : RemediationTask) :
    ∃ e, task.setArg arg = .error e := by
  cases arg with
  | unread name known knownModel =>
    cases h
    exact ⟨_, rfl⟩
  | assignedWorkerId => exact ⟨_, rfl⟩
  | assignedWorkerFencingToken => exact ⟨_, rfl⟩
  | recoveryFencingToken => exact ⟨_, rfl⟩
  | payload => exact ⟨_, rfl⟩
  | reason => exact ⟨_, rfl⟩
  | _ => cases h

theorem setArg_onModel {arg : TaskArg} (h : onModel arg = true) (row : TaskRow) :
    ∃ row', row.setArg arg = .ok row' := by
  cases arg with
  | unread name known knownModel =>
    cases h
    exact ⟨row, rfl⟩
  | rawState => cases h
  | token => cases h
  | startedAt => cases h
  | reason => cases h
  | _ => exact ⟨_, rfl⟩

theorem setArg_not_onModel {arg : TaskArg} (h : onModel arg = false) (row : TaskRow) :
    ∃ e, row.setArg arg = .error e := by
  cases arg with
  | unread name known knownModel =>
    cases h
    exact ⟨_, rfl⟩
  | rawState => exact ⟨_, rfl⟩
  | token => exact ⟨_, rfl⟩
  | startedAt => exact ⟨_, rfl⟩
  | reason => exact ⟨_, rfl⟩
  | _ => cases h

theorem foldlM_succeeds {entries : List TaskArg} (h : ∀ arg ∈ entries, onModel arg = true) (row : TaskRow) :
    ∃ row', entries.foldlM TaskRow.setArg row = .ok row' := by
  induction entries generalizing row with
  | nil => exact ⟨row, rfl⟩
  | cons arg rest ih =>
    obtain ⟨row', hset⟩ := setArg_onModel (h arg List.mem_cons_self) row
    obtain ⟨row'', hrest⟩ := ih (fun other hother => h other (List.mem_cons_of_mem arg hother)) row'
    refine ⟨row'', ?_⟩
    rw [List.foldlM_cons, hset]
    exact hrest

theorem foldlM_raises {entries : List TaskArg} (h : ∃ arg ∈ entries, onModel arg = false) (row : TaskRow) :
    ∃ e, entries.foldlM TaskRow.setArg row = .error e := by
  induction entries generalizing row with
  | nil =>
    obtain ⟨arg, harg, _⟩ := h
    exact absurd harg List.not_mem_nil
  | cons first rest ih =>
    rw [List.foldlM_cons]
    rcases hset : row.setArg first with e | row'
    · exact ⟨e, rfl⟩
    · obtain ⟨arg, harg, hunknown⟩ := h
      rcases List.mem_cons.mp harg with rfl | harg
      · obtain ⟨e, herror⟩ := setArg_not_onModel hunknown row
        rw [hset] at herror
        cases herror
      · exact ih ⟨arg, harg, hunknown⟩ row'

/-! ## Arguments one after another -/

section arguments

variable {set : RemediationTask → TaskArg → Except TaskError RemediationTask}

theorem setAll_cons (task : RemediationTask) (arg : TaskArg) (rest : List TaskArg) :
    setAll set task (arg :: rest) = match set task arg with
      | .ok task => setAll set task rest
      | .error e => (task, some e) := rfl

/-- What each argument keeps, all of them keep, also when one of them raises. Kind: L -/
theorem setAll_keeps {P : RemediationTask → Prop} {entries : List TaskArg}
    (h : ∀ arg ∈ entries, ∀ task task', P task → set task arg = .ok task' → P task') {task : RemediationTask}
    (hP : P task) : P (setAll set task entries).1 := by
  induction entries generalizing task with
  | nil => exact hP
  | cons arg rest ih =>
    have hrest := fun other hother => h other (List.mem_cons_of_mem arg hother)
    rw [setAll_cons]
    rcases hset : set task arg with e | task'
    · exact hP
    · exact ih hrest (h arg List.mem_cons_self task task' hP hset)

theorem setAll_succeeds {entries : List TaskArg} (h : ∀ arg ∈ entries, ∀ task, ∃ task', set task arg = .ok task')
    (task : RemediationTask) : (setAll set task entries).2 = none := by
  induction entries generalizing task with
  | nil => rfl
  | cons arg rest ih =>
    obtain ⟨task', hset⟩ := h arg List.mem_cons_self task
    rw [setAll_cons]
    rw [hset]
    exact ih (fun other hother => h other (List.mem_cons_of_mem arg hother)) task'

/-- An argument that raises on every task that the arguments before it lead to. Kind: L -/
theorem setAll_raises {P : RemediationTask → Prop} {entries : List TaskArg}
    (h : ∀ arg ∈ entries, ∀ task task', P task → set task arg = .ok task' → P task')
    (hraises : ∃ arg ∈ entries, ∀ task, P task → ∃ e, set task arg = .error e) {task : RemediationTask}
    (hP : P task) : ∃ e, (setAll set task entries).2 = some e := by
  induction entries generalizing task with
  | nil =>
    obtain ⟨arg, harg, _⟩ := hraises
    exact absurd harg List.not_mem_nil
  | cons first rest ih =>
    rw [setAll_cons]
    rcases hset : set task first with e | task'
    · exact ⟨e, rfl⟩
    · refine ih (fun other hother => h other (List.mem_cons_of_mem first hother)) ?_
        (h first List.mem_cons_self task task' hP hset)
      obtain ⟨arg, harg, hraise⟩ := hraises
      rcases List.mem_cons.mp harg with rfl | harg
      · grind
      · exact ⟨arg, harg, hraise⟩

theorem setAll_append {pre post : List TaskArg} {task : RemediationTask}
    (h : (setAll set task pre).2 = none) :
    setAll set task (pre ++ post) = setAll set (setAll set task pre).1 post := by
  induction pre generalizing task with
  | nil => rfl
  | cons arg rest ih =>
    rw [List.cons_append, setAll_cons, setAll_cons]
    rw [setAll_cons] at h
    rcases hset : set task arg with e | task'
    · rw [hset] at h
      cases h
    · rw [hset] at h
      exact ih h

/-- After arguments that all succeed, a field has the value that one of them gives, if any. Kind: L -/
theorem setAll_reads {β : Type} {get : RemediationTask → β} {read : TaskArg → Option β}
    (hset : ∀ task arg task', set task arg = .ok task' → get task' = (read arg).getD (get task))
    (honce : ∀ a b, (read a).isSome → (read b).isSome → a.name = b.name) {entries : List TaskArg}
    (hnodup : (entries.map TaskArg.name).Nodup) {task : RemediationTask}
    (h : (setAll set task entries).2 = none) :
    get (setAll set task entries).1 = (entries.findSome? read).getD (get task) := by
  induction entries generalizing task with
  | nil => rfl
  | cons arg rest ih =>
    rw [List.map_cons, List.nodup_cons] at hnodup
    rw [setAll_cons] at h ⊢
    rcases hfirst : set task arg with e | task'
    · rw [hfirst] at h
      cases h
    · rw [hfirst] at h
      refine (ih hnodup.2 h).trans ?_
      rw [hset task arg task' hfirst]
      exact read_cons honce hnodup.1 _

theorem setAll_congr {set set' : RemediationTask → TaskArg → Except TaskError RemediationTask}
    {entries : List TaskArg} (h : ∀ arg ∈ entries, ∀ task, set task arg = set' task arg)
    (task : RemediationTask) : setAll set task entries = setAll set' task entries := by
  induction entries generalizing task with
  | nil => rfl
  | cons arg rest ih =>
    rw [setAll_cons, setAll_cons, h arg List.mem_cons_self task]
    split
    · simp_all
    · rfl

end arguments

/-! ## Fields -/

/-- An argument that sets the state behind the state machine, the attempts or their bound only to the given
values. Kind: D -/
def Neutral (state : TaskState) (attempts maxAttempts : ℤ) : TaskArg → Prop
  | .rawState v => v = state
  | .attempts v => v = attempts
  | .maxAttempts v => v = maxAttempts
  | _ => True

/-- The state, the attempts and their bound. Kind: D -/
def Counts (state : TaskState) (attempts maxAttempts : ℤ) (task : RemediationTask) : Prop :=
  task.state = state ∧ task.attempts = attempts ∧ task.maxAttempts = maxAttempts

theorem setArg_counts {state : TaskState} {attempts maxAttempts : ℤ} {arg : TaskArg}
    (h : Neutral state attempts maxAttempts arg) {task task' : RemediationTask}
    (hcounts : Counts state attempts maxAttempts task) (hset : task.setArg arg = .ok task') :
    Counts state attempts maxAttempts task' := by
  obtain ⟨hstate, hattempts, hmax⟩ := hcounts
  cases arg with
  | rawState v =>
    cases hset
    exact ⟨h, hattempts, hmax⟩
  | attempts v =>
    cases hset
    exact ⟨hstate, h, hmax⟩
  | maxAttempts v =>
    cases hset
    exact ⟨hstate, hattempts, h⟩
  | unread name known knownModel =>
    cases known with
    | true =>
      cases hset
      exact ⟨hstate, hattempts, hmax⟩
    | false => cases hset
  | assignedWorkerId => cases hset
  | assignedWorkerFencingToken => cases hset
  | recoveryFencingToken => cases hset
  | payload => cases hset
  | reason => cases hset
  | _ =>
    cases hset
    exact ⟨hstate, hattempts, hmax⟩

/-- What an argument that is set does to the fields that count. Kind: L -/
theorem setArg_fields {task task' : RemediationTask} {arg : TaskArg} (h : task.setArg arg = .ok task') :
    (onModel arg = true → task'.state = task.state) ∧ task'.attempts = (readAttempts arg).getD task.attempts ∧
      task'.maxAttempts = (readMaxAttempts arg).getD task.maxAttempts ∧
      task'.leaseVersion = (readLeaseVersion arg).getD task.leaseVersion := by
  cases arg with
  | rawState v =>
    cases h
    exact ⟨fun harg => Bool.noConfusion harg, rfl, rfl, rfl⟩
  | unread name known knownModel =>
    cases known with
    | true =>
      cases h
      exact ⟨fun _ => rfl, rfl, rfl, rfl⟩
    | false => cases h
  | assignedWorkerId => cases h
  | assignedWorkerFencingToken => cases h
  | recoveryFencingToken => cases h
  | payload => cases h
  | reason => cases h
  | _ =>
    cases h
    exact ⟨fun _ => rfl, rfl, rfl, rfl⟩

theorem setArg_state {task task' : RemediationTask} {arg : TaskArg} (harg : onModel arg = true)
    (h : task.setArg arg = .ok task') : task'.state = task.state :=
  (setArg_fields h).1 harg

theorem setArg_attempts {task task' : RemediationTask} {arg : TaskArg} (h : task.setArg arg = .ok task') :
    task'.attempts = (readAttempts arg).getD task.attempts :=
  (setArg_fields h).2.1

theorem setArg_maxAttempts {task task' : RemediationTask} {arg : TaskArg} (h : task.setArg arg = .ok task') :
    task'.maxAttempts = (readMaxAttempts arg).getD task.maxAttempts :=
  (setArg_fields h).2.2.1

theorem setArg_leaseVersion {task task' : RemediationTask} {arg : TaskArg} (h : task.setArg arg = .ok task') :
    task'.leaseVersion = (readLeaseVersion arg).getD task.leaseVersion :=
  (setArg_fields h).2.2.2

/-! ## Arguments of an update -/

variable {now : ℚ}

/-- An argument of an update in memory. Source: `repository.py`, `update_task`. Kind: D -/
def updateArg (now : ℚ) (task : RemediationTask) (arg : TaskArg) : Except TaskError RemediationTask :=
  match arg with
  | .state v => task.transitionTo now v
  | _ => task.setArg arg

theorem updateArg_of_not_state {arg : TaskArg} (h : ∀ v, arg ≠ .state v) (task : RemediationTask) :
    updateArg now task arg = task.setArg arg := by
  cases arg with
  | state v => exact absurd rfl (h v)
  | _ => rfl

theorem enter_leaseVersion (newState : TaskState) (task : RemediationTask) :
    (task.enter now newState).leaseVersion = task.leaseVersion := by
  cases newState <;> rfl

theorem updateArg_leaseVersion {task task' : RemediationTask} {arg : TaskArg}
    (h : updateArg now task arg = .ok task') :
    task'.leaseVersion = (readLeaseVersion arg).getD task.leaseVersion := by
  cases arg with
  | state v =>
    change task.transitionTo now v = .ok task' at h
    unfold RemediationTask.transitionTo at h
    split at h
    · cases h
      exact enter_leaseVersion v task
    · cases h
  | _ => exact setArg_leaseVersion h

/-- The arguments of an update with a state: those before it, and those after it. Kind: L -/
theorem split_state {args : TaskArgs} {newState : TaskState} (h : args.state? = some newState) :
    ∃ pre post, args.entries = pre ++ .state newState :: post ∧ (∀ arg ∈ pre, ∀ v, arg ≠ .state v) ∧
      ∀ arg ∈ post, ∀ v, arg ≠ .state v := by
  obtain ⟨pre, arg, post, hentries, hread, hpre⟩ := List.findSome?_eq_some_iff.mp h
  have harg : arg = .state newState := by grind
  rw [harg] at hentries
  refine ⟨pre, post, hentries, fun other hother v hstate => ?_, fun other hother v hstate => ?_⟩
  · grind
  · have hnodup := args.nodup
    rw [hentries, List.map_append, List.nodup_append, List.map_cons, List.nodup_cons] at hnodup
    refine hnodup.2.1.1 (List.mem_map.mpr ⟨other, hother, ?_⟩)
    rw [hstate]
    rfl

theorem not_state {args : TaskArgs} (h : args.state? = none) : ∀ arg ∈ args.entries, ∀ v, arg ≠ .state v := by
  intro arg harg v hstate
  have hnone := List.findSome?_eq_none_iff.mp h arg harg
  rw [hstate] at hnone
  cases hnone

theorem leaseVersion?_eq (args : TaskArgs) : args.leaseVersion? = args.entries.findSome? readLeaseVersion := by
  unfold TaskArgs.leaseVersion? TaskArgs.find?
  congr 1

theorem popState_leaseVersion? (args : TaskArgs) : args.popState.leaseVersion? = args.leaseVersion? := by
  rw [leaseVersion?_eq, leaseVersion?_eq]
  show (args.entries.filter _).findSome? readLeaseVersion = _
  induction args.entries with
  | nil => rfl
  | cons arg rest ih =>
    cases arg with
    | state v => exact ih
    | _ => rw [List.filter_cons_of_pos rfl, List.findSome?_cons, List.findSome?_cons, ih]

end KarsaSec.Persistence
