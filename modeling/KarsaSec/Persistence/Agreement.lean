import KarsaSec.Persistence.SideBySide

/-!
# The two repositories agree

* `concord_transition`, `concord_update`: the calls that take keyword arguments.
* `concordant_run_agrees`: in a run of concordant calls the two repositories accept the same calls and have the
  same tasks.
* `assigned_pending_task_differs` is a call that is not concordant: in memory an assignment takes a pending
  task, but the state machine does not start it.
-/

namespace KarsaSec.Persistence

open KarsaSec.Found KarsaSec.Workers KarsaSec.Events

variable {sha256 : String → String} {r : Repositories} {taskId : String} {task : RemediationTask}
  {row : TaskRow} {draws : Draws} {now : ℚ}

/-! ## Transitions -/

theorem SameTask.counts {task : RemediationTask} (h : SameTask task row) :
    Counts task.state row.attempts row.maxAttempts task :=
  ⟨rfl, h.attempts.symm, h.maxAttempts.symm⟩

theorem enter_counts {current newState : TaskState} {task : RemediationTask}
    (h : Counts current row.attempts row.maxAttempts task) :
    Counts newState (attemptsAfter row newState) row.maxAttempts (task.enter now newState) := by
  obtain ⟨_, hattempts, hmax⟩ := h
  unfold attemptsAfter
  rw [← hattempts, ← hmax]
  cases newState <;> exact ⟨rfl, rfl, rfl⟩

/-- The counters of a task in memory after a transition to which a lease version is given, and those of its
row. Kind: L -/
theorem sameTask_transition {task : RemediationTask} {newState : TaskState} {args : TaskArgs} {v : ℤ}
    (hcounts : Counts newState (attemptsAfter row newState) row.maxAttempts task)
    (hversion : task.leaseVersion = v) : SameTask task (transitionRow row v newState args) :=
  ⟨(congrArg TaskState.value hcounts.1).symm, hcounts.2.1.symm, hcounts.2.2.symm, hversion.symm⟩

theorem allowed_not_resurrected {current newState : TaskState} (h : newState ∈ current.allowedTransitions) :
    resurrects [current] newState = false := by
  revert h
  cases current <;> cases newState <;> decide

theorem allowed_not_failed {current newState : TaskState} (h : newState ∈ current.allowedTransitions) :
    current ≠ .failed := by
  rintro rfl
  exact absurd h List.not_mem_nil

/-- A transition that does not match is rejected. Source: `postgres_task_repository.py`, `atomic_transition`. Kind: L -/
theorem transition_misses {db : Database} {expectedLeaseVersion : ℤ} {expectedStates : List TaskState}
    (newState : TaskState) (args : TaskArgs) (hmiss : ∀ row, db.tasks.get? taskId = some row →
      ¬(row.leaseVersion = expectedLeaseVersion ∧ row.state ∈ expectedStates.map TaskState.value)) :
    ∃ e, db.atomicTransition sha256 draws taskId expectedLeaseVersion expectedStates newState args = .error e := by
  unfold Database.atomicTransition
  split
  · exact ⟨_, rfl⟩
  · cases hrow : db.tasks.get? taskId with
    | none => exact ⟨_, rfl⟩
    | some row =>
      dsimp only
      rw [if_neg (hmiss row hrow)]
      exact ⟨_, rfl⟩

/-- A transition whose arguments are attributes in memory, with a lease version and no other counters, goes through.
Kind: L -/
theorem transition_succeeds (now : ℚ) {newState : TaskState} {args : TaskArgs} {v : ℤ} (hsame : SameTask task row)
    (hgiven : args.leaseVersion? = some v)
    (hargs : ∀ arg ∈ args.entries, onTask arg = true ∧
      Neutral newState (attemptsAfter row newState) row.maxAttempts arg) :
    (setAll RemediationTask.setArg (task.enter now newState) args.entries).2 = none ∧
      SameTask (setAll RemediationTask.setArg (task.enter now newState) args.entries).1
        (transitionRow row v newState args) := by
  have hraised : (setAll RemediationTask.setArg (task.enter now newState) args.entries).2 = none :=
    setAll_succeeds (fun arg harg task => setArg_onTask (hargs arg harg).1 task) _
  have hcounts : Counts newState (attemptsAfter row newState) row.maxAttempts
      (setAll RemediationTask.setArg (task.enter now newState) args.entries).1 :=
    setAll_keeps (fun arg harg _ _ hP hset => setArg_counts (hargs arg harg).2 hP hset) (enter_counts hsame.counts)
  have hlease := setAll_reads (fun _ _ _ hset => setArg_leaseVersion hset) sets_leaseVersion.once args.nodup hraised
  rw [← leaseVersion?_eq, hgiven] at hlease
  exact ⟨hraised, sameTask_transition hcounts hlease⟩

/-- A transition that matches is taken by both, or rejected by both. Kind: L -/
theorem concord_transition (h : InStep r) (hfresh : Fresh r.database draws) (expectedLeaseVersion : ℤ)
    (expectedStates : List TaskState) (newState : TaskState) (args : TaskArgs)
    (hcondition : ∀ row current, r.database.tasks.get? taskId = some row → row.state = current.value →
      row.leaseVersion = expectedLeaseVersion → current ∈ expectedStates →
        ConcordantTransition taskId row current expectedStates newState args) :
    Concord sha256 r ⟨now, draws, .transition taskId expectedLeaseVersion expectedStates newState args⟩ := by
  have hcall : r.database.call sha256 draws (.transition taskId expectedLeaseVersion expectedStates newState
      args) = r.database.atomicTransition sha256 draws taskId expectedLeaseVersion expectedStates newState
        args := rfl
  have hcall' : r.memory.call now (.transition taskId expectedLeaseVersion expectedStates newState args) =
      r.memory.atomicTransition now taskId expectedLeaseVersion expectedStates newState args := rfl
  unfold InMemoryTaskRepository.atomicTransition at hcall'
  rcases h.found taskId with ⟨hmem, hdb⟩ | ⟨task, row, hmem, hdb, hsame⟩
  · rw [hmem] at hcall'
    obtain ⟨e, herror⟩ : ∃ e, r.database.atomicTransition sha256 draws taskId expectedLeaseVersion expectedStates
        newState args = .error e := by
      refine transition_misses newState args fun row hrow => ?_
      rw [hdb] at hrow
      cases hrow
    exact .rejected _ _ e hcall' (hcall.trans herror) h
  · rw [hmem] at hcall'
    dsimp only at hcall'
    by_cases hmatch : task.leaseVersion = expectedLeaseVersion ∧ task.state ∈ expectedStates
    · obtain ⟨hversion, hstate⟩ := hmatch
      have hversion' := hsame.leaseVersion.trans hversion
      unfold Database.atomicTransition at hcall
      rw [hdb] at hcall
      dsimp only at hcall
      rw [if_neg (not_not.mpr hversion), if_neg (not_not.mpr hstate)] at hcall'
      rcases hcondition row task.state hdb hsame.state hversion' hstate with ⟨hnot, hguard⟩ |
        ⟨hallowed, hguard, hgiven, hcolumns, hargs⟩
      · rw [hguard, if_pos rfl] at hcall
        have hreject : task.transitionTo now newState = .error _ := if_neg hnot
        rw [hreject] at hcall'
        exact .rejected _ _ _ hcall' hcall h
      · rw [hversion'] at hcolumns
        have hrow := h.stored taskId row hdb
        have hknown := fun arg harg => (hargs arg harg).1
        have hmem' : row.state ∈ expectedStates.map TaskState.value := by
          rw [hsame.state]
          exact List.mem_map_of_mem hstate
        have hstart : task.transitionTo now newState = .ok (task.enter now newState) := if_pos hallowed
        rw [hguard, if_neg Bool.false_ne_true, if_pos ⟨hversion', hmem'⟩] at hcall
        rw [hstart] at hcall'
        obtain ⟨v, hv⟩ := Option.isSome_iff_exists.mp hgiven
        have hnext : nextLeaseVersion expectedLeaseVersion args = v := by
          unfold nextLeaseVersion
          rw [hv]
          rfl
        subst hnext
        obtain ⟨hraised, hsameNext⟩ := transition_succeeds now hsame hv hargs
        obtain ⟨audit, outbox, committed, hcommit⟩ := commit_succeeds hfresh.audit hfresh.event taskId
          (transitionRow row (nextLeaseVersion expectedLeaseVersion args) newState args) newState rfl
          (transitionEntry taskId expectedStates newState (nextLeaseVersion expectedLeaseVersion args) args)
          (transitionEvent taskId newState (nextLeaseVersion expectedLeaseVersion args))
          (holds_transition hrow hknown hcolumns)
        refine .accepted _ _ committed (hcall'.trans (Prod.ext rfl hraised)) (hcall.trans hcommit)
          (h.set hsameNext (transitionRow_fits hrow hknown hcolumns) (fun old hold hfailed => ?_) _ _)
        cases hdb.symm.trans hold
        rw [hsame.state] at hfailed
        exact absurd (value_eq.mp hfailed) (allowed_not_failed hallowed)
    · obtain ⟨e, herror⟩ : ∃ e, r.database.atomicTransition sha256 draws taskId expectedLeaseVersion expectedStates
          newState args = .error e := by
        refine transition_misses newState args fun other hother => ?_
        rintro ⟨hversion, hstate⟩
        cases hdb.symm.trans hother
        refine hmatch ⟨hsame.leaseVersion.symm.trans hversion, ?_⟩
        rw [hsame.state] at hstate
        obtain ⟨state, hstate, heq⟩ := List.mem_map.mp hstate
        rw [← value_eq.mp heq]
        exact hstate
      by_cases hversion : task.leaseVersion = expectedLeaseVersion
      · rw [if_neg (not_not.mpr hversion), if_pos (fun hstate => hmatch ⟨hversion, hstate⟩)] at hcall'
        exact .rejected _ _ e hcall' (hcall.trans herror) h
      · rw [if_pos hversion] at hcall'
        exact .rejected _ _ e hcall' (hcall.trans herror) h

/-! ## Updates -/

/-- An update with a state that the state machine allows, whose arguments are attributes in memory and set no
other counters, goes through. Kind: L -/
theorem update_state_succeeds (now : ℚ) {args : TaskArgs} {newState : TaskState} (hstate : args.state? = some newState)
    (hsame : SameTask task row) (hallowed : newState ∈ task.state.allowedTransitions)
    (hargs : ∀ arg ∈ args.entries, onTask arg = true ∧ Neutral task.state row.attempts row.maxAttempts arg ∧
      Neutral newState (attemptsAfter row newState) row.maxAttempts arg) :
    (setAll (updateArg now) task args.entries).2 = none ∧
      Counts newState (attemptsAfter row newState) row.maxAttempts
        (setAll (updateArg now) task args.entries).1 := by
  obtain ⟨pre, post, hentries, hpre, hpost⟩ := split_state hstate
  rw [hentries] at hargs ⊢
  have hpreArgs := fun arg harg => hargs arg (List.mem_append_left _ harg)
  have hpostArgs := fun arg harg => hargs arg (List.mem_append_right _ (List.mem_cons_of_mem _ harg))
  have hplain : setAll (updateArg now) task pre = setAll RemediationTask.setArg task pre :=
    setAll_congr (fun arg harg => updateArg_of_not_state (hpre arg harg)) task
  have hfirst : (setAll (updateArg now) task pre).2 = none := by
    rw [hplain]
    exact setAll_succeeds (fun arg harg task => setArg_onTask (hpreArgs arg harg).1 task) task
  have hcounts : Counts task.state row.attempts row.maxAttempts (setAll (updateArg now) task pre).1 := by
    rw [hplain]
    exact setAll_keeps (fun arg harg _ _ hP hset => setArg_counts (hpreArgs arg harg).2.1 hP hset) hsame.counts
  rw [setAll_append hfirst]
  generalize (setAll (updateArg now) task pre).1 = middle at hcounts
  have henter : updateArg now middle (.state newState) = .ok (middle.enter now newState) :=
    if_pos (by rw [hcounts.1]; exact hallowed)
  rw [setAll, henter]
  dsimp only
  rw [setAll_congr (fun arg harg => updateArg_of_not_state (hpost arg harg)) (middle.enter now newState)]
  exact ⟨setAll_succeeds (fun arg harg task => setArg_onTask (hpostArgs arg harg).1 task) _,
    setAll_keeps (fun arg harg _ _ hP hset => setArg_counts (hpostArgs arg harg).2.2 hP hset)
      (enter_counts hcounts)⟩

/-- An argument that leaves the counters of a task. Kind: L -/
theorem setArg_leaves {task task' : RemediationTask} {current : TaskState} {arg : TaskArg}
    (h : Leaves row current arg) (hcurrent : row.state = current.value) (hsame : SameTask task row)
    (hset : task.setArg arg = .ok task') : SameTask task' row := by
  have hstate : task.state = current := value_eq.mp (hsame.state.symm.trans hcurrent)
  have hcounts := setArg_counts h.1 (hstate ▸ hsame.counts) hset
  refine ⟨?_, hcounts.2.1.symm, hcounts.2.2.symm, ?_⟩
  · rw [hcounts.1]
    exact hcurrent
  · rw [setArg_leaseVersion hset]
    rcases hread : readLeaseVersion arg with _ | v
    · exact hsame.leaseVersion
    · have harg : arg = .leaseVersion v := by
        cases arg with
        | leaseVersion w =>
          cases hread
          rfl
        | _ => cases hread
      exact (h.2 v harg).symm

theorem memory_update {memory : InMemoryTaskRepository} (hfound : memory.tasks.get? taskId = some task)
    (args : TaskArgs) : memory.call now (.update taskId args) =
      (memory.put taskId (setAll (updateArg now) task args.entries).1,
        (setAll (updateArg now) task args.entries).2) := by
  show memory.updateTask now taskId args = _
  unfold InMemoryTaskRepository.updateTask
  rw [hfound]
  rfl

theorem toDomain_succeeds (taskId : String) {current : TaskState} (hcurrent : row.state = current.value) :
    ∃ domain, row.toDomain taskId = .ok domain ∧ domain.leaseVersion = row.leaseVersion ∧
      domain.state = current := by
  unfold TaskRow.toDomain
  rw [hcurrent, TaskState.ofValue_value]
  exact ⟨_, rfl, rfl, rfl⟩

/-- An update with a state is the transition of the task as it was read. Kind: L -/
theorem database_update {db : Database} (hfound : db.tasks.get? taskId = some row) {current newState : TaskState}
    (hcurrent : row.state = current.value) {args : TaskArgs} (hstate : args.state? = some newState) :
    db.call sha256 draws (.update taskId args) =
      db.atomicTransition sha256 draws taskId row.leaseVersion [current] newState args.popState := by
  obtain ⟨domain, hdomain, hversion, hread⟩ := toDomain_succeeds taskId hcurrent
  show db.updateTask sha256 draws taskId args = _
  unfold Database.updateTask
  rw [hfound]
  dsimp only
  rw [hstate]
  dsimp only
  rw [hdomain]
  dsimp only
  rw [hversion, hread]

theorem concord_update_state (h : InStep r) (hfresh : Fresh r.database draws) {args : TaskArgs}
    (hmem : r.memory.tasks.get? taskId = some task) (hdb : r.database.tasks.get? taskId = some row)
    (hsame : SameTask task row) {newState : TaskState} (hstate : args.state? = some newState)
    (hcondition : ConcordantUpdate taskId row task.state newState args) :
    Concord sha256 r ⟨now, draws, .update taskId args⟩ := by
  have hcall : r.database.call sha256 draws (.update taskId args) = _ :=
    database_update hdb hsame.state hstate
  have hcall' : r.memory.call now (.update taskId args) = _ := memory_update hmem args
  unfold Database.atomicTransition at hcall
  rcases hcondition with ⟨hguard, hargs⟩ | ⟨hallowed, hgiven, hcolumns, hargs⟩
  · rw [hguard, if_pos rfl] at hcall
    have hnone : task.state.allowedTransitions = [] := by
      revert hguard
      cases task.state <;> cases newState <;> decide
    have hstep : ∀ arg ∈ args.entries, ∀ task' task'', SameTask task' row →
        updateArg now task' arg = .ok task'' → SameTask task'' row := by
      intro arg harg task' task'' hsame' hset
      cases arg with
      | state v =>
        have hcurrent : task'.state = task.state := value_eq.mp (hsame'.state.symm.trans hsame.state)
        change task'.transitionTo now v = .ok task'' at hset
        unfold RemediationTask.transitionTo at hset
        rw [hcurrent, hnone, if_neg List.not_mem_nil] at hset
        cases hset
      | _ => exact setArg_leaves (hargs _ harg) hsame.state hsame' hset
    have hraises : ∃ arg ∈ args.entries, ∀ task', SameTask task' row → ∃ e, updateArg now task' arg = .error e := by
      obtain ⟨pre, post, hentries, _⟩ := split_state hstate
      refine ⟨.state newState, ?_, fun task' hsame' => ?_⟩
      · rw [hentries]
        exact List.mem_append_right _ List.mem_cons_self
      · have hcurrent : task'.state = task.state := value_eq.mp (hsame'.state.symm.trans hsame.state)
        refine ⟨_, if_neg ?_⟩
        rw [hcurrent, hnone]
        exact List.not_mem_nil
    obtain ⟨e, hraised⟩ := setAll_raises hstep hraises hsame
    exact .rejected _ e _ (hcall'.trans (Prod.ext rfl hraised)) hcall
      (h.touch hdb (setAll_keeps hstep hsame))
  · have hrow := h.stored taskId row hdb
    have hknown : ∀ arg ∈ args.popState.entries, onTask arg = true :=
      fun arg harg => (hargs arg (List.mem_of_mem_filter harg)).1
    have hfits := transitionRow_fits hrow hknown hcolumns
    obtain ⟨hraised, hcounts⟩ := update_state_succeeds now hstate hsame hallowed hargs
    obtain ⟨v, hv⟩ := Option.isSome_iff_exists.mp hgiven
    have hnext : nextLeaseVersion row.leaseVersion args.popState = v := by
      unfold nextLeaseVersion
      rw [popState_leaseVersion?, hv]
      rfl
    have hlease := setAll_reads (fun _ _ _ hset => updateArg_leaseVersion hset) sets_leaseVersion.once
      args.nodup hraised
    rw [← leaseVersion?_eq, hv] at hlease
    subst hnext
    have hsameNext : SameTask _
        (transitionRow row (nextLeaseVersion row.leaseVersion args.popState) newState args.popState) :=
      sameTask_transition hcounts hlease
    have hmatch : row.leaseVersion = row.leaseVersion ∧ row.state ∈ [task.state].map TaskState.value :=
      ⟨rfl, List.mem_singleton.mpr hsame.state⟩
    rw [allowed_not_resurrected hallowed, if_neg Bool.false_ne_true, hdb] at hcall
    dsimp only at hcall
    rw [if_pos hmatch] at hcall
    obtain ⟨audit, outbox, committed, hcommit⟩ := commit_succeeds hfresh.audit hfresh.event taskId
      (transitionRow row (nextLeaseVersion row.leaseVersion args.popState) newState args.popState) newState rfl
      (transitionEntry taskId [task.state] newState (nextLeaseVersion row.leaseVersion args.popState)
        args.popState)
      (transitionEvent taskId newState (nextLeaseVersion row.leaseVersion args.popState))
      (holds_transition hrow hknown hcolumns)
    refine .accepted _ _ committed (hcall'.trans (Prod.ext rfl hraised)) (hcall.trans hcommit)
      (h.set hsameNext hfits (fun old hold hfailed => ?_) _ _)
    cases hdb.symm.trans hold
    rw [hsame.state] at hfailed
    exact absurd (value_eq.mp hfailed) (allowed_not_failed hallowed)

theorem concord_update_fields (h : InStep r) {args : TaskArgs}
    (hmem : r.memory.tasks.get? taskId = some task) (hdb : r.database.tasks.get? taskId = some row)
    (hsame : SameTask task row) (hstate : args.state? = none)
    (hcondition : ConcordantFields row task.state args) :
    Concord sha256 r ⟨now, draws, .update taskId args⟩ := by
  have hcall : r.database.call sha256 draws (.update taskId args) =
      r.database.updateTask sha256 draws taskId args := rfl
  have hcall' : r.memory.call now (.update taskId args) = _ := memory_update hmem args
  unfold Database.updateTask at hcall
  rw [hdb] at hcall
  dsimp only at hcall
  rw [hstate] at hcall
  dsimp only at hcall
  rw [setAll_congr fun arg harg => updateArg_of_not_state (not_state hstate arg harg)] at hcall'
  rcases hcondition with hargs | ⟨hunknown, hunknown', hargs⟩
  · obtain ⟨row', hrow'⟩ := foldlM_succeeds (fun arg harg => (hargs arg harg).2.1) row
    have hfits := foldlM_fits (h.stored taskId row hdb) (fun arg harg => (hargs arg harg).2.2) hrow'
    have hraised : (setAll RemediationTask.setArg task args.entries).2 = none :=
      setAll_succeeds (fun arg harg task => setArg_onTask (hargs arg harg).1 task) task
    have hrowState : row'.state = task.state.value := (state_of_update hstate hrow').trans hsame.state
    obtain ⟨domain, hdomain, _⟩ := toDomain_succeeds taskId hrowState
    have hkept : (setAll RemediationTask.setArg task args.entries).1.state = task.state :=
      setAll_keeps (fun arg harg _ _ hP hset => (setArg_state (hargs arg harg).2.1 hset).trans hP) rfl
    have hnext : SameTask (setAll RemediationTask.setArg task args.entries).1 row' := by
      refine ⟨hrowState.trans (congrArg _ hkept.symm), ?_, ?_, ?_⟩
      · rw [sets_attempts.updated hrow', hsame.attempts]
        exact (setAll_reads (fun _ _ _ hset => setArg_attempts hset) sets_attempts.once args.nodup hraised).symm
      · rw [sets_maxAttempts.updated hrow', hsame.maxAttempts]
        exact (setAll_reads (fun _ _ _ hset => setArg_maxAttempts hset) sets_maxAttempts.once args.nodup
          hraised).symm
      · rw [sets_leaseVersion.updated hrow', hsame.leaseVersion]
        exact (setAll_reads (fun _ _ _ hset => setArg_leaseVersion hset) sets_leaseVersion.once args.nodup
          hraised).symm
    rw [hrow'] at hcall
    dsimp only at hcall
    rw [hfits, hdomain] at hcall
    refine .accepted _ _ domain (hcall'.trans (Prod.ext rfl hraised)) hcall
      (h.set hnext hfits (fun old hold hfailed => ?_) r.database.audit r.database.outbox)
    cases hdb.symm.trans hold
    rw [hrowState, ← hsame.state]
    exact hfailed
  · obtain ⟨e', herror⟩ := foldlM_raises hunknown' row
    rw [herror] at hcall
    have hstep : ∀ arg ∈ args.entries, ∀ task' task'', SameTask task' row →
        task'.setArg arg = .ok task'' → SameTask task'' row :=
      fun arg harg task' task'' hsame' hset => setArg_leaves (hargs arg harg) hsame.state hsame' hset
    obtain ⟨arg, harg, hnot⟩ := hunknown
    obtain ⟨e, hraised⟩ :=
      setAll_raises hstep ⟨arg, harg, fun task' _ => setArg_not_onTask hnot task'⟩ hsame
    exact .rejected _ e e' (hcall'.trans (Prod.ext rfl hraised)) hcall (h.touch hdb (setAll_keeps hstep hsame))

theorem concord_update (h : InStep r) (hfresh : Fresh r.database draws) (args : TaskArgs)
    (hcondition : ∀ row current, r.database.tasks.get? taskId = some row → row.state = current.value →
      match args.state? with
      | some newState => ConcordantUpdate taskId row current newState args
      | none => ConcordantFields row current args) : Concord sha256 r ⟨now, draws, .update taskId args⟩ := by
  rcases h.found taskId with ⟨hmem, hdb⟩ | ⟨task, row, hmem, hdb, hsame⟩
  · have hcall : r.database.call sha256 draws (.update taskId args) =
        r.database.updateTask sha256 draws taskId args := rfl
    have hcall' : r.memory.call now (.update taskId args) = r.memory.updateTask now taskId args := rfl
    unfold Database.updateTask at hcall
    unfold InMemoryTaskRepository.updateTask at hcall'
    rw [hdb] at hcall
    rw [hmem] at hcall'
    exact .rejected _ _ _ hcall' hcall h
  · have hcond := hcondition row task.state hdb hsame.state
    rcases hstate : args.state? with _ | newState
    · simp_all [concord_update_fields]
    · simp_all [concord_update_state]

/-! ## Runs -/

/-- A concordant call is taken by both or rejected by both, and keeps them in step. Kind: L -/
theorem concord (h : InStep r) {call : TimedCall} (hcall : Concordant r.database call) : Concord sha256 r call := by
  obtain ⟨now, draws, op⟩ := call
  obtain ⟨hfresh, hcondition⟩ := hcall
  cases op with
  | create task => exact concord_create h hfresh task hcondition
  | update taskId args => exact concord_update h hfresh args hcondition
  | transition taskId expectedLeaseVersion expectedStates newState args =>
    exact concord_transition h hfresh expectedLeaseVersion expectedStates newState args hcondition
  | assign taskId workerId => exact concord_assign h hfresh workerId hcondition
  | complete taskId expectedLeaseVersion workerId token receiptId receiptFingerprint status =>
    exact concord_complete h hfresh expectedLeaseVersion workerId token receiptId receiptFingerprint status
      hcondition
  | failure taskId expectedLeaseVersion workerId token errorMessage =>
    exact concord_failure h hfresh expectedLeaseVersion workerId token errorMessage hcondition

theorem Concord.sameAnswer {call : TimedCall} (h : Concord sha256 r call) : SameAnswer sha256 r call := by
  unfold SameAnswer
  cases h with
  | accepted memory database task hmem hdb =>
    rw [hmem, hdb]
    exact ⟨fun _ => rfl, fun _ => rfl⟩
  | rejected memory e e' hmem hdb =>
    rw [hmem, hdb]
    exact ⟨fun h => (nomatch h), fun h => (nomatch h)⟩

theorem Concord.inStep {call : TimedCall} (h : Concord sha256 r call) : InStep (r.step sha256 call) := by
  cases h with
  | accepted memory database task hmem hdb h =>
    have hstep : r.step sha256 call = ⟨memory, database⟩ := by
      unfold Repositories.step Database.step
      dsimp only
      rw [hmem, hdb]
    rw [hstep]
    exact h
  | rejected memory e e' hmem hdb h =>
    have hstep : r.step sha256 call = ⟨memory, r.database⟩ := by
      unfold Repositories.step Database.step
      dsimp only
      rw [hmem, hdb]
    rw [hstep]
    exact h

/-- In a run of concordant calls, each call is accepted by both repositories or rejected by both, and every
task has the same state, attempts and lease version in both.
Source: `repository.py`, `InMemoryTaskRepository`; `postgres_task_repository.py`, `PostgresTaskRepository`
Kind: P
Fidelity: exact -/
theorem concordant_run_agrees (sha256 : String → String) (calls : List TimedCall)
    (h : Along (Repositories.step sha256) (fun r call => Concordant r.database call) {} calls) :
    (∀ r ∈ reached (Repositories.step sha256) {} calls, SameTasks r) ∧
      Along (Repositories.step sha256) (SameAnswer sha256) {} calls := by
  have hinv : ∀ r ∈ reached (Repositories.step sha256) {} calls, InStep r :=
    Along.invariant (fun r call hr hcall => (concord hr hcall).inStep) inStep_init h
  refine ⟨fun r hr => (hinv r hr).sameTasks, ?_⟩
  exact h.imp (fun r call hr hcall => (concord hr hcall).inStep)
    (fun r call hr hcall => (concord hr hcall).sameAnswer) inStep_init

/-- A call of the run, at a time of its own. Kind: D -/
def callAt (n : ℕ) (op : TaskOp) : TimedCall := ⟨n, drawsAt n, op⟩

/-- A task is created, assigned and completed in both. Kind: D -/
def completingBoth : List TimedCall :=
  [callAt 0 (.create queuedTask), callAt 1 (.assign "t" "w"), callAt 2 (.complete "t" 2 "w" 1 (some "r") none none)]

/-- The two repositories agree on a task that is completed. -/
theorem concordant_run_agrees_completing :
    SameTasks (completingBoth.foldl (Repositories.step id) {}) ∧
      Along (Repositories.step id) (SameAnswer id) {} completingBoth := by
  have hqueued : ((Repositories.step id {} (callAt 0 (.create queuedTask))).database.tasks.get? "t") =
      some (TaskRow.ofTask queuedTask) := by decide +kernel
  have hrunning : ((Repositories.step id (Repositories.step id {} (callAt 0 (.create queuedTask)))
      (callAt 1 (.assign "t" "w"))).database.tasks.get? "t") =
        some (assignedRow (TaskRow.ofTask queuedTask) "w" 1) := by decide +kernel
  have hconcordant : Along (Repositories.step id) (fun r call => Concordant r.database call) {}
      completingBoth := by
    refine ⟨⟨⟨by decide, by decide, by decide⟩, fun _ => ⟨by decide +kernel, by decide +kernel⟩⟩,
      ⟨⟨by decide +kernel, by decide +kernel, by decide +kernel⟩, fun row hrow =>
        ⟨fun hpending => ?_, fun _ _ => ?_⟩⟩,
      ⟨⟨by decide +kernel, by decide +kernel, by decide +kernel⟩, fun row hrow _ _ => ?_⟩, trivial⟩
    · cases hqueued.symm.trans hrow
      exact absurd hpending (by decide)
    · cases hqueued.symm.trans hrow
      exact ⟨by decide, by decide +kernel, ⟨by decide +kernel, by decide +kernel⟩⟩
    · cases hrunning.symm.trans hrow
      exact ⟨by decide, ⟨by decide, by decide, ⟨by decide, by decide +kernel⟩⟩, by decide, rfl, rfl⟩
  obtain ⟨hsame, hanswers⟩ := concordant_run_agrees id completingBoth hconcordant
  exact ⟨hsame _ (foldl_mem_reached _ _), hanswers⟩

/-- An assignment of a pending task is taken by the database and not in memory. -/
theorem assigned_pending_task_differs :
    ¬ SameAnswer id (Repositories.step id {} (callAt 0 (.create { queuedTask with state := .pending })))
      (callAt 1 (.assign "t" "w")) := by
  unfold SameAnswer
  decide +kernel

end KarsaSec.Persistence
