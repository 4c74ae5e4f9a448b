import KarsaSec.Workers.ClusterRecovery

/-!
# Recovery without a rollback

What holds in a run of `recover_orphaned_tasks` in which a task that was queued is enqueued.

* `NodeInvariant.steady`: what a node knows survives what others do.
* `recoverOrphanedTasks_step`: a step of a node keeps what it knows, and moves tasks to higher lease versions only.
* `inMemory`, `postgres`: both repositories are ones that recovery can rely on.
* `uncompensated_run_recovers`: every run, on any repository, with any lock, queue and other components.
-/

namespace KarsaSec.Workers

open KarsaSec.Found KarsaSec.Events KarsaSec.Persistence

section

variable {σ : Type} {repository : TaskRepository σ} {s s' : σ} {touched : List Touched}

theorem RecoveryChange.Prepared.steady {change : RecoveryChange}
    (h : change.Prepared repository.toTaskStore s) (hsteady : repository.Steady s s') :
    change.Prepared repository.toTaskStore s' := by
  refine ⟨h.higher, h.target.imp_right ?_⟩
  rintro ⟨hfailed, task, hknown, hrest⟩
  exact ⟨hfailed, task, hknown.steady hsteady, hrest⟩

/-- What others do leaves a node with what it knows. Kind: L -/
theorem NodeInvariant.steady {phase : RecoveryPhase}
    (h : NodeInvariant repository.toTaskStore s touched phase) (hsteady : repository.Steady s s') :
    NodeInvariant repository.toTaskStore s' touched phase := by
  have hknown : ∀ {tasks : List RemediationTask}, (∀ task ∈ tasks, repository.Known s task) →
      ∀ task ∈ tasks, repository.Known s' task := fun h task htask => (h task htask).steady hsteady
  cases phase with
  | selecting scan => exact ⟨h.1, hknown h.2⟩
  | reporting scan => exact ⟨h.1, hknown h.2⟩
  | checked scan task ownerId => exact ⟨h.1, hknown h.2.1, h.2.2.steady hsteady⟩
  | versioned scan task ownerId original =>
    obtain ⟨hdone, htasks, htask, hversion⟩ := h
    exact ⟨hdone, hknown htasks, htask.steady hsteady,
      hversion.trans (repository.look_steady s s' task htask hsteady)⟩
  | numbered scan task ownerId original next =>
    obtain ⟨hdone, htasks, htask, hversion, hnext⟩ := h
    exact ⟨hdone, hknown htasks, htask.steady hsteady,
      hversion.trans (repository.look_steady s s' task htask hsteady), hnext⟩
  | targeted scan change => exact ⟨h.1, hknown h.2.1, h.2.2.steady hsteady⟩
  | changed scan change => exact ⟨hknown h.1, h.2⟩
  | enqueueing scan change => exact ⟨hknown h.1, h.2⟩
  | _ => exact h

/-- What a node may do in a step: it keeps what it knows, and no task falls back. Kind: D -/
def GoodStep (repository : TaskRepository σ) (s : σ) (next : σ × RecoveryPhase × List Touched) : Prop :=
  NodeInvariant repository.toTaskStore next.1 next.2.2 next.2.1 ∧ repository.Steady s next.1

theorem GoodStep.stays {phase : RecoveryPhase} (h : NodeInvariant repository.toTaskStore s touched phase) :
    GoodStep repository s (s, phase, touched) :=
  ⟨h, .refl s⟩

/-- A call of the repository that raises changes nothing. Kind: L -/
theorem GoodStep.rejected {phase : RecoveryPhase} (h : NodeInvariant repository.toTaskStore s touched phase)
    (hsame : ∀ taskId, repository.standing s' taskId = repository.standing s taskId) :
    GoodStep repository s (s', phase, touched) :=
  ⟨h.steady (.of_same hsame), .of_same hsame⟩

theorem select_invariant {scan : RecoveryScan} (hdone : ∀ t ∈ touched, t.Recovered)
    (htasks : ∀ task ∈ scan.runningTasks, repository.Known s task) (answer : Except String Bool) :
    NodeInvariant repository.toTaskStore s touched (repository.select s scan answer) := by
  unfold TaskStore.select
  rcases hlist : scan.runningTasks with _ | ⟨task, rest⟩
  · exact hdone
  · rw [hlist] at htasks
    have hrest : ∀ task ∈ rest, repository.Known s task := fun task htask =>
      htasks task (List.mem_cons_of_mem _ htask)
    dsimp only
    split
    · exact ⟨hdone, hrest⟩
    · split
      · exact ⟨hdone, hrest⟩
      · split
        · exact ⟨hdone, hrest, htasks task List.mem_cons_self⟩
        · exact hdone
        · exact hdone

theorem change_good {scan : RecoveryScan} {change : RecoveryChange} (hdone : ∀ t ∈ touched, t.Recovered)
    (htasks : ∀ task ∈ scan.runningTasks, repository.Known s task)
    (hprepared : change.Prepared repository.toTaskStore s) (now : ℚ) (draws : Draws) :
    GoodStep repository s (repository.change now draws s touched scan change) := by
  have htarget : change.targetState ∈ [TaskState.queued, .failed] := by
    rcases hprepared.target with hqueued | ⟨hfailed, _⟩
    · rw [hqueued]
      decide
    · rw [hfailed]
      decide
  unfold TaskStore.change
  generalize hcall : repository.atomicTransition now draws s change.taskId change.originalLeaseVersion [.running]
    change.targetState (recoveryArgs change.nextTaskLeaseVersion change.message) = result
  obtain ⟨s', raised⟩ := result
  have hrecovers := repository.recovers now draws s change.taskId change.originalLeaseVersion change.targetState
    change.nextTaskLeaseVersion change.message s' raised htarget hcall
  rcases raised with _ | e
  · obtain ⟨before, hbefore, hrunning, hversion, hmoves⟩ := hrecovers
    have hhigher : before.leaseVersion < change.nextTaskLeaseVersion := by
      rw [hversion]
      exact hprepared.higher
    have hsteady : repository.Steady s s' := hmoves.steady hbefore (Or.inl hhigher)
    refine ⟨⟨fun task htask => (htasks task htask).steady hsteady, _, touched, rfl, hdone, ?_⟩, hsteady⟩
    rcases hprepared.target with hqueued | ⟨hfailed, task, hknown, hid, hle, hattempts⟩
    · exact Or.inl ⟨hqueued, before, _, hbefore, hmoves.1, hqueued, hhigher, rfl⟩
    · refine Or.inr ⟨hfailed, before, _, hbefore, hmoves.1, Or.inr ⟨hfailed, ?_, rfl⟩⟩
      -- The version that is compared is the one under which the attempts were read.
      obtain ⟨now, hnow, hleads⟩ := hknown
      rw [hid, hbefore] at hnow
      cases hnow
      rcases hleads with hlt | ⟨_, hsame, hmax, _⟩
      · exact absurd (hlt.trans_le (hversion.le.trans hle)) (lt_irrefl _)
      · rw [hsame, hmax]
        exact hattempts
  · have hloop : NodeInvariant repository.toTaskStore s touched (.selecting scan) := ⟨hdone, htasks⟩
    cases e with
    | staleLeaseVersion message => exact .rejected hloop hrecovers
    | invalidTaskState message => exact .rejected hloop hrecovers
    | _ => exact .rejected hdone hrecovers

theorem revert_good {change : RecoveryChange} (hfailed : change.targetState = .failed)
    (hdone : ∀ t ∈ touched, t.Recovered) (now : ℚ) (draws : Draws) (message : String) (failure : RecoveryFailure) :
    GoodStep repository s (repository.revert now draws s touched change message failure) := by
  unfold TaskStore.revert
  rw [hfailed]
  generalize hcall : repository.atomicTransition now draws s change.taskId change.nextTaskLeaseVersion [.failed]
    .running (recoveryArgs change.originalLeaseVersion message) = result
  obtain ⟨s', raised⟩ := result
  obtain ⟨hraised, hsame⟩ := repository.keepsFailed now draws s change.taskId change.nextTaskLeaseVersion
    change.originalLeaseVersion message s' raised hcall
  rcases raised with _ | e
  · exact absurd rfl hraised
  · cases e with
    | staleLeaseVersion message => exact .rejected hdone hsame
    | invalidTaskState message => exact .rejected hdone hsame
    | _ => exact .rejected hdone hsame

theorem recoverOrphanedTasks_step {phase : RecoveryPhase} {move : RecoveryMove}
    (h : NodeInvariant repository.toTaskStore s touched phase) (henqueues : Enqueues phase move) :
    GoodStep repository s (repository.recoverOrphanedTasks s touched phase move) := by
  unfold TaskStore.recoverOrphanedTasks
  split
  iterate 3
    · split
      · exact .stays fun t ht => absurd ht List.not_mem_nil
      · exact .stays fun t ht => absurd ht List.not_mem_nil
  · split
    · exact .stays h
    · exact .stays h
  · exact .stays ⟨h, repository.listed s _⟩
  · exact .stays (select_invariant h.1 h.2 _)
  · exact .stays ⟨h.1, h.2.1, h.2.2, le_refl _⟩
  · obtain ⟨hdone, htasks, htask, hversion⟩ := h
    exact .stays ⟨hdone, htasks, htask, hversion, Int.lt_add_one_of_le hversion⟩
  · rename_i scan task ownerId original next
    obtain ⟨hdone, htasks, htask, hversion, hnext⟩ := h
    refine .stays ⟨hdone, htasks, hnext, ?_⟩
    by_cases hattempts : (repository.look s task).attempts < (repository.look s task).maxAttempts
    · exact Or.inl (if_pos hattempts)
    · exact Or.inr ⟨if_neg hattempts, _, repository.look_known s task htask, repository.look_taskId s task,
        hversion, not_lt.mp hattempts⟩
  · exact change_good h.1 h.2.1 h.2.2 _ _
  · rename_i scan change answer
    obtain ⟨htasks, t, rest, rfl, hdone, hcase⟩ := h
    rcases hcase with ⟨hqueued, hpending⟩ | ⟨hfailed, hrecovered⟩
    · obtain rfl := henqueues hqueued
      dsimp only
      rw [if_pos hqueued]
      exact .stays ⟨htasks, t, rest, rfl, hdone, hpending⟩
    · have hall : ∀ u ∈ t :: rest, u.Recovered := List.forall_mem_cons.mpr ⟨hrecovered, hdone⟩
      split
      · rw [if_neg (hfailed ▸ by decide)]
        exact .stays ⟨hall, htasks⟩
      · exact .stays ⟨hfailed, hall⟩
      · exact .stays hall
  · obtain ⟨htasks, t, rest, rfl, hdone, before, after, hbefore, hafter, hqueued, hversion, hnone⟩ := h
    obtain rfl := henqueues
    have hrecovered : ({ t with enqueued := t.enqueued + 1 } : Touched).Recovered :=
      ⟨before, after, hbefore, hafter, Or.inl ⟨hqueued, hversion, congrArg (· + 1) hnone⟩⟩
    exact .stays ⟨List.forall_mem_cons.mpr ⟨hrecovered, hdone⟩, htasks⟩
  · exact revert_good h.1 h.2 _ _ _ _
  · split
    · exact .stays h
    · exact .stays h.1
  · exact .stays h

/-! ## Runs -/

variable {ι : Type} [DecidableEq ι]

/-- A step keeps what every node knows, and no task falls back. Kind: L -/
theorem nodes_step {nodes : RecoveryNodes ι σ} {event : RecoveryEvent ι}
    (h : ∀ i, NodeInvariant repository.toTaskStore nodes.tasks (nodes.touched i) (nodes.phase i))
    (huncompensated : Uncompensated repository.toTaskStore nodes event) :
    (∀ i, NodeInvariant repository.toTaskStore (nodes.step repository.toTaskStore event).tasks
      ((nodes.step repository.toTaskStore event).touched i) ((nodes.step repository.toTaskStore event).phase i)) ∧
      repository.Steady nodes.tasks (nodes.step repository.toTaskStore event).tasks := by
  cases event with
  | node i move =>
    obtain ⟨hinvariant, hsteady⟩ := recoverOrphanedTasks_step (h i) huncompensated
    refine ⟨fun j => ?_, hsteady⟩
    unfold RecoveryNodes.step
    dsimp only
    by_cases hkey : j = i
    · simp_all
    · rw [Function.update_of_ne hkey, Function.update_of_ne hkey]
      exact (h j).steady hsteady
  | other now draws op => exact ⟨fun i => (h i).steady huncompensated, huncompensated⟩

theorem NodeInvariant.settled {phase : RecoveryPhase} (h : NodeInvariant repository.toTaskStore s touched phase) :
    Settled phase touched := by
  cases phase with
  | returned count => exact h
  | raised failure => exact fun t ht => Or.inl (h t ht)
  | _ => trivial

/-- The invariant of a run. Kind: D -/
def AllKnow (repository : TaskRepository σ) (nodes : RecoveryNodes ι σ) : Prop :=
  ∀ i, NodeInvariant repository.toTaskStore nodes.tasks (nodes.touched i) (nodes.phase i)

/-- A task has left an execution with this lease version. Kind: D -/
def Over (repository : TaskRepository σ) (nodes : RecoveryNodes ι σ) (taskId : String) (version : ℤ) : Prop :=
  ∃ now, repository.standing nodes.tasks taskId = some now ∧
    (version < now.leaseVersion ∨ version ≤ now.leaseVersion ∧ now.state ≠ .running)

/-- A task that has left an execution gets a higher version before it runs again. Kind: L -/
theorem Over.run {nodes : RecoveryNodes ι σ} {events : List (RecoveryEvent ι)} {taskId : String} {version : ℤ}
    (h : Over repository nodes taskId version) (hknow : AllKnow repository nodes)
    (hrun : Along (RecoveryNodes.step repository.toTaskStore) (Uncompensated repository.toTaskStore) nodes events) :
    Over repository (events.foldl (RecoveryNodes.step repository.toTaskStore) nodes) taskId version := by
  induction events generalizing nodes with
  | nil => exact h
  | cons event events ih =>
    obtain ⟨hknow', hsteady⟩ := nodes_step hknow hrun.1
    refine ih ?_ hknow' hrun.2
    obtain ⟨now, hnow, hover⟩ := h
    obtain ⟨after, hafter, hleads⟩ := hsteady taskId now hnow
    refine ⟨after, hafter, ?_⟩
    rcases hover with hlt | ⟨hle, hstopped⟩
    · exact Or.inl (hlt.trans_le hleads.version_le)
    · rcases hleads with hlt | ⟨hversion, _, _, hrunning⟩
      · exact Or.inl (hle.trans_lt hlt)
      · simp_all

theorem one_execution {nodes : RecoveryNodes ι σ} {events : List (RecoveryEvent ι)} (hknow : AllKnow repository nodes)
    (hrun : Along (RecoveryNodes.step repository.toTaskStore) (Uncompensated repository.toTaskStore) nodes events)
    {taskId : String} {first last : Standing} (hfirst : repository.standing nodes.tasks taskId = some first)
    (hlast : repository.standing (events.foldl (RecoveryNodes.step repository.toTaskStore) nodes).tasks taskId =
      some last)
    (hrunning : first.state = .running) (hruns : last.state = .running)
    (hversion : last.leaseVersion = first.leaseVersion) :
    ∀ nodes' ∈ reached (RecoveryNodes.step repository.toTaskStore) nodes events,
      ∃ now, repository.standing nodes'.tasks taskId = some now ∧ now.state = .running := by
  induction events generalizing nodes first with
  | nil =>
    intro nodes' hnodes'
    rw [List.mem_singleton.mp hnodes']
    exact ⟨first, hfirst, hrunning⟩
  | cons event events ih =>
    obtain ⟨hknow', hsteady⟩ := nodes_step hknow hrun.1
    obtain ⟨second, hsecond, hleads⟩ := hsteady taskId first hfirst
    intro nodes' hnodes'
    rcases List.mem_cons.mp hnodes' with rfl | hnodes'
    · exact ⟨first, hfirst, hrunning⟩
    · by_cases hstays : second.state = .running ∧ second.leaseVersion = first.leaseVersion
      · exact ih hknow' hrun.2 hsecond hlast hstays.1 (hversion.trans hstays.2.symm) nodes' hnodes'
      · have hover : Over repository (nodes.step repository.toTaskStore event) taskId first.leaseVersion := by
          refine ⟨second, hsecond, ?_⟩
          rcases hleads.version_le.lt_or_eq with hlt | heq
          · exact Or.inl hlt
          · exact Or.inr ⟨heq.le, fun hsecond => hstays ⟨hsecond, heq.symm⟩⟩
        obtain ⟨final, hfinal, hend⟩ := hover.run hknow' hrun.2
        cases hlast.symm.trans hfinal
        rcases hend with hlt | ⟨_, hstopped⟩
        · exact absurd hversion hlt.ne'
        · exact absurd hruns hstopped

/-- Source: `cluster_recovery.py`, `recover_orphaned_tasks`. In a run of any nodes on any repository in which a task
that was queued is enqueued, each call recovers what it touches, and a lease version belongs to one execution.
Kind: T -/
theorem uncompensated_run_recovers (repository : TaskRepository σ) (start : σ) (events : List (RecoveryEvent ι))
    (h : Along (RecoveryNodes.step repository.toTaskStore) (Uncompensated repository.toTaskStore) { tasks := start }
      events) :
    (∀ nodes ∈ reached (RecoveryNodes.step repository.toTaskStore) { tasks := start } events,
      ∀ i, Settled (nodes.phase i) (nodes.touched i)) ∧
      OneExecution repository.toTaskStore { tasks := start } events := by
  have hstart : AllKnow repository ({ tasks := start } : RecoveryNodes ι σ) := fun _ t ht =>
    absurd ht List.not_mem_nil
  have hstep : ∀ nodes (event : RecoveryEvent ι), AllKnow repository nodes →
      Uncompensated repository.toTaskStore nodes event →
        AllKnow repository (nodes.step repository.toTaskStore event) :=
    fun nodes event hknow huncompensated => (nodes_step hknow huncompensated).1
  have hinvariant : ∀ nodes ∈ reached (RecoveryNodes.step repository.toTaskStore) { tasks := start } events,
      AllKnow repository nodes := h.invariant hstep hstart
  refine ⟨fun nodes hnodes i => (hinvariant nodes hnodes i).settled, ?_⟩
  rintro before between after rfl taskId first last hfirst hlast hrunning hruns hversion
  have hrun := (along_append.mp h).1
  have hknow : AllKnow repository (before.foldl (RecoveryNodes.step repository.toTaskStore) { tasks := start }) :=
    (along_append.mp hrun).1.invariant hstep hstart _ (foldl_mem_reached _ before)
  rw [List.foldl_append] at hlast
  exact one_execution hknow (along_append.mp hrun).2 hfirst hlast hrunning hruns hversion

end

/-! ## The repository in memory -/

/-- Source: `repository.py`, `InMemoryTaskRepository`. A task is stored under its identifier. Kind: D -/
def inMemoryStore : TaskStore InMemoryTaskRepository where
  standing repository taskId := (repository.tasks.get? taskId).map RemediationTask.standing
  listRunning repository _ :=
    ((repository.tasks.entries.filter fun p => p.2.state = .running).take 100).map fun p =>
      { p.2 with taskId := p.1 }
  look repository task :=
    match repository.tasks.get? task.taskId with
    | some live => { live with taskId := task.taskId }
    | none => task
  atomicTransition now _ repository taskId expected states newState args :=
    repository.atomicTransition now taskId expected states newState args
  call now _ repository op := (repository.call now op).1

section memory

variable {repository repository' : InMemoryTaskRepository} {taskId : String}

theorem inMemory_standing {standing : Standing} (h : inMemoryStore.standing repository taskId = some standing) :
    ∃ task, repository.tasks.get? taskId = some task ∧ standing = task.standing := by
  obtain ⟨task, htask, hstanding⟩ := Option.map_eq_some_iff.mp h
  exact ⟨task, htask, hstanding.symm⟩

theorem inMemory_found {task : RemediationTask} (h : repository.tasks.get? taskId = some task) :
    inMemoryStore.standing repository taskId = some task.standing :=
  congrArg (Option.map RemediationTask.standing) h

theorem inMemory_look {task live : RemediationTask} (h : repository.tasks.get? task.taskId = some live) :
    inMemoryStore.look repository task = { live with taskId := task.taskId } := by
  unfold inMemoryStore
  dsimp only
  rw [h]

theorem inMemory_moves (task : RemediationTask) :
    inMemoryStore.Moves repository (repository.put taskId task) taskId task.standing := by
  refine ⟨congrArg (Option.map RemediationTask.standing) (Dict.get?_set_self _ _ _), fun other hother => ?_⟩
  exact congrArg (Option.map RemediationTask.standing) (Dict.get?_set_ne _ hother _)

/-- Setting the arguments of recovery does not fail. Kind: L -/
theorem setAll_recoveryArgs (task : RemediationTask) (next : ℤ) (message : String) :
    setAll RemediationTask.setArg task (recoveryArgs next message).entries =
      ({ task with leaseVersion := next, errorMessage := some message }, none) := rfl

theorem inMemory_recovers {now : ℚ} {expected next : ℤ} {target : TaskState} {message : String}
    {raised : Option TaskError} (htarget : target ∈ [TaskState.queued, .failed])
    (h : repository.atomicTransition now taskId expected [.running] target (recoveryArgs next message) =
      (repository', raised)) :
    inMemoryStore.Recovers repository repository' taskId expected target next raised := by
  unfold InMemoryTaskRepository.atomicTransition at h
  split at h
  · cases h
    exact fun _ => rfl
  · rename_i task hfound
    split at h
    · cases h
      exact fun _ => rfl
    · rename_i hversion
      split at h
      · cases h
        exact fun _ => rfl
      · rename_i hstate
        have hrunning : task.state = .running := List.mem_singleton.mp (not_not.mp hstate)
        have hallowed : target ∈ task.state.allowedTransitions := by
          rw [hrunning]
          rcases List.mem_cons.mp htarget with rfl | hfailed
          · decide
          · rw [List.mem_singleton.mp hfailed]
            decide
        unfold RemediationTask.transitionTo at h
        rw [if_pos hallowed] at h
        dsimp only at h
        rw [setAll_recoveryArgs] at h
        cases h
        refine ⟨task.standing, inMemory_found hfound, hrunning, not_not.mp hversion, ?_⟩
        have hstanding : ({ task.enter now target with leaseVersion := next, errorMessage := some message } :
            RemediationTask).standing = { task.standing with state := target, leaseVersion := next } := by
          rcases List.mem_cons.mp htarget with rfl | hfailed
          · rfl
          · rw [List.mem_singleton.mp hfailed]
            rfl
        rw [← hstanding]
        exact inMemory_moves _

theorem inMemory_keepsFailed {now : ℚ} {expected next : ℤ} {message : String} {raised : Option TaskError}
    (h : repository.atomicTransition now taskId expected [.failed] .running (recoveryArgs next message) =
      (repository', raised)) :
    raised ≠ none ∧ ∀ other, inMemoryStore.standing repository' other = inMemoryStore.standing repository other := by
  unfold InMemoryTaskRepository.atomicTransition at h
  split at h
  · cases h
    exact ⟨Option.some_ne_none _, fun _ => rfl⟩
  · rename_i task hfound
    split at h
    · cases h
      exact ⟨Option.some_ne_none _, fun _ => rfl⟩
    · split at h
      · grind
      · rename_i hstate
        have hfailed : task.state = .failed := List.mem_singleton.mp (not_not.mp hstate)
        have hnot : TaskState.running ∉ task.state.allowedTransitions := by
          rw [hfailed]
          decide
        unfold RemediationTask.transitionTo at h
        rw [if_neg hnot] at h
        cases h
        exact ⟨Option.some_ne_none _, fun _ => rfl⟩

/-- Source: `repository.py`, `InMemoryTaskRepository`. Kind: D -/
def inMemory : TaskRepository InMemoryTaskRepository where
  toTaskStore := inMemoryStore
  listed repository tie task htask := by
    obtain ⟨p, hp, rfl⟩ := List.mem_map.mp htask
    have hfound : repository.tasks.get? p.1 = some p.2 :=
      Dict.mem_entries.mp (List.mem_of_mem_filter (List.mem_of_mem_take hp))
    exact ⟨p.2.standing, inMemory_found hfound, .refl _⟩
  look_taskId repository task := by
    unfold inMemoryStore
    dsimp only
    split <;> rfl
  look_known repository task hknown := by
    obtain ⟨now, hnow, _⟩ := hknown
    obtain ⟨live, hlive, rfl⟩ := inMemory_standing hnow
    rw [inMemory_look hlive]
    exact ⟨live.standing, hnow, .refl _⟩
  look_steady repository repository' task hknown hsteady := by
    obtain ⟨now, hnow, _⟩ := hknown
    obtain ⟨live, hlive, rfl⟩ := inMemory_standing hnow
    obtain ⟨after, hafter, hleads⟩ := hsteady task.taskId _ hnow
    obtain ⟨later, hlater, rfl⟩ := inMemory_standing hafter
    rw [inMemory_look hlive, inMemory_look hlater]
    exact hleads.version_le
  recovers _ _ _ _ _ _ _ _ _ _ htarget h := inMemory_recovers htarget h
  keepsFailed _ _ _ _ _ _ _ _ _ h := inMemory_keepsFailed h

end memory

/-! ## The repository in the database -/

/-- Kind: D -/
def rowStanding (taskId : String) (row : TaskRow) : Option Standing :=
  match row.toDomain taskId with
  | .ok task => some task.standing
  | .error _ => none

/-- A listed task is a copy of its row. Source: `postgres_task_repository.py`, `PostgresTaskRepository`. Kind: D -/
def postgresStore (sha256 : String → String) : TaskStore Database where
  standing db taskId := (db.tasks.get? taskId).bind (rowStanding taskId)
  listRunning db tie :=
    ((sortBy (fun p => tie p.1) (db.tasks.entries.filter fun p => p.2.state = TaskState.running.value)).take
      100).filterMap fun p => (p.2.toDomain p.1).toOption
  look _ task := task
  atomicTransition _ draws db taskId expected states newState args :=
    match db.atomicTransition sha256 draws taskId expected states newState args with
    | .ok (db', _) => (db', none)
    | .error e => (db, some e)
  call _ draws db op := db.step sha256 (.call draws op)

section database

variable {sha256 : String → String} {draws : Draws} {db db' : Database} {taskId : String} {row : TaskRow}

theorem rowStanding_ok {task : RemediationTask} (h : row.toDomain taskId = .ok task) :
    rowStanding taskId row = some task.standing := by
  unfold rowStanding
  rw [h]

/-- The standing of a row whose state has a name. Kind: L -/
theorem rowStanding_eq {state : TaskState} (h : row.state = state.value) :
    rowStanding taskId row = some ⟨state, row.attempts, row.maxAttempts, row.leaseVersion⟩ := by
  unfold rowStanding TaskRow.toDomain
  rw [h, TaskState.ofValue_value]
  rfl

theorem postgres_found (h : db.tasks.get? taskId = some row) :
    (postgresStore sha256).standing db taskId = rowStanding taskId row := by
  unfold postgresStore
  dsimp only
  rw [h]
  rfl

theorem postgres_moves {standing : Standing} (htasks : db'.tasks = db.tasks.set taskId row)
    (hrow : rowStanding taskId row = some standing) : (postgresStore sha256).Moves db db' taskId standing := by
  refine ⟨?_, fun other hother => ?_⟩
  · simp_all [postgres_found]
  · unfold postgresStore
    dsimp only
    rw [htasks, Dict.get?_set_ne _ hother]

theorem postgres_recovers {expected next : ℤ} {target : TaskState} {message : String} {raised : Option TaskError}
    {now : ℚ} (htarget : target ∈ [TaskState.queued, .failed])
    (h : (postgresStore sha256).atomicTransition now draws db taskId expected [.running] target
      (recoveryArgs next message) = (db', raised)) :
    (postgresStore sha256).Recovers db db' taskId expected target next raised := by
  unfold postgresStore at h
  dsimp only at h
  split at h
  · rename_i stored task hcall
    cases h
    obtain ⟨row, hfound, _, hversion, hstate, hcommit⟩ := Database.atomicTransition_ok hcall
    obtain ⟨hrecorded, _, _⟩ := Database.commit_ok hcommit
    have hrunning : row.state = TaskState.running.value := List.mem_singleton.mp hstate
    refine ⟨⟨.running, row.attempts, row.maxAttempts, row.leaseVersion⟩,
      (postgres_found hfound).trans (rowStanding_eq hrunning), rfl, hversion, postgres_moves hrecorded.tasks ?_⟩
    rcases List.mem_cons.mp htarget with rfl | hfailed
    · exact rowStanding_eq rfl
    · obtain rfl := List.mem_singleton.mp hfailed
      exact rowStanding_eq rfl
  · cases h
    exact fun _ => rfl

/-- Source: `postgres_task_repository.py`, "Terminal state resurrection check". Kind: L -/
theorem postgres_keepsFailed {expected next : ℤ} {message : String} {raised : Option TaskError} {now : ℚ}
    (h : (postgresStore sha256).atomicTransition now draws db taskId expected [.failed] .running
      (recoveryArgs next message) = (db', raised)) :
    raised ≠ none ∧ ∀ other, (postgresStore sha256).standing db' other = (postgresStore sha256).standing db other := by
  unfold postgresStore at h
  dsimp only at h
  split at h
  · rename_i stored task hcall
    obtain ⟨_, _, hguard, _⟩ := Database.atomicTransition_ok hcall
    exact absurd hguard (by decide)
  · cases h
    exact ⟨Option.some_ne_none _, fun _ => rfl⟩

/-- Source: `postgres_task_repository.py`, `PostgresTaskRepository`. Kind: D -/
def postgres (sha256 : String → String) : TaskRepository Database where
  toTaskStore := postgresStore sha256
  listed db tie task htask := by
    obtain ⟨p, hp, hdomain⟩ := List.mem_filterMap.mp htask
    have hfiltered := (sortBy_perm _ _).mem_iff.mp (List.mem_of_mem_take hp)
    have hfound : db.tasks.get? p.1 = some p.2 := Dict.mem_entries.mp (List.mem_of_mem_filter hfiltered)
    have hok : p.2.toDomain p.1 = .ok task := by
      rcases hrow : p.2.toDomain p.1 with e | read
      · rw [hrow] at hdomain
        cases hdomain
      · rw [hrow] at hdomain
        cases hdomain
        rfl
    have hid : task.taskId = p.1 := by
      unfold TaskRow.toDomain at hok
      split at hok <;> cases hok
      rfl
    refine ⟨task.standing, ?_, .refl _⟩
    rw [hid, postgres_found hfound, rowStanding_ok hok]
  look_taskId _ _ := rfl
  look_known _ _ hknown := hknown
  look_steady _ _ _ _ _ := le_refl _
  recovers _ _ _ _ _ _ _ _ _ _ htarget h := postgres_recovers htarget h
  keepsFailed _ _ _ _ _ _ _ _ _ h := postgres_keepsFailed h

end database

/-! ## Other components -/

/-- The calls of `assign_task`, `complete_task`, `record_execution_failure` and `create_task`. Kind: D -/
def TaskOp.OfWorkers : TaskOp → Prop
  | .update .. | .transition .. => False
  | _ => True

section steady

theorem leads_of_version {before after : Standing} (h : after.leaseVersion = before.leaseVersion + 1) :
    before.Leads after :=
  Or.inl (h ▸ Int.lt_succ before.leaseVersion)

theorem inMemory_steady_put {repository : InMemoryTaskRepository} {taskId : String} {before after : RemediationTask}
    (hfound : repository.tasks.get? taskId = some before) (hleads : before.standing.Leads after.standing) :
    inMemoryStore.Steady repository (repository.put taskId after) :=
  (inMemory_moves after).steady (inMemory_found hfound) hleads

theorem transitionTo_ok {task task' : RemediationTask} {now : ℚ} {newState : TaskState}
    (h : task.transitionTo now newState = .ok task') : task' = task.enter now newState := by
  unfold RemediationTask.transitionTo at h
  split at h
  · exact (Except.ok.inj h).symm
  · cases h

theorem transitionTo_leaseVersion {task task' : RemediationTask} {now : ℚ} {newState : TaskState}
    (h : task.transitionTo now newState = .ok task') : task'.leaseVersion = task.leaseVersion := by
  rw [transitionTo_ok h]
  exact enter_leaseVersion newState task

/-- A worker's call on the repository in memory starts no task without a new lease version. Kind: L -/
theorem inMemory_steady (now : ℚ) (repository : InMemoryTaskRepository) {op : TaskOp} (h : op.OfWorkers) :
    inMemoryStore.Steady repository (repository.call now op).1 := by
  cases op with
  | create task =>
    unfold InMemoryTaskRepository.call InMemoryTaskRepository.createTask
    dsimp only
    split
    · exact .refl repository
    · rename_i hnew
      intro taskId before hbefore
      obtain ⟨stored, hstored, _⟩ := inMemory_standing hbefore
      have hne : taskId ≠ task.taskId := by grind [Dict.contains]
      exact ⟨before, ((inMemory_moves task).2 taskId hne).trans hbefore, .refl before⟩
  | update taskId args => exact h.elim
  | transition taskId expected states newState args => exact h.elim
  | assign taskId workerId =>
    unfold InMemoryTaskRepository.call InMemoryTaskRepository.assignTask
    dsimp only
    split
    · exact .refl repository
    · rename_i task hfound
      split
      · exact .refl repository
      · split
        · exact .refl repository
        · split
          · exact .refl repository
          · split
            · exact .refl repository
            · rename_i task' htask'
              exact inMemory_steady_put hfound (leads_of_version (congrArg (· + 1) (transitionTo_leaseVersion htask')))
  | complete taskId expected workerId token receiptId receiptFingerprint status =>
    unfold InMemoryTaskRepository.call InMemoryTaskRepository.completeTask
    dsimp only
    split
    · exact .refl repository
    · rename_i task hfound
      split
      · exact .refl repository
      · split
        · exact .refl repository
        · split
          · exact .refl repository
          · rename_i task' htask'
            exact inMemory_steady_put hfound (leads_of_version (congrArg (· + 1) (transitionTo_leaseVersion htask')))
  | failure taskId expected workerId token message =>
    unfold InMemoryTaskRepository.call InMemoryTaskRepository.recordExecutionFailure
    dsimp only
    split
    · exact .refl repository
    · rename_i task hfound
      split
      · exact .refl repository
      · split
        · exact .refl repository
        · split
          · exact inMemory_steady_put hfound (.refl task.standing)
          · rename_i task' htask'
            have hversion : task'.leaseVersion = task.leaseVersion := by
              rw [transitionTo_leaseVersion htask']
            exact inMemory_steady_put hfound (leads_of_version (congrArg (· + 1) hversion))

variable {sha256 : String → String}

/-- So does one on the database. Kind: L -/
theorem postgres_steady (draws : Draws) (db : Database) {op : TaskOp} (h : op.OfWorkers) :
    (postgresStore sha256).Steady db (db.step sha256 (.call draws op)) := by
  rcases Database.step_cases sha256 db (.call draws op) with heq | ⟨_, _, taskId, before, row, entry, staged, heq,
    hmoves, hrecorded⟩ | ⟨_, taskId, args, row, row', heq, _⟩ | ⟨_, _, heq, _⟩
  · rw [heq]
    exact .refl db
  · cases heq
    have hmove : ∀ state : TaskState, row.state = state.value → (postgresStore sha256).Moves db
        (db.step sha256 (.call draws op)) taskId ⟨state, row.attempts, row.maxAttempts, row.leaseVersion⟩ :=
      fun _ hstate => postgres_moves hrecorded.tasks (rowStanding_eq hstate)
    have hsteady : ∀ (state : TaskState) {old : TaskRow}, db.tasks.get? taskId = some old →
        row.state = state.value → row.leaseVersion = old.leaseVersion + 1 →
        (postgresStore sha256).Steady db (db.step sha256 (.call draws op)) := by
      intro state old hfound hstate hversion other standing hstanding
      by_cases hkey : other = taskId
      · subst hkey
        refine ⟨_, (hmove state hstate).1, ?_⟩
        rw [postgres_found hfound] at hstanding
        have hold : standing.leaseVersion = old.leaseVersion := by
          unfold rowStanding TaskRow.toDomain at hstanding
          split at hstanding
          · rename_i task htask
            split at htask <;> cases htask
            cases hstanding
            rfl
          · cases hstanding
        exact leads_of_version (hold ▸ hversion)
      · exact ⟨standing, ((hmove state hstate).2 other hkey).trans hstanding, .refl standing⟩
    cases hmoves with
    | create task hnew =>
      intro other standing hstanding
      have hne : other ≠ task.taskId := by grind [postgresStore]
      exact ⟨standing, ((hmove task.state rfl).2 other hne).trans hstanding, .refl standing⟩
    | transition hop => rcases hop with rfl | ⟨_, _, rfl, _⟩ <;> exact h.elim
    | assign workerId hfound => exact hsteady .running hfound rfl rfl
    | complete receiptId receiptFingerprint status hmay => exact hsteady .completed hmay.found rfl rfl
    | fail message hmay => exact hsteady .failed hmay.found rfl rfl
    | retry message hmay => exact hsteady .queued hmay.found rfl rfl
  · cases heq
    exact h.elim
  · cases heq

end steady

/-! ## Two runs -/

/-- A running task with one of three attempts. Kind: D -/
def runningTask : RemediationTask :=
  { taskId := "t", findingId := "f", approvalTokenId := "a", fingerprint := "p", state := .running, attempts := 1,
    leaseVersion := 2 }

/-- Kind: D -/
def oneTask : InMemoryTaskRepository := ⟨Dict.empty.set "t" runningTask⟩

/-- A node finds the task of an offline worker and queues it. Kind: D -/
def queueing : List (RecoveryEvent Unit) :=
  [.node () (.start "node_leader_1" (Dict.empty.set "t" "w") true), .node () (.workers ["w"]),
    .node () (.list fun _ => 0), .node () (.isValid (.ok true)), .node () .look, .node () .look, .node () .look,
    .node () (.transition 0 (drawsAt 0))]

/-- A node enqueues the task and returns, and a worker takes it. Kind: D -/
def recovering : List (RecoveryEvent Unit) :=
  queueing ++ [.node () (.isValid (.ok true)), .node () (.enqueue none true), .node () (.report none),
    .other 1 (drawsAt 1) (.assign "t" "v"), .node () (.isValid (.ok true))]

theorem uncompensated_run_recovers_task :
    (∀ nodes ∈ reached (RecoveryNodes.step inMemory.toTaskStore) { tasks := oneTask } recovering,
      ∀ i, Settled (nodes.phase i) (nodes.touched i)) ∧
      OneExecution inMemory.toTaskStore { tasks := oneTask } recovering := by
  refine uncompensated_run_recovers inMemory oneTask recovering ⟨trivial, trivial, trivial, trivial, trivial, trivial,
    trivial, trivial, fun _ => rfl, rfl, trivial, inMemory_steady 1 _ trivial, trivial, trivial⟩

/-- The lock is lost after the task was queued, and the task is rolled back. Kind: D -/
def fencedLeader : List (RecoveryEvent Unit) :=
  queueing ++ [.node () (.isValid (.ok false)), .node () (.transition 1 (drawsAt 1))]

/-- The task is RUNNING again with its lease version, and has two attempts. -/
theorem rollback_counts_as_attempt :
    ¬ ∀ nodes ∈ reached (RecoveryNodes.step inMemory.toTaskStore) { tasks := oneTask } fencedLeader,
      ∀ i, Settled (nodes.phase i) (nodes.touched i) := by
  intro h
  have hlast := h (fencedLeader.foldl (RecoveryNodes.step inMemory.toTaskStore) { tasks := oneTask })
    (foldl_mem_reached _ fencedLeader) ()
  have htouched : (⟨"t", some ⟨.running, 1, 3, 2⟩, some ⟨.running, 2, 3, 2⟩, 0⟩ : Touched) ∈
      (fencedLeader.foldl (RecoveryNodes.step inMemory.toTaskStore) { tasks := oneTask }).touched () :=
    List.mem_singleton.mpr rfl
  have hsettled := hlast _ htouched
  rcases hsettled with ⟨before, after, _, hafter, ⟨hqueued, _⟩ | ⟨hfailed, _⟩⟩ |
    ⟨before, after, hbefore, hafter, _, hattempts, _⟩
  · cases hafter
    cases hqueued
  · cases hafter
    cases hfailed
  · grind

end KarsaSec.Workers
