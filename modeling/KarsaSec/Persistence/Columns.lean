import KarsaSec.Persistence.Arguments

/-!
# Columns

A column of the database is bounded where a task in memory is not.

* `argFits`, `VersionFits`, `WorkerFits`, `TransitionFits` say of what a call is given that the columns hold it.
* `holds_create`, `holds_worker`, `holds_transition`: then they hold what it writes, if they hold the row of
  its task.
-/

namespace KarsaSec.Persistence

open KarsaSec.Found KarsaSec.Workers KarsaSec.Events

/-! ## What a call is given -/

/-- The column of an argument holds it. Source: `models.py`, `TaskModel`. Kind: D -/
def argFits : TaskArg → Bool
  | .findingId v | .approvalTokenId v => fitsString 256 v
  | .fingerprint v => fitsString 64 v
  | .attempts v | .maxAttempts v | .leaseSeconds v | .leaseVersion v => fitsInteger v
  | .errorMessage v | .payload v => v.all fitsText
  | .receiptId v | .assignedWorkerId v => v.all (fitsString 128)
  | .receiptFingerprint v | .securityVerificationStatus v => v.all (fitsString 64)
  | .assignedWorkerFencingToken v | .recoveryFencingToken v => v.all fitsInteger
  | _ => true

/-- The version that a call gives a task, and the key of its event. Kind: D -/
structure VersionFits (kind taskId : String) (version : ℤ) : Prop where
  number : fitsInteger version = true
  key : fitsString 128 (versionKey kind taskId version) = true

/-- The attempts of a task that enters a state. Kind: D -/
def attemptsAfter (row : TaskRow) (newState : TaskState) : ℤ :=
  if newState = .running then row.attempts + 1 else row.attempts

/-- The message, the attempts and the version of a transition. Kind: D -/
structure TransitionFits (taskId : String) (row : TaskRow) (newState : TaskState) (version : ℤ)
    (args : TaskArgs) : Prop where
  message : ∀ text, args.errorMessage? = some (some text) → fitsText text = true
  attempts : fitsInteger (attemptsAfter row newState) = true
  version : VersionFits "transition" taskId version

/-- The worker that a call names, its token, and the version that the call gives a task. Kind: D -/
structure WorkerFits (kind taskId workerId : String) (workerFencingToken version : ℤ) : Prop where
  worker : fitsString 128 workerId = true
  token : fitsInteger workerFencingToken = true
  version : VersionFits kind taskId version

/-! ## What it writes -/

variable {taskId : String} {row row' : TaskRow} {db : Database}

theorem fits_value (state : TaskState) : fitsString 32 state.value = true := by
  cases state <;> decide

theorem fits_taskId (h : row.fits taskId = true) : fitsString 128 taskId = true := by
  simp_all [TaskRow.fits]

theorem fits_state (h : row.fits taskId = true) : fitsString 32 row.state = true := by
  simp_all [TaskRow.fits]

theorem setArg_fits {arg : TaskArg} (h : row.fits taskId = true) (harg : argFits arg = true)
    (hset : row.setArg arg = .ok row') : row'.fits taskId = true := by
  cases arg with
  | unread name known knownModel =>
    cases knownModel
    · cases hset
    · cases hset
      exact h
  | _ => cases hset <;> simp_all [TaskRow.fits, argFits, fits_value]

theorem foldlM_fits {entries : List TaskArg} (h : row.fits taskId = true)
    (hargs : ∀ arg ∈ entries, argFits arg = true) (hset : entries.foldlM TaskRow.setArg row = .ok row') :
    row'.fits taskId = true := by
  induction entries generalizing row with
  | nil =>
    cases hset
    exact h
  | cons arg rest ih =>
    rw [List.foldlM_cons] at hset
    rcases hfirst : row.setArg arg with e | middle
    · rw [hfirst] at hset
      cases hset
    · rw [hfirst] at hset
      exact ih (setArg_fits h (hargs arg List.mem_cons_self) hfirst)
        (fun other hother => hargs other (List.mem_cons_of_mem arg hother)) hset

theorem holds_create {task : RemediationTask} (h : (TaskRow.ofTask task).fits task.taskId = true)
    (hkey : fitsString 128 (createdKey task.taskId) = true) :
    db.holds task.taskId (TaskRow.ofTask task) (createdEntry task) (createdEvent task) = true := by
  have hnone : fitsString 32 "NONE" = true := by decide
  have hreason : fitsString 256 "TASK_CREATED" = true := by decide
  have htype : fitsString 64 "TASK_CREATED" = true := by decide
  simp_all [Database.holds, TaskRow.fits, TaskRow.ofTask, Transition.fits, Staged.fits, createdEntry,
    createdEvent]

theorem holds_worker {kind workerId reason : String} {token version : ℤ} {newState : TaskState}
    (hrow : row.fits taskId = true) (hnext : row'.fits taskId = true)
    (h : WorkerFits kind taskId workerId token version) (hreason : fitsString 64 reason = true)
    (hreason' : fitsString 256 reason = true) :
    db.holds taskId row' (workerEntry taskId row newState workerId token version reason)
      (workerEvent taskId reason kind version) = true := by
  have htask := fits_taskId hrow
  have hstate := fits_state hrow
  have hkey := h.version.key
  simp_all [Database.holds, Transition.fits, Staged.fits, workerEntry, workerEvent, fits_value, h.worker,
    h.token, h.version.number]

theorem assignedRow_fits {workerId : String} {token : ℤ} (h : row.fits taskId = true)
    (hattempts : row.attempts < row.maxAttempts)
    (hworker : WorkerFits "assigned" taskId workerId token (row.leaseVersion + 1)) :
    (assignedRow row workerId token).fits taskId = true := by
  have hnext : fitsInteger (row.attempts + 1) = true := by
    simp_all [TaskRow.fits, fitsInteger]
    omega
  simp_all [TaskRow.fits, assignedRow, fits_value, hworker.worker, hworker.token, hworker.version.number]

theorem givenOr_fits {p : String → Bool} {given stored : Option String} (hgiven : given.all p = true)
    (hstored : stored.all p = true) : (givenOr given stored).all p = true := by
  unfold givenOr
  rcases given with _ | text
  · exact hstored
  · dsimp only
    split
    · exact hstored
    · exact hgiven

theorem completedRow_fits {version : ℤ}
    {receiptId receiptFingerprint securityVerificationStatus : Option String} (h : row.fits taskId = true)
    (hversion : fitsInteger version = true) (hreceipt : receiptId.all (fitsString 128) = true)
    (hfingerprint : receiptFingerprint.all (fitsString 64) = true)
    (hstatus : securityVerificationStatus.all (fitsString 64) = true) :
    (completedRow row version receiptId receiptFingerprint securityVerificationStatus).fits taskId = true := by
  simp_all [TaskRow.fits, completedRow, fits_value, givenOr_fits]

theorem failedRow_fits {version : ℤ} {errorMessage : String} (h : row.fits taskId = true)
    (hversion : fitsInteger version = true) (hmessage : fitsText errorMessage = true) :
    (failedRow row version errorMessage).fits taskId = true := by
  simp_all [TaskRow.fits, failedRow, fits_value]

theorem retriedRow_fits {version : ℤ} {errorMessage : String} (h : row.fits taskId = true)
    (hversion : fitsInteger version = true) (hmessage : fitsText errorMessage = true) :
    (retriedRow row version errorMessage).fits taskId = true := by
  simp_all [TaskRow.fits, retriedRow, fits_value]

/-- What no attribute in memory reads is not among arguments that are attributes in memory. Kind: L -/
theorem find?_eq_none {α : Type} {args : TaskArgs} {read : TaskArg → Option α}
    (hargs : ∀ arg ∈ args.entries, onTask arg = true) (hread : ∀ arg, onTask arg = true → read arg = none) :
    args.find? read = none := by
  unfold TaskArgs.find?
  rw [List.findSome?_eq_none_iff]
  exact fun arg harg => hread arg (hargs arg harg)

theorem assignedWorkerId?_eq_none {args : TaskArgs} (hargs : ∀ arg ∈ args.entries, onTask arg = true) :
    args.assignedWorkerId? = none :=
  find?_eq_none hargs fun arg h => by cases arg <;> first | rfl | cases h

theorem recoveryFencingToken?_eq_none {args : TaskArgs} (hargs : ∀ arg ∈ args.entries, onTask arg = true) :
    args.recoveryFencingToken? = none :=
  find?_eq_none hargs fun arg h => by cases arg <;> first | rfl | cases h

theorem reason?_eq_none {args : TaskArgs} (hargs : ∀ arg ∈ args.entries, onTask arg = true) :
    args.reason? = none :=
  find?_eq_none hargs fun arg h => by cases arg <;> first | rfl | cases h

theorem transitionRow_fits {newState : TaskState} {version : ℤ} {args : TaskArgs}
    (hrow : row.fits taskId = true) (hargs : ∀ arg ∈ args.entries, onTask arg = true)
    (h : TransitionFits taskId row newState version args) :
    (transitionRow row version newState args).fits taskId = true := by
  have hworker : args.assignedWorkerId? = none := assignedWorkerId?_eq_none hargs
  have htoken : args.recoveryFencingToken? = none := recoveryFencingToken?_eq_none hargs
  have hmessage : (args.errorMessage?.getD row.errorMessage).all fitsText = true := by
    rcases hgiven : args.errorMessage? with _ | _ | text
    · simp_all [TaskRow.fits]
    · rfl
    · exact h.message text hgiven
  have hattempts := h.attempts
  unfold attemptsAfter at hattempts
  simp_all [TaskRow.fits, transitionRow, fits_value, h.version.number]

theorem holds_transition {expectedStates : List TaskState} {newState : TaskState} {version : ℤ}
    {args : TaskArgs} (hrow : row.fits taskId = true) (hargs : ∀ arg ∈ args.entries, onTask arg = true)
    (h : TransitionFits taskId row newState version args) :
    db.holds taskId (transitionRow row version newState args)
      (transitionEntry taskId expectedStates newState version args)
      (transitionEvent taskId newState version) = true := by
  have hfits := transitionRow_fits hrow hargs h
  have hworker : args.assignedWorkerId? = none := assignedWorkerId?_eq_none hargs
  have htoken : args.recoveryFencingToken? = none := recoveryFencingToken?_eq_none hargs
  have hreason : args.reason? = none := reason?_eq_none hargs
  have htask := fits_taskId hrow
  have hprevious : fitsString 32 ((expectedStates.map TaskState.value).headD "UNKNOWN") = true := by
    cases expectedStates with
    | nil => decide
    | cons state _ => exact fits_value state
  have htype : fitsString 64 s!"TASK_{newState.value}" = true := by cases newState <;> decide
  have hdefault : fitsString 256 "ATOMIC_TRANSITION" = true := by decide
  have hkey := h.version.key
  simp_all [Database.holds, Transition.fits, Staged.fits, transitionEntry, transitionEvent, fits_value,
    h.version.number]

end KarsaSec.Persistence
