import KarsaSec.Events.ChainOrder
import KarsaSec.Persistence.Lifetimes
import KarsaSec.Recovery.Snapshot
import Mathlib.Data.List.Dedup

/-!
# Restoration of a checkpoint

`restore_checkpoint` is to leave the tasks as they are at the end of the run: those of the snapshot, brought
forward by the audit rows after it.

* `Cuttable` is the condition on the tables at the cut: the snapshot keeps what is in them.
* `Told` is the condition on a later call: its audit row tells all that it changes. `Replayable` adds that the
  row comes after the rows at the cut, and that an update without a state sets nothing new.
* `Since`: the tasks are those of the cut, with the audit rows since then replayed.
* `restored_run_equals`: in a run whose later calls are replayable, a restoration that succeeds leaves the
  tasks as they are.
-/

namespace KarsaSec.Recovery

open KarsaSec.Found KarsaSec.Workers KarsaSec.Events KarsaSec.Persistence
open TaskAuditLedger AuditReplayEngine SnapshotManager RecoveryCheckpoint

/-! ## Conditions -/

/-- What a snapshot leaves out of a task is empty. Kind: D -/
def KeptBySnapshot (row : TaskRow) : Prop :=
  row.payload = none ∧ row.receiptId = none ∧ row.receiptFingerprint = none ∧
    row.securityVerificationStatus = none

/-- The tables at the cut: what a snapshot leaves out is empty, and no other audit row has the hash of the
latest one. Kind: D -/
structure Cuttable (cut : Database) : Prop where
  kept : ∀ taskId row, cut.tasks.get? taskId = some row → KeptBySnapshot row
  oneHead : ∀ head ∈ lastAudit cut.audit, ∀ row ∈ cut.audit, row.eventHash = head.eventHash → row = head

/-- A transition that changes a task only as its audit row tells: it does not count an attempt, sets no new
error message and no new recovery token, and the worker and the token that it reports are those that the task
has afterwards; a task that is queued has none. Kind: D -/
def TransitionTold (row : TaskRow) (newState : TaskState) (args : TaskArgs) : Prop :=
  newState ≠ .running ∧ args.errorMessage?.getD row.errorMessage = row.errorMessage ∧
    args.recoveryFencingToken?.getD row.recoveryFencingToken = row.recoveryFencingToken ∧
    args.assignedWorkerId?.getD row.assignedWorkerId =
      (if newState = .queued then none else args.assignedWorkerId?.getD none) ∧
    row.assignedWorkerFencingToken =
      (if newState = .queued then none else args.recoveryFencingToken?.getD none)

/-- The task is assigned to the worker with its token. Kind: D -/
def AssignedTo (row : TaskRow) (workerId : String) (workerFencingToken : ℤ) : Prop :=
  row.assignedWorkerId = some workerId ∧ row.assignedWorkerFencingToken = some workerFencingToken

/-- A call that changes a task only as its audit row tells: a new task has what a reconstructed one has, none
is assigned, and a worker reports no new receipt and no new error message. Kind: D -/
def Told (before : Option TaskRow) : TaskOp → Prop
  | .create task => task.findingId = "RECONSTRUCTED" ∧ task.approvalTokenId = "RECONSTRUCTED" ∧
      task.fingerprint = "RECONSTRUCTED" ∧ task.attempts = 0 ∧ task.maxAttempts = 3 ∧
      task.leaseSeconds = 300 ∧ task.errorMessage = none ∧ task.receiptId = none ∧
      task.receiptFingerprint = none ∧ task.securityVerificationStatus = none
  | .update _ args => ∀ row ∈ before, ∀ newState ∈ args.state?, TransitionTold row newState args.popState
  | .transition _ _ _ newState args => ∀ row ∈ before, TransitionTold row newState args
  | .assign _ _ => False
  | .complete _ _ workerId workerFencingToken receiptId receiptFingerprint securityVerificationStatus =>
    ∀ row ∈ before, AssignedTo row workerId workerFencingToken ∧
      givenOr receiptId row.receiptId = row.receiptId ∧
      givenOr receiptFingerprint row.receiptFingerprint = row.receiptFingerprint ∧
      givenOr securityVerificationStatus row.securityVerificationStatus = row.securityVerificationStatus
  | .failure _ _ workerId workerFencingToken errorMessage => ∀ row ∈ before,
      row.errorMessage = some errorMessage ∧
        (row.maxAttempts ≤ row.attempts → AssignedTo row workerId workerFencingToken)

/-- A call after the cut that is replayed as it was. Kind: D -/
def Replayable (cut db : Database) : RepositoryEvent → Prop
  | .call draws op =>
    (∀ taskId before row entry staged, Moves db op taskId before row entry staged →
      Told before op ∧ ∀ old ∈ cut.audit, old.place < toLex (draws.auditAt, draws.auditId)) ∧
    ∀ taskId args row row', op = .update taskId args → args.state? = none →
      db.tasks.get? taskId = some row → args.entries.foldlM TaskRow.setArg row = .ok row' → row' = row
  | .worker _ _ => True

/-! ## Rows that are replayed -/

/-- What an audit row makes of the row of its task, if there is one. Kind: D -/
def trackStep (row : Option TaskRow) (entry : AuditRow) : Option TaskRow :=
  some (match row with
    | some row => replayRow row entry
    | none => reconstructedRow entry)

variable {sha256 : String → String} {cut db db' : Database} {draws : Draws} {op : TaskOp} {taskId : String}
  {row : TaskRow} {entry : Transition} {staged : Staged}

theorem value_eq_queued {state : TaskState} : state.value = "QUEUED" ↔ state = .queued := by
  cases state <;> decide

theorem transition_told {row : TaskRow} {newState : TaskState} {args : TaskArgs}
    (h : TransitionTold row newState args) (draws : Draws) (rows : List AuditRow)
    (expectedStates : List TaskState) (v : ℤ) :
    replayRow row (newRow sha256 draws rows (transitionEntry taskId expectedStates newState v args)) =
      transitionRow row v newState args := by
  obtain ⟨hrunning, herror, hrecovery, hworker, htoken⟩ := h
  unfold transitionRow
  rw [herror, hrecovery, hworker, if_neg hrunning]
  have htoken' : (if newState.value = "QUEUED" then none else args.recoveryFencingToken?.getD none) =
      row.assignedWorkerFencingToken := by
    rw [htoken]
    simp only [value_eq_queued]
  show ({ row with
      state := newState.value
      leaseVersion := v
      assignedWorkerId := if newState.value = "QUEUED" then none else args.assignedWorkerId?.getD none
      assignedWorkerFencingToken :=
        if newState.value = "QUEUED" then none else args.recoveryFencingToken?.getD none } : TaskRow) = _
  rw [htoken']
  simp only [value_eq_queued]

/-- The audit row of a call that is told makes of the task what the call makes of it. Kind: L -/
theorem told_row {before : Option TaskRow} (hmoves : Moves db op taskId before row entry staged)
    (h : Told before op) (draws : Draws) (rows : List AuditRow) :
    trackStep before (newRow sha256 draws rows entry) = some row := by
  cases hmoves with
  | create task hnew =>
    obtain ⟨hfinding, happroval, hprint, hattempts, hmax, hseconds, herror, hreceipt, hreceiptPrint,
      hstatus⟩ := h
    unfold TaskRow.ofTask
    rw [hfinding, happroval, hprint, hattempts, hmax, hseconds, herror, hreceipt, hreceiptPrint, hstatus]
    rfl
  | transition hop hfound hguard hversion hstate =>
    rename_i old expectedLeaseVersion expectedStates newState args
    have htold : TransitionTold old newState args := by
      rcases hop with rfl | ⟨all, current, rfl, hnew, rfl, _⟩
      · exact h old rfl
      · exact h old rfl newState hnew
    exact congrArg some (transition_told htold draws rows expectedStates _)
  | assign => exact absurd h not_false
  | complete receiptId receiptFingerprint securityVerificationStatus hmay =>
    rename_i old workerId token
    obtain ⟨⟨hworker, htoken⟩, hreceipt, hprint, hstatus⟩ := h old rfl
    unfold completedRow
    rw [hreceipt, hprint, hstatus]
    show some ({ old with
      state := "COMPLETED"
      leaseVersion := old.leaseVersion + 1
      assignedWorkerId := some workerId
      assignedWorkerFencingToken := some token } : TaskRow) = _
    rw [← hworker, ← htoken]
    rfl
  | fail errorMessage hmay hattempts hburied =>
    rename_i old workerId token
    obtain ⟨herror, hassigned⟩ := h old rfl
    obtain ⟨hworker, htoken⟩ := hassigned hattempts
    unfold failedRow
    rw [← herror]
    show some ({ old with
      state := "FAILED"
      leaseVersion := old.leaseVersion + 1
      assignedWorkerId := some workerId
      assignedWorkerFencingToken := some token } : TaskRow) = _
    rw [← hworker, ← htoken]
    rfl
  | retry errorMessage hmay hattempts =>
    rename_i old workerId token
    unfold retriedRow
    rw [← (h old rfl).1]
    rfl

/-! ## The tasks since the cut -/

/-- The tasks are those of the cut with the audit rows since then replayed. Kind: D -/
structure Since (sha256 : String → String) (cut db : Database) (since : List AuditRow) : Prop where
  audit : db.audit = cut.audit ++ since
  later : ∀ old ∈ cut.audit, ∀ entry ∈ since, old.place < entry.place
  tracked : ∀ taskId, (recordedOf since taskId).foldl trackStep (cut.tasks.get? taskId) = db.tasks.get? taskId
  recording : ∀ taskId, Recording sha256 taskId db.audit

/-- The audit rows of the tables are recorded by the ledger. Kind: L -/
theorem recording_step (h : ∀ taskId, Recording sha256 taskId db.audit) (event : RepositoryEvent)
    (taskId : String) : Recording sha256 taskId (db.step sha256 event).audit := by
  rcases Database.step_cases sha256 db event with heq | ⟨draws, op, moved, before, row', entry, staged, rfl,
    hmoves, hrecorded⟩ | ⟨draws, moved, args, old, row', rfl, hnew, hfound, hset, heq⟩ | ⟨_, _, _, heq⟩
  · rw [heq]
    exact h taskId
  · rw [hrecorded.audit]
    exact recording_newRow (h taskId) hrecorded.fresh entry
  · rw [heq]
    exact h taskId
  · rw [heq]
    exact h taskId

theorem recording_run_step (sha256 : String → String) (events : List RepositoryEvent) (taskId : String) :
    Recording sha256 taskId (events.foldl (Database.step sha256) {}).audit :=
  invariant_reached (I := fun db : Database => ∀ taskId, Recording sha256 taskId db.audit)
    (fun _ event h => recording_step h event) events (fun _ => recording_init) _ (foldl_mem_reached _ _) taskId

theorem since_step {since : List AuditRow} (h : Since sha256 cut db since) {event : RepositoryEvent}
    (hevent : Replayable cut db event) : ∃ since', Since sha256 cut (db.step sha256 event) since' := by
  have hrecording := recording_step h.recording event
  rcases Database.step_cases sha256 db event with heq | ⟨draws, op, moved, before, row', entry, staged, rfl,
    hmoves, hrecorded⟩ | ⟨draws, moved, args, old, row', rfl, hnew, hfound, hset, heq⟩ | ⟨_, _, _, heq⟩
  · rw [heq]
    exact ⟨since, h⟩
  · obtain ⟨htold, hlater⟩ := hevent.1 _ _ _ _ _ hmoves
    refine ⟨since ++ [newRow sha256 draws db.audit entry], ?_, ?_, fun taskId => ?_, hrecording⟩
    · rw [hrecorded.audit, h.audit, List.append_assoc]
    · intro old hold new hnew
      rcases List.mem_append.mp hnew with hnew | hnew
      · exact h.later old hold new hnew
      · rw [List.mem_singleton.mp hnew]
        exact hlater old hold
    · have hid : (newRow sha256 draws db.audit entry).taskId = moved := hmoves.entry_taskId
      rw [hrecorded.tasks]
      by_cases hmoved : moved = taskId
      · rw [recordedOf_append_self (hid.trans hmoved), List.foldl_append, h.tracked, ← hmoved,
          Dict.get?_set_self, hmoves.found]
        exact told_row hmoves htold draws db.audit
      · rw [recordedOf_append_ne (fun heq => hmoved (hid.symm.trans heq)), h.tracked,
          Dict.get?_set_ne _ (Ne.symm hmoved)]
  · have hsame : row' = old := hevent.2 _ _ _ _ rfl hnew hfound hset
    refine ⟨since, ?_, h.later, fun taskId => ?_, hrecording⟩
    · rw [heq]
      exact h.audit
    · rw [h.tracked, heq, hsame]
      show _ = (db.tasks.set moved old).get? taskId
      by_cases hmoved : taskId = moved
      · rw [hmoved, Dict.get?_set_self, hfound]
      · rw [Dict.get?_set_ne _ hmoved]
  · refine ⟨since, ?_, h.later, fun taskId => ?_, hrecording⟩
    · rw [heq]
      exact h.audit
    · rw [h.tracked, heq]

/-! ## Where the replay begins -/

theorem afterBoundary_append {old new : List AuditRow} {head : AuditRow}
    (hgenesis : head.eventHash ≠ "GENESIS") (hold : ∀ row ∈ old, row.eventHash ≠ head.eventHash) :
    afterBoundary head.eventHash (old ++ head :: new) = new := by
  have hindex : (old ++ head :: new).findIdx? (fun entry => entry.eventHash = head.eventHash) =
      some old.length := by
    rw [List.findIdx?_append, List.findIdx?_eq_none_iff.mpr (by simpa using hold), List.findIdx?_cons]
    simp
  unfold afterBoundary
  rw [if_neg hgenesis, hindex]
  simp

/-- The replay begins after the rows of the cut. Kind: L -/
theorem afterBoundary_cut (hsha : CollisionFree sha256) (hcut : Cuttable cut)
    (hrecording : ∀ taskId, Recording sha256 taskId cut.audit) {since : List AuditRow}
    (hlater : ∀ old ∈ cut.audit, ∀ entry ∈ since, old.place < entry.place) :
    afterBoundary (((lastAudit cut.audit).map AuditRow.eventHash).getD "GENESIS")
      (chronological (cut.audit ++ since)) = chronological since := by
  have hsplit : chronological (cut.audit ++ since) = chronological cut.audit ++ chronological since :=
    sortBy_append hlater
  rcases hlast : lastAudit cut.audit with _ | head
  · have hnil : chronological cut.audit = [] := List.getLast?_eq_none_iff.mp hlast
    rw [hsplit, hnil]
    rfl
  · have hinit : (chronological cut.audit).dropLast ++ [head] = chronological cut.audit :=
      List.dropLast_append_getLast? head hlast
    have hperm : (chronological cut.audit).Perm cut.audit := sortBy_perm AuditRow.place _
    have hhead : head ∈ cut.audit := hperm.mem_iff.mp (List.mem_of_getLast? hlast)
    have hgenesis : head.eventHash ≠ "GENESIS" := by
      obtain ⟨⟨_, hsealed, _⟩, _⟩ := (hrecording head.taskId).sealed head (mem_recordedOf.mpr ⟨hhead, rfl⟩)
      rw [hsealed]
      exact hsha.ne_genesis _
    have hothers : ∀ row ∈ (chronological cut.audit).dropLast, row.eventHash ≠ head.eventHash := by
      intro row hrow hhash
      have hmem : row ∈ cut.audit := hperm.mem_iff.mp (List.mem_of_mem_dropLast hrow)
      have hids : ((chronological cut.audit).map AuditRow.id).Nodup :=
        (hperm.map AuditRow.id).nodup_iff.mpr (hrecording "").ids
      rw [hcut.oneHead head hlast row hmem hhash] at hrow
      rw [← hinit, List.map_append, List.nodup_append] at hids
      exact hids.2.2 head.id (List.mem_map_of_mem hrow) head.id (List.mem_singleton.mpr rfl) rfl
    rw [hsplit, ← hinit, List.append_assoc]
    exact afterBoundary_append hgenesis hothers

/-! ## The tasks of a replay -/

/-- Whether the queries of a replay never see the row of a task: it is not there, and the session does not
flush. Kind: D -/
def Unseen (autoflush : Bool) (tasks : Dict String TaskRow) (taskId : String) : Prop :=
  tasks.get? taskId = none ∧ autoflush = false

/-- What the replay of some rows makes of a task. Kind: D -/
structure ReplayedTo (autoflush : Bool) (tasks : Dict String TaskRow) (entries : List AuditRow)
    (acc : Replayed) (taskId : String) : Prop where
  seen : ¬ Unseen autoflush tasks taskId →
    acc.tasks.get? taskId = (recordedOf entries taskId).foldl trackStep (tasks.get? taskId) ∧
      acc.added.filter (fun new => new.1 = taskId) = []
  unseen : Unseen autoflush tasks taskId → acc.tasks.get? taskId = none ∧
    acc.added.filter (fun new => new.1 = taskId) =
      (recordedOf entries taskId).map fun entry => (taskId, reconstructedRow entry)

theorem foldl_trackStep_some (entries : List AuditRow) (row : TaskRow) :
    entries.foldl trackStep (some row) ≠ none := by
  induction entries generalizing row with
  | nil => exact Option.some_ne_none row
  | cons entry rest ih => exact ih (replayRow row entry)

theorem replayStep_other {autoflush : Bool} {acc : Replayed} {entry : AuditRow}
    (h : entry.taskId ≠ taskId) : (replayStep autoflush acc entry).tasks.get? taskId = acc.tasks.get? taskId ∧
      (replayStep autoflush acc entry).added.filter (fun new => new.1 = taskId) =
        acc.added.filter fun new => new.1 = taskId := by
  unfold replayStep
  split
  · exact ⟨Dict.get?_set_ne _ (Ne.symm h) _, rfl⟩
  · grind [Dict.get?_set_ne]

theorem replayedTo_step {autoflush : Bool} {tasks : Dict String TaskRow} {entries : List AuditRow}
    {acc : Replayed} (h : ReplayedTo autoflush tasks entries acc taskId) (entry : AuditRow) :
    ReplayedTo autoflush tasks (entries ++ [entry]) (replayStep autoflush acc entry) taskId := by
  by_cases hid : entry.taskId = taskId
  · refine ⟨fun hseen => ?_, fun hunseen => ?_⟩
    · obtain ⟨htasks, hadded⟩ := h.seen hseen
      rw [recordedOf_append_self hid, List.foldl_append, ← htasks]
      unfold replayStep
      rw [hid]
      rcases hfound : acc.tasks.get? taskId with _ | row
      · cases autoflush with
        | true => exact ⟨Dict.get?_set_self _ _ _, hadded⟩
        | false =>
          rcases hbefore : tasks.get? taskId with _ | row
          · exact absurd ⟨hbefore, rfl⟩ hseen
          · grind [foldl_trackStep_some]
      · exact ⟨Dict.get?_set_self _ _ _, hadded⟩
    · obtain ⟨htasks, hadded⟩ := h.unseen hunseen
      obtain ⟨hbefore, rfl⟩ := hunseen
      unfold replayStep
      rw [hid, htasks]
      refine ⟨htasks, ?_⟩
      show (acc.added ++ [(taskId, reconstructedRow entry)]).filter (fun new => new.1 = taskId) = _
      rw [recordedOf_append_self hid, List.map_append, ← hadded, List.filter_append]
      exact congrArg _ (List.filter_cons_of_pos (by simp))
  · obtain ⟨htasks, hadded⟩ := replayStep_other hid
    refine ⟨fun hseen => ?_, fun hunseen => ?_⟩
    · rw [recordedOf_append_ne hid, htasks, hadded]
      exact h.seen hseen
    · rw [recordedOf_append_ne hid, htasks, hadded]
      exact h.unseen hunseen

theorem replayedTo_foldl (autoflush : Bool) (tasks : Dict String TaskRow) (entries : List AuditRow)
    (taskId : String) :
    ReplayedTo autoflush tasks entries (entries.foldl (replayStep autoflush) { tasks := tasks }) taskId := by
  induction entries using List.reverseRecOn with
  | nil => exact ⟨fun _ => ⟨rfl, rfl⟩, fun h => ⟨h.1, rfl⟩⟩
  | append_singleton entries entry ih =>
    rw [List.foldl_append]
    exact replayedTo_step ih entry

theorem foldl_set_other {new : List (String × TaskRow)} {tasks : Dict String TaskRow}
    (h : new.filter (fun entry => entry.1 = taskId) = []) :
    (new.foldl (fun tasks entry => tasks.set entry.1 entry.2) tasks).get? taskId = tasks.get? taskId := by
  induction new generalizing tasks with
  | nil => rfl
  | cons entry rest ih =>
    by_cases hid : entry.1 = taskId
    · rw [List.filter_cons_of_pos (by simpa using hid)] at h
      cases h
    · grind [Dict.get?_set_ne]

theorem foldl_set_one {new : List (String × TaskRow)} {tasks : Dict String TaskRow} {row : TaskRow}
    (h : new.filter (fun entry => entry.1 = taskId) = [(taskId, row)]) :
    (new.foldl (fun tasks entry => tasks.set entry.1 entry.2) tasks).get? taskId = some row := by
  induction new generalizing tasks with
  | nil => cases h
  | cons entry rest ih =>
    by_cases hid : entry.1 = taskId
    · grind [foldl_set_other, Dict.get?_set_self]
    · simp_all

/-- A replay that succeeds makes of each task what its audit rows make of it. Kind: L -/
theorem replay_get? {autoflush : Bool} {tasks : Dict String TaskRow} {entries : List AuditRow}
    (hnodup : ((entries.foldl (replayStep autoflush) { tasks := tasks }).added.map Prod.fst).Nodup)
    (taskId : String) :
    ((entries.foldl (replayStep autoflush) { tasks := tasks }).added.foldl
        (fun tasks new => tasks.set new.1 new.2)
        (entries.foldl (replayStep autoflush) { tasks := tasks }).tasks).get? taskId =
      (recordedOf entries taskId).foldl trackStep (tasks.get? taskId) := by
  have h := replayedTo_foldl autoflush tasks entries taskId
  generalize entries.foldl (replayStep autoflush) { tasks := tasks } = acc at h hnodup
  by_cases hunseen : Unseen autoflush tasks taskId
  · obtain ⟨htasks, hadded⟩ := h.unseen hunseen
    rw [hunseen.1]
    rcases hentries : recordedOf entries taskId with _ | ⟨first, _ | ⟨second, rest⟩⟩
    · grind [foldl_set_other]
    · rw [hentries] at hadded
      exact foldl_set_one hadded
    · -- the second row of a task that is not seen would be added a second time
      have hkeys : ((acc.added.filter fun new => new.1 = taskId).map Prod.fst).Nodup :=
        hnodup.sublist (List.Sublist.map _ List.filter_sublist)
      rw [hadded, hentries] at hkeys
      exact absurd List.mem_cons_self (List.nodup_cons.mp hkeys).1
  · obtain ⟨htasks, hadded⟩ := h.seen hunseen
    rw [foldl_set_other hadded, htasks]

/-! ## The tasks of a snapshot -/

theorem toRow_ofRow {row : TaskRow} (h : KeptBySnapshot row) (taskId : String) :
    (SnapshotTask.ofRow taskId row).toRow = row := by
  obtain ⟨hpayload, hreceipt, hprint, hstatus⟩ := h
  cases row
  cases hpayload
  cases hreceipt
  cases hprint
  cases hstatus
  rfl

/-- The table that is loaded has the tasks of the snapshot. Kind: L -/
theorem loaded_get? {tasks : Dict String TaskRow}
    (hkept : ∀ taskId row, tasks.get? taskId = some row → KeptBySnapshot row) (taskId : String) :
    (Dict.ofList ((tasksData tasks).map fun t => (t.taskId, t.toRow))).get? taskId = tasks.get? taskId := by
  have hperm : (tasks.entries.insertionSort fun a b => a.1 ≤ b.1).Perm tasks.entries :=
    sortBy_perm Prod.fst _
  have hlist : ((tasksData tasks).map fun t => (t.taskId, t.toRow)) =
      tasks.entries.insertionSort fun a b => a.1 ≤ b.1 := by
    unfold tasksData
    rw [List.map_map]
    refine (List.map_congr_left fun entry hentry => ?_).trans (List.map_id _)
    have hrow := hkept entry.1 entry.2 (Dict.mem_entries.mp (hperm.mem_iff.mp hentry))
    exact Prod.ext rfl (toRow_ofRow hrow entry.1)
  have hnodup : ((tasks.entries.insertionSort fun a b => a.1 ≤ b.1).map Prod.fst).Nodup :=
    (hperm.map Prod.fst).nodup_iff.mpr tasks.nodup
  rw [hlist]
  show Dict.lookup taskId (Dict.ofList _).entries = Dict.lookup taskId tasks.entries
  rw [Dict.entries_ofList hnodup]
  exact Dict.lookup_perm hperm hnodup

/-- A snapshot that was taken verifies. Kind: L -/
theorem verifySnapshot_createSnapshot (db : Database) (outboxHeadHash : String) (generation : ℕ) :
    verifySnapshot sha256 (createSnapshot sha256 db outboxHeadHash generation) = .ok () := by
  unfold verifySnapshot createSnapshot
  dsimp only
  rw [if_neg (not_not.mpr rfl), if_neg (not_not.mpr rfl)]

theorem nodup_tasksData (tasks : Dict String TaskRow) : ((tasksData tasks).map SnapshotTask.taskId).Nodup := by
  unfold tasksData
  rw [List.map_map]
  exact ((sortBy_perm Prod.fst tasks.entries).map Prod.fst).nodup_iff.mpr tasks.nodup

/-- A snapshot that was taken loads, where no checkpoint has a later generation. Kind: L -/
theorem loadSnapshot_createSnapshot {generations : List ℕ} {generation : ℕ}
    (h : generations.foldl max 0 ≤ generation) (db : Database) (outboxHeadHash : String) :
    loadSnapshot sha256 generations (createSnapshot sha256 db outboxHeadHash generation) =
      .ok (Dict.ofList ((tasksData db.tasks).map fun t => (t.taskId, t.toRow))) := by
  have hschema : ¬ (createSnapshot sha256 db outboxHeadHash generation).schemaVersion ≠ currentSchemaVersion :=
    not_not.mpr rfl
  have hnodup : ((createSnapshot sha256 db outboxHeadHash generation).tasks.map
      SnapshotTask.taskId).Nodup := nodup_tasksData db.tasks
  have hlatest : ¬ (createSnapshot sha256 db outboxHeadHash generation).snapshotGeneration <
      generations.foldl max 0 := not_lt.mpr h
  unfold loadSnapshot
  rw [verifySnapshot_createSnapshot]
  dsimp only
  rw [if_neg hschema, if_neg hlatest, if_pos hnodup]
  rfl

/-- The restoration of the only checkpoint, by the recovery that holds its token. Kind: L -/
theorem restoreCheckpoint_only (autoflush : Bool) (cut db : Database) (outboxHeadHash checkpointId : String)
    (generation : ℕ) (recoveryId recoveryId' recoveryLeaseToken : String) (pitrSequence : Option ℤ) :
    restoreCheckpoint sha256 autoflush
        { saveCheckpoint sha256 ⟨cut, Dict.empty⟩ outboxHeadHash checkpointId generation recoveryId
            recoveryLeaseToken with db := db }
        checkpointId recoveryId' recoveryLeaseToken pitrSequence =
      (do
        verifyAuditChain sha256 db.audit
        let (tasks, replayed) ← replayEvents sha256 autoflush db.audit
          (Dict.ofList ((tasksData cut.tasks).map fun t => (t.taskId, t.toRow)))
          (((lastAudit cut.audit).map AuditRow.eventHash).getD "GENESIS") pitrSequence
        let (outbox, rebuilt) ← rebuildOutboxFromAudit autoflush db.audit db.outbox
        let checkpoint : CheckpointRow :=
          { recoveryId := some recoveryId'
            recoveryLeaseToken := some recoveryLeaseToken
            snapshot := createSnapshot sha256 cut outboxHeadHash generation }
        return ({ db := { db with tasks := tasks, outbox := outbox }
                  checkpoints := (saveCheckpoint sha256 ⟨cut, Dict.empty⟩ outboxHeadHash checkpointId generation
                    recoveryId recoveryLeaseToken).checkpoints.set checkpointId checkpoint },
          replayed, rebuilt)) := by
  have hacquire : acquire
      { saveCheckpoint sha256 ⟨cut, Dict.empty⟩ outboxHeadHash checkpointId generation recoveryId
          recoveryLeaseToken with db := db } checkpointId recoveryId' recoveryLeaseToken =
      .ok
        { recoveryId := some recoveryId'
          recoveryLeaseToken := some recoveryLeaseToken
          snapshot := createSnapshot sha256 cut outboxHeadHash generation } := by
    unfold acquire
    dsimp only [saveCheckpoint]
    rw [Dict.get?_set_self]
    dsimp only
    rw [if_neg (fun h => h.2 rfl), if_pos (Or.inl rfl)]
  unfold restoreCheckpoint
  rw [hacquire]
  have hlatest : [generation].foldl max 0 ≤ generation := le_of_eq (Nat.zero_max generation)
  show (verifySnapshot sha256 (createSnapshot sha256 cut outboxHeadHash generation) >>= fun _ =>
    verifyAuditChain sha256 db.audit >>= fun _ =>
      loadSnapshot sha256 [generation] (createSnapshot sha256 cut outboxHeadHash generation) >>= _) = _
  rw [verifySnapshot_createSnapshot, loadSnapshot_createSnapshot hlatest]
  rfl

theorem inOrder_of_verifyAuditChain (hsha : CollisionFree sha256) {audit : List AuditRow}
    (hrecording : ∀ taskId, Recording sha256 taskId audit) (h : verifyAuditChain sha256 audit = .ok ())
    (taskId : String) : InOrder audit taskId := by
  by_cases hmem : taskId ∈ audit.map AuditRow.taskId
  · unfold verifyAuditChain at h
    split at h
    · rename_i verified hverified
      obtain ⟨hlength, hget⟩ := List.forall₂_iff_get.mp (mapM_ok.mp hverified)
      obtain ⟨⟨i, hi⟩, heq⟩ := List.mem_iff_get.mp (List.mem_dedup.mpr hmem)
      have hok := hget i hi (hlength ▸ hi)
      rw [heq] at hok
      exact ((hrecording taskId).verified_iff_inOrder hsha).mp hok
    · cases h
  · have hnil : recordedOf audit taskId = [] :=
      List.eq_nil_iff_forall_not_mem.mpr fun row hrow =>
        hmem (List.mem_map.mpr ⟨row, mem_recordedOf.mp hrow⟩)
    unfold InOrder
    rw [hnil]
    exact List.Pairwise.nil

/-! ## Restoration -/

/-- The tasks that a restoration leaves are as the tables have them. Kind: L -/
theorem Since.restored (hsha : CollisionFree sha256) (hcut : Cuttable cut)
    (hrecording : ∀ taskId, Recording sha256 taskId cut.audit) {since : List AuditRow}
    (h : Since sha256 cut db since) {autoflush : Bool} {tasks : Dict String TaskRow} {replayed : ℕ}
    {loaded : Dict String TaskRow} (hloaded : ∀ taskId, loaded.get? taskId = cut.tasks.get? taskId)
    (hreplay : replayEvents sha256 autoflush db.audit loaded
      (((lastAudit cut.audit).map AuditRow.eventHash).getD "GENESIS") none = .ok (tasks, replayed))
    (taskId : String) : tasks.get? taskId = db.tasks.get? taskId := by
  unfold replayEvents at hreplay
  split at hreplay
  · cases hreplay
  · rename_i hverified
    have hin := inOrder_of_verifyAuditChain hsha h.recording hverified taskId
    rw [h.audit] at hin hreplay
    dsimp only [upTo] at hreplay
    rw [afterBoundary_cut hsha hcut hrecording h.later] at hreplay
    split at hreplay
    · rename_i hnodup
      cases hreplay
      rw [replay_get? hnodup taskId, hloaded, ← h.tracked]
      have hsorted : recordedOf since taskId = recordedOf (chronological since) taskId := by
        have hsince : (recordedOf since taskId).Pairwise fun a b => a.place < b.place := by
          refine List.Pairwise.sublist ?_ hin
          exact (List.sublist_append_right cut.audit since).filter _
        refine eq_of_perm_of_increasing hsince ?_ ?_
        · exact (pairwise_sortBy AuditRow.place since).filter _
        · exact ((sortBy_perm AuditRow.place since).filter _).symm
      rw [hsorted]
    · cases hreplay

theorem acquire_snapshot {store : RecoveryStore} {checkpointId recoveryId recoveryLeaseToken : String}
    {saved checkpoint : CheckpointRow} (hsaved : store.checkpoints.get? checkpointId = some saved)
    (h : acquire store checkpointId recoveryId recoveryLeaseToken = .ok checkpoint) :
    checkpoint.snapshot = saved.snapshot := by
  unfold acquire at h
  rw [hsaved] at h
  dsimp only at h
  split at h
  · cases h
  · split at h
    · cases h
      rfl
    · cases h

theorem loadSnapshot_ok {generations : List ℕ} {snapshot : Snapshot} {loaded : Dict String TaskRow}
    (h : loadSnapshot sha256 generations snapshot = .ok loaded) :
    loaded = Dict.ofList (snapshot.tasks.map fun t => (t.taskId, t.toRow)) := by
  unfold loadSnapshot at h
  split at h
  · cases h
  · split at h
    · cases h
    · grind

/-- In a run whose later calls are replayable, from tables that can be cut, a restoration that succeeds leaves
every task as it is at the end of the run.
Source: `checkpoint.py`, `save_checkpoint`, `restore_checkpoint`
Kind: P
Fidelity: exact -/
theorem restored_run_equals (hsha : CollisionFree sha256) (autoflush : Bool)
    (checkpoints : Dict String CheckpointRow) (before after : List RepositoryEvent)
    (outboxHeadHash checkpointId : String) (generation : ℕ)
    (recoveryId recoveryId' recoveryLeaseToken : String)
    (hcut : Cuttable (before.foldl (Database.step sha256) {}))
    (h : Along (Database.step sha256) (Replayable (before.foldl (Database.step sha256) {}))
      (before.foldl (Database.step sha256) {}) after) :
    ∀ db ∈ reached (Database.step sha256) (before.foldl (Database.step sha256) {}) after,
      ∀ restored replayed rebuilt,
        restoreCheckpoint sha256 autoflush
          { saveCheckpoint sha256 ⟨before.foldl (Database.step sha256) {}, checkpoints⟩ outboxHeadHash
              checkpointId generation recoveryId recoveryLeaseToken with db := db }
          checkpointId recoveryId' recoveryLeaseToken none = .ok (restored, replayed, rebuilt) →
        ∀ taskId, restored.db.tasks.get? taskId = db.tasks.get? taskId := by
  have hrecording := recording_run_step sha256 before
  generalize before.foldl (Database.step sha256) {} = cut at hcut h hrecording
  intro db hdb restored replayed rebuilt hrestore taskId
  obtain ⟨since, hsince⟩ : ∃ since, Since sha256 cut db since :=
    Along.invariant (I := fun db => ∃ since, Since sha256 cut db since)
      (fun _ _ hI hevent => since_step hI.choose_spec hevent)
      ⟨[], ⟨(List.append_nil _).symm, fun _ _ _ h => absurd h List.not_mem_nil, fun _ => rfl, hrecording⟩⟩
      h db hdb
  unfold restoreCheckpoint at hrestore
  obtain ⟨checkpoint, hacquire, hrestore⟩ := bind_ok hrestore
  obtain ⟨_, _, hrestore⟩ := bind_ok hrestore
  obtain ⟨_, _, hrestore⟩ := bind_ok hrestore
  obtain ⟨loaded, hload, hrestore⟩ := bind_ok hrestore
  obtain ⟨⟨tasks, count⟩, hreplay, hrestore⟩ := bind_ok hrestore
  obtain ⟨⟨outbox, count'⟩, _, hrestore⟩ := bind_ok hrestore
  cases hrestore
  have hsnapshot := acquire_snapshot (Dict.get?_set_self _ _ _) hacquire
  rw [hsnapshot] at hload hreplay
  refine hsince.restored hsha hcut hrecording (fun other => ?_) hreplay taskId
  rw [loadSnapshot_ok hload]
  exact loaded_get? hcut.kept other

/-- The tables with one queued task. Kind: D -/
def queuedTables : Database := [RepositoryEvent.call (drawsAt 0) (.create queuedTask)].foldl (Database.step digest) {}

/-- A queued task is cancelled. Kind: D -/
def cancelling : List RepositoryEvent :=
  [.call (drawsAt 1) (.transition "t" 1 [.queued] .cancelled ⟨[], List.nodup_nil⟩)]

/-- The restoration, after some more calls, of a checkpoint of the tables with one queued task. Kind: D -/
def restoredAfter (after : List RepositoryEvent) : Except RecoveryError (RecoveryStore × ℕ × ℕ) :=
  restoreCheckpoint digest false
    { saveCheckpoint digest ⟨queuedTables, Dict.empty⟩ "GENESIS" "c" 1 "r" "k" with
      db := after.foldl (Database.step digest) queuedTables }
    "c" "r" "k" none

theorem queuedTables_get? {taskId : String} {row : TaskRow} (h : queuedTables.tasks.get? taskId = some row) :
    row = TaskRow.ofTask queuedTask := by
  have hentries : queuedTables.tasks.entries = [("t", TaskRow.ofTask queuedTask)] := by decide
  have hmem := Dict.mem_entries.mpr h
  rw [hentries] at hmem
  exact (Prod.mk.inj (List.mem_singleton.mp hmem)).2

theorem cuttable_queuedTables : Cuttable queuedTables where
  kept taskId row hrow := by
    rw [queuedTables_get? hrow]
    exact ⟨rfl, rfl, rfl, rfl⟩
  oneHead head hhead row hrow _ := by
    obtain ⟨only, honly⟩ := List.length_eq_one_iff.mp
      (show queuedTables.audit.length = 1 by decide)
    have hmem := (sortBy_perm AuditRow.place queuedTables.audit).mem_iff.mp (List.mem_of_getLast? hhead)
    rw [honly] at hrow hmem
    rw [List.mem_singleton.mp hrow, List.mem_singleton.mp hmem]

theorem exists_ok {ε α : Type} {x : Except ε α} (h : x.toOption.isSome = true) : ∃ a, x = .ok a := by
  rcases x with e | a
  · cases h
  · exact ⟨a, rfl⟩

/-- The rows of a run verify when all of them are in order. Kind: L -/
theorem verifyAuditChain_of_ordered (hsha : CollisionFree sha256) {audit : List AuditRow}
    (h : ∀ taskId, Recording sha256 taskId audit) (hordered : audit.Pairwise fun a b => a.place < b.place) :
    verifyAuditChain sha256 audit = .ok () := by
  have hverified : ∀ taskId, TaskAuditLedger.verifyChainIntegrity sha256 audit taskId = .ok () := fun taskId =>
    ((h taskId).verified_iff_inOrder hsha).mpr (hordered.filter _)
  have hall : ∀ taskIds : List String, ∃ checked, taskIds.mapM (fun taskId =>
      TaskAuditLedger.verifyChainIntegrity sha256 audit taskId) = .ok checked := by
    intro taskIds
    induction taskIds with
    | nil => exact ⟨[], rfl⟩
    | cons taskId rest ih =>
      obtain ⟨checked, hrest⟩ := ih
      exact ⟨() :: checked, by rw [List.mapM_cons, hverified, hrest]; rfl⟩
  obtain ⟨checked, hchecked⟩ := hall (audit.map AuditRow.taskId).dedup
  unfold verifyAuditChain
  rw [hchecked]

/-- A restoration of tables with rows that verify, when no task is added twice. Kind: L -/
theorem restored_of_nodup {after : List RepositoryEvent} {db : Database} (hdb : after.foldl (Database.step digest) queuedTables = db)
    (hverify : verifyAuditChain digest db.audit = .ok ()) {entries : List AuditRow} {start : Dict String TaskRow}
    (hentries : afterBoundary (((lastAudit queuedTables.audit).map AuditRow.eventHash).getD "GENESIS") (chronological db.audit) =
      entries)
    (hstart : Dict.ofList ((tasksData queuedTables.tasks).map fun t => (t.taskId, t.toRow)) = start)
    (hnodup : ((entries.foldl (replayStep false) { tasks := start }).added.map Prod.fst).Nodup)
    (hrebuild : (rebuildOutboxFromAudit false db.audit db.outbox).toOption.isSome = true) :
    ∃ restored replayed rebuilt, restoredAfter after = .ok (restored, replayed, rebuilt) ∧
      restored.db.tasks = (entries.foldl (replayStep false) { tasks := start }).added.foldl
        (fun tasks new => tasks.set new.1 new.2) (entries.foldl (replayStep false) { tasks := start }).tasks := by
  obtain ⟨⟨outbox, rebuilt⟩, hrebuild⟩ := exists_ok hrebuild
  have hreplay : replayEvents digest false db.audit start
      (((lastAudit queuedTables.audit).map AuditRow.eventHash).getD "GENESIS") none =
      .ok ((entries.foldl (replayStep false) { tasks := start }).added.foldl (fun tasks new => tasks.set new.1 new.2)
        (entries.foldl (replayStep false) { tasks := start }).tasks, entries.length) := by
    unfold replayEvents upTo
    rw [hverify, hentries]
    exact if_pos hnodup
  unfold restoredAfter
  rw [hdb, restoreCheckpoint_only, hverify, hstart, hreplay, hrebuild]
  exact ⟨_, _, _, rfl, rfl⟩

/-- The rows of a run from the tables with one queued task verify when they are in order. Kind: L -/
theorem verify_queuedTables (after : List RepositoryEvent)
    (hordered : (after.foldl (Database.step digest) queuedTables).audit.Pairwise fun a b => a.place < b.place) :
    verifyAuditChain digest (after.foldl (Database.step digest) queuedTables).audit = .ok () := by
  refine verifyAuditChain_of_ordered digest_collisionFree (fun taskId => ?_) hordered
  rw [queuedTables, ← List.foldl_append]
  exact recording_run_step digest _ taskId

theorem restoredAfter_cancelling_ok : (restoredAfter cancelling).toOption.isSome = true := by
  obtain ⟨restored, replayed, rebuilt, h, -⟩ := restored_of_nodup rfl (verify_queuedTables cancelling (by decide)) rfl rfl
    (by decide) (by decide)
  rw [h]
  rfl

theorem later_cancelling :
    ∀ old ∈ queuedTables.audit, old.place < toLex ((drawsAt 1).auditAt, (drawsAt 1).auditId) := by
  decide

/-- The cancellation of a queued task is replayed. -/
theorem restored_run_equals_cancelling : ∃ restored replayed rebuilt,
    restoredAfter cancelling = .ok (restored, replayed, rebuilt) ∧
      ∀ taskId, restored.db.tasks.get? taskId =
        (cancelling.foldl (Database.step digest) queuedTables).tasks.get? taskId := by
  obtain ⟨⟨restored, replayed, rebuilt⟩, hrestore⟩ := exists_ok restoredAfter_cancelling_ok
  refine ⟨restored, replayed, rebuilt, hrestore, ?_⟩
  refine restored_run_equals digest_collisionFree false Dict.empty _ cancelling "GENESIS" "c" 1 "r" "r" "k"
    cuttable_queuedTables ⟨⟨fun taskId before row entry staged hmoves => ⟨?_, ?_⟩, ?_⟩, trivial⟩ _
    (foldl_mem_reached _ _) _ _ _ hrestore
  · rintro row rfl
    rw [queuedTables_get? hmoves.found]
    exact ⟨by decide, rfl, rfl, rfl, rfl⟩
  · exact later_cancelling
  · intro taskId args row row' hop
    cases hop

/-- An assignment after the checkpoint counts an attempt that the restoration loses. -/
theorem assigned_task_loses_attempt :
    ((restoredAfter [.call (drawsAt 1) (.assign "t" "w")]).toOption.map fun restored =>
        (restored.1.db.tasks.get? "t").map TaskRow.attempts) = some (some 0) ∧
      (([RepositoryEvent.call (drawsAt 1) (.assign "t" "w")].foldl (Database.step digest)
        queuedTables).tasks.get? "t").map TaskRow.attempts = some 1 := by
  have hverify := verify_queuedTables [.call (drawsAt 1) (.assign "t" "w")] (by decide)
  obtain ⟨restored, replayed, rebuilt, h, htasks⟩ := restored_of_nodup rfl hverify rfl rfl (by decide) (by decide)
  refine ⟨?_, by decide⟩
  rw [h, Except.toOption, Option.map_some, htasks]
  decide

end KarsaSec.Recovery
