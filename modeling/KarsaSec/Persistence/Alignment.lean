import KarsaSec.Found.Runs
import KarsaSec.Persistence.Changes

/-!
# Audit rows and events in step

Each move of a task writes an audit row and stages an event under a deduplication key. The event is staged
only when its key is new.

* `versionKey_inj`: the key of a version says which task, version and kind of move it is of.
* `Advances`: a call gives a task no version that is not higher than its last one.
* `Aligned`: the rows and the events are in step, and the versions of a task increase. `aligned_step`: calls
  that advance keep it.
-/

namespace KarsaSec.Persistence

open KarsaSec.Found KarsaSec.Workers KarsaSec.Events

/-! ## Keys -/

theorem underscore_not_mem_toString_int (v : ℤ) : '_' ∉ (toString v).toList := by
  rw [toList_toString_int]
  split
  · exact fun h => absurd (isDigit_of_mem_toString h) (by decide)
  · simp

theorem toList_versionKey (kind taskId : String) (v : ℤ) :
    (versionKey kind taskId v).toList =
      "task_".toList ++ (kind.toList ++ '_' :: (taskId.toList ++ '_' :: (toString v).toList)) := by
  have hbar : "_".toList = ['_'] := by decide
  show ("task_" ++ kind ++ "_" ++ taskId ++ "_" ++ toString v).toList = _
  simp only [String.toList_append, hbar, List.append_assoc, List.cons_append, List.nil_append]

theorem toList_createdKey (taskId : String) :
    (createdKey taskId).toList = "task_".toList ++ ("created".toList ++ '_' :: taskId.toList) := by
  have hprefix : "task_created_".toList = "task_".toList ++ ("created".toList ++ ['_']) := by decide
  show ("task_created_" ++ taskId).toList = _
  rw [String.toList_append, hprefix]
  simp only [List.append_assoc, List.singleton_append]

/-- The key of a version says what it is of. Kind: L -/
theorem versionKey_inj {kind kind' taskId taskId' : String} {v v' : ℤ} (hkind : '_' ∉ kind.toList)
    (hkind' : '_' ∉ kind'.toList) (h : versionKey kind taskId v = versionKey kind' taskId' v') :
    kind = kind' ∧ taskId = taskId' ∧ v = v' := by
  have hchars := congrArg String.toList h
  rw [toList_versionKey, toList_versionKey] at hchars
  obtain ⟨hkinds, hrest⟩ := append_sep_inj hkind hkind' (List.append_cancel_left hchars)
  obtain ⟨hids, hversions⟩ := append_last_sep_inj (underscore_not_mem_toString_int v)
    (underscore_not_mem_toString_int v') hrest
  exact ⟨String.toList_injective hkinds, String.toList_injective hids,
    toString_int_inj (String.toList_injective hversions)⟩

theorem createdKey_inj {taskId taskId' : String} (h : createdKey taskId = createdKey taskId') :
    taskId = taskId' := by
  have hchars := congrArg String.toList h
  rw [toList_createdKey, toList_createdKey] at hchars
  exact String.toList_injective
    (List.cons.inj (List.append_cancel_left (List.append_cancel_left hchars))).2

/-- The kinds of moves that have a key for each version. Kind: D -/
def kinds : List String := ["transition", "assigned", "completed", "failure"]

theorem underscore_not_mem_kind {kind : String} (h : kind ∈ kinds) : '_' ∉ kind.toList := by
  revert kind
  decide

theorem createdKey_ne_versionKey {kind taskId taskId' : String} {v : ℤ} (h : kind ∈ kinds) :
    createdKey taskId ≠ versionKey kind taskId' v := by
  intro heq
  have hchars := congrArg String.toList heq
  rw [toList_createdKey, toList_versionKey] at hchars
  have hkinds := (append_sep_inj (by decide) (underscore_not_mem_kind h)
    (List.append_cancel_left hchars)).1
  rw [← String.toList_injective hkinds] at h
  exact absurd h (by decide)

/-- The key of a task's creation, or of one of its versions. Kind: D -/
def FittingKey (taskId : String) (v : ℤ) (key : String) : Prop :=
  key = createdKey taskId ∨ ∃ kind ∈ kinds, key = versionKey kind taskId v

/-! ## Moves that advance -/

/-- Kind: D -/
def readLeaseVersion : TaskArg → Option ℤ
  | .leaseVersion v => some v
  | _ => none

theorem sets_leaseVersion : Sets TaskRow.leaseVersion readLeaseVersion where
  set row arg row' h := by
    unfold TaskRow.setArg at h
    split at h <;> cases h <;> rfl
  once a b ha hb := by
    cases a <;> cases ha
    cases b <;> cases hb
    rfl

/-- A transition that is accepted gets no version that is not higher, and an update without a state sets
none that is lower. Kind: D -/
def Advances (db : Database) : RepositoryEvent → Prop
  | .call _ (.update taskId args) => ∀ row, db.tasks.get? taskId = some row →
      match args.state? with
      | some _ => ∀ given ∈ args.popState.leaseVersion?, row.leaseVersion < given
      | none => ∀ given ∈ args.find? readLeaseVersion, row.leaseVersion ≤ given
  | .call _ (.transition taskId expectedLeaseVersion expectedStates newState args) =>
    ∀ row, db.tasks.get? taskId = some row → row.leaseVersion = expectedLeaseVersion →
      row.state ∈ expectedStates.map TaskState.value → resurrects expectedStates newState = false →
        ∀ given ∈ args.leaseVersion?, row.leaseVersion < given
  | _ => True

variable {sha256 : String → String} {db db' : Database} {draws : Draws} {op : TaskOp} {taskId : String}
  {row : TaskRow} {entry : Transition} {staged : Staged}

theorem move_advances {before : TaskRow} (hmoves : Moves db op taskId (some before) row entry staged)
    (h : Advances db (.call draws op)) : before.leaseVersion < row.leaseVersion := by
  cases hmoves with
  | transition hop hfound hguard hversion hstate =>
    rename_i expectedLeaseVersion expectedStates newState args
    have hgiven : ∀ given ∈ args.leaseVersion?, before.leaseVersion < given := by
      rcases hop with rfl | ⟨all, current, rfl, hnew, rfl, _⟩
      · exact h before hfound hversion hstate hguard
      · have hall := h before hfound
        rwa [hnew] at hall
    show before.leaseVersion < nextLeaseVersion expectedLeaseVersion args
    unfold nextLeaseVersion
    rcases hread : args.leaseVersion? with _ | given
    · simp_all
    · exact hgiven given hread
  | assign => exact Int.lt_succ before.leaseVersion
  | complete => exact Int.lt_succ before.leaseVersion
  | fail => exact Int.lt_succ before.leaseVersion
  | retry => exact Int.lt_succ before.leaseVersion

/-- The key that a move stages. Kind: L -/
theorem move_key {before : Option TaskRow} (hmoves : Moves db op taskId before row entry staged) :
    (before = none ∧ staged.deduplicationKey = createdKey taskId) ∨
      ∃ old kind, before = some old ∧ kind ∈ kinds ∧
        staged.deduplicationKey = versionKey kind taskId row.leaseVersion := by
  cases hmoves with
  | create => exact Or.inl ⟨rfl, rfl⟩
  | transition => exact Or.inr ⟨_, "transition", rfl, by decide, rfl⟩
  | assign => exact Or.inr ⟨_, "assigned", rfl, by decide, rfl⟩
  | complete => exact Or.inr ⟨_, "completed", rfl, by decide, rfl⟩
  | fail => exact Or.inr ⟨_, "failure", rfl, by decide, rfl⟩
  | retry => exact Or.inr ⟨_, "transition", rfl, by decide, rfl⟩

/-! ## Alignment -/

/-- The audit rows of a task in the order in which they were recorded. Kind: D -/
def entriesOf (db : Database) (taskId : String) : List AuditRow :=
  db.audit.filter fun entry => entry.taskId = taskId

/-- Audit rows and events are in step: each row has its event, under a key of its task and version; and the
versions of a task increase up to the version of its row. Kind: D -/
structure Aligned (db : Database) : Prop where
  pairs : db.outbox.map (fun event => (event.aggregateId, event.aggregateSequence)) =
    db.audit.map fun entry => (entry.taskId, entry.leaseVersion)
  keyed : ∀ event ∈ db.outbox,
    FittingKey event.aggregateId event.aggregateSequence event.deduplicationKey
  latest : ∀ entry ∈ db.audit, ∃ row, db.tasks.get? entry.taskId = some row ∧
    entry.leaseVersion ≤ row.leaseVersion
  increasing : ∀ taskId, ((entriesOf db taskId).map AuditRow.leaseVersion).Pairwise (· < ·)

/-- A task and a version are reported as often as the version in the rows of the task. Kind: L -/
theorem count_pair (db : Database) (taskId : String) (v : ℤ) :
    (db.audit.map fun entry => (entry.taskId, entry.leaseVersion)).count (taskId, v) =
      ((entriesOf db taskId).map AuditRow.leaseVersion).count v := by
  unfold entriesOf List.count
  rw [List.countP_map, List.countP_map, List.countP_filter]
  refine List.countP_congr fun other _ => ?_
  simp [Prod.ext_iff, and_comm]

theorem Aligned.nodup_versions (h : Aligned db) (taskId : String) :
    ((entriesOf db taskId).map AuditRow.leaseVersion).Nodup :=
  (h.increasing taskId).imp fun hlt => ne_of_lt hlt

theorem aligned_init : Aligned {} :=
  ⟨rfl, by simp, by simp, fun _ => List.Pairwise.nil⟩

/-- An event is of a task that is there, and no later than its row. Kind: L -/
theorem Aligned.event_latest (h : Aligned db) {event : OutboxRow} (hevent : event ∈ db.outbox) :
    ∃ row, db.tasks.get? event.aggregateId = some row ∧ event.aggregateSequence ≤ row.leaseVersion := by
  have hpair : (event.aggregateId, event.aggregateSequence) ∈
      db.audit.map fun entry => (entry.taskId, entry.leaseVersion) := by
    rw [← h.pairs]
    exact List.mem_map_of_mem hevent
  obtain ⟨entry, hentry, heq⟩ := List.mem_map.mp hpair
  obtain ⟨hid, hversion⟩ := Prod.mk.inj heq
  rw [← hid, ← hversion]
  exact h.latest entry hentry

/-- The key of a move that advances is new. Kind: L -/
theorem Aligned.key_fresh (h : Aligned db) {before : Option TaskRow}
    (hmoves : Moves db op taskId before row entry staged)
    (hadvances : ∀ old, before = some old → old.leaseVersion < row.leaseVersion) :
    TransactionalOutbox.hasKey db.outbox staged.deduplicationKey = false := by
  unfold TransactionalOutbox.hasKey
  rw [List.any_eq_false]
  intro event hevent hkey
  have hkey : event.deduplicationKey = staged.deduplicationKey := by simpa using hkey
  obtain ⟨stored, hstored, hle⟩ := h.event_latest hevent
  rcases move_key hmoves with ⟨hnone, hcreated⟩ | ⟨old, kind, hsome, hkind, hversion⟩
  · rcases h.keyed event hevent with hfits | ⟨kind, hkind, hfits⟩
    · have hid := createdKey_inj (hfits.symm.trans (hkey.trans hcreated))
      rw [hid, hmoves.found, hnone] at hstored
      cases hstored
    · grind [createdKey_ne_versionKey]
  · rcases h.keyed event hevent with hfits | ⟨kind', hkind', hfits⟩
    · simp_all [createdKey_ne_versionKey]
    · obtain ⟨_, hid, hv⟩ := versionKey_inj (underscore_not_mem_kind hkind') (underscore_not_mem_kind hkind)
        (hfits.symm.trans (hkey.trans hversion))
      have hlt := hadvances old hsome
      rw [hid, hmoves.found, hsome] at hstored
      cases hstored
      omega

/-- A move that advances stages its event. Kind: L -/
theorem Aligned.outbox_append (h : Aligned db) {before : Option TaskRow}
    (hmoves : Moves db op taskId before row entry staged)
    (hrecorded : Recorded sha256 draws db db' taskId row entry staged)
    (hadvances : ∀ old, before = some old → old.leaseVersion < row.leaseVersion) :
    db'.outbox = db.outbox ++ [TransactionalOutbox.newEvent draws staged] := by
  have hstaged := hrecorded.outbox
  unfold TransactionalOutbox.stageEvent at hstaged
  rw [h.key_fresh hmoves hadvances, if_neg Bool.false_ne_true] at hstaged
  split at hstaged
  · cases hstaged
  · exact (Except.ok.inj hstaged).symm

theorem move_fittingKey {before : Option TaskRow} (hmoves : Moves db op taskId before row entry staged) :
    FittingKey staged.aggregateId staged.leaseVersion staged.deduplicationKey := by
  rw [hmoves.staged_aggregateId, hmoves.staged_leaseVersion]
  rcases move_key hmoves with ⟨_, hcreated⟩ | ⟨_, kind, _, hkind, hversion⟩
  · exact Or.inl hcreated
  · exact Or.inr ⟨kind, hkind, hversion⟩

theorem entriesOf_append (hrecorded : Recorded sha256 draws db db' taskId row entry staged)
    (hentry : entry.taskId = taskId) (other : String) :
    entriesOf db' other = entriesOf db other ++
      if taskId = other then [TaskAuditLedger.newRow sha256 draws db.audit entry] else [] := by
  have hid : (TaskAuditLedger.newRow sha256 draws db.audit entry).taskId = taskId := hentry
  unfold entriesOf
  rw [hrecorded.audit, List.filter_append]
  by_cases hother : taskId = other
  · simp_all
  · simp_all

theorem aligned_move (h : Aligned db) {before : Option TaskRow}
    (hmoves : Moves db op taskId before row entry staged)
    (hrecorded : Recorded sha256 draws db db' taskId row entry staged)
    (hadvances : ∀ old, before = some old → old.leaseVersion < row.leaseVersion) : Aligned db' := by
  have houtbox := h.outbox_append hmoves hrecorded hadvances
  refine ⟨?_, ?_, ?_, fun other => ?_⟩
  · rw [houtbox, hrecorded.audit, List.map_append, List.map_append, h.pairs]
    have hpair : (staged.aggregateId, staged.leaseVersion) = (entry.taskId, entry.leaseVersion) := by
      rw [hmoves.staged_aggregateId, hmoves.staged_leaseVersion, hmoves.entry_taskId,
        hmoves.entry_leaseVersion]
    exact congrArg (db.audit.map _ ++ [·]) hpair
  · rw [houtbox]
    intro event hevent
    rcases List.mem_append.mp hevent with hold | hnew
    · exact h.keyed event hold
    · rw [List.mem_singleton.mp hnew]
      exact move_fittingKey hmoves
  · rw [hrecorded.audit, hrecorded.tasks]
    intro old hold
    rcases List.mem_append.mp hold with hold | hnew
    · obtain ⟨stored, hstored, hle⟩ := h.latest old hold
      by_cases hkey : old.taskId = taskId
      · refine ⟨row, by rw [hkey]; exact Dict.get?_set_self _ _ _, hle.trans ?_⟩
        rw [hkey, hmoves.found] at hstored
        exact (hadvances stored hstored).le
      · simp_all [Dict.get?_set_ne]
    · rw [List.mem_singleton.mp hnew]
      refine ⟨row, ?_, hmoves.entry_leaseVersion.le⟩
      show (db.tasks.set taskId row).get? entry.taskId = some row
      rw [hmoves.entry_taskId]
      exact Dict.get?_set_self _ _ _
  · rw [entriesOf_append hrecorded hmoves.entry_taskId other]
    by_cases hother : taskId = other
    · rw [if_pos hother, List.map_append, List.pairwise_append]
      refine ⟨h.increasing other, List.pairwise_singleton _ _, fun v hv w hw => ?_⟩
      rw [List.mem_singleton.mp hw]
      obtain ⟨old, hold, rfl⟩ := List.mem_map.mp hv
      obtain ⟨hmem, hid⟩ := List.mem_filter.mp hold
      obtain ⟨stored, hstored, hle⟩ := h.latest old hmem
      rw [show old.taskId = taskId from (by simpa using hid : old.taskId = other).trans hother.symm,
        hmoves.found] at hstored
      have hlt := hadvances stored hstored
      show old.leaseVersion < entry.leaseVersion
      rw [hmoves.entry_leaseVersion]
      omega
    · rw [if_neg hother, List.append_nil]
      exact h.increasing other

theorem advances_before {before : Option TaskRow} (hmoves : Moves db op taskId before row entry staged)
    (h : Advances db (.call draws op)) :
    ∀ old, before = some old → old.leaseVersion < row.leaseVersion := by
  rintro old rfl
  exact move_advances hmoves h

/-- Calls that advance keep rows and events in step. Kind: L -/
theorem aligned_step (h : Aligned db) {event : RepositoryEvent} (hadvances : Advances db event) :
    Aligned (db.step sha256 event) := by
  rcases Database.step_cases sha256 db event with heq | ⟨draws, op, moved, before, row', entry, staged, rfl,
    hmoves, hrecorded⟩ | ⟨draws, moved, args, old, row', rfl, hnew, hfound, hset, heq⟩ | ⟨_, _, _, heq⟩
  · rw [heq]
    exact h
  · exact aligned_move h hmoves hrecorded (advances_before hmoves hadvances)
  · rw [heq]
    refine ⟨h.pairs, h.keyed, fun entry hentry => ?_, h.increasing⟩
    obtain ⟨stored, hstored, hle⟩ := h.latest entry hentry
    by_cases hkey : entry.taskId = moved
    · refine ⟨row', by rw [hkey]; exact Dict.get?_set_self _ _ _, hle.trans ?_⟩
      rw [hkey, hfound] at hstored
      cases hstored
      have hlater := hadvances old hfound
      rw [hnew] at hlater
      rw [sets_leaseVersion.updated hset]
      rcases hread : args.find? readLeaseVersion with _ | given
      · exact le_rfl
      · exact hlater given hread
    · exact ⟨stored, (Dict.get?_set_ne _ hkey _).trans hstored, hle⟩
  · rw [heq]
    exact ⟨h.pairs, h.keyed, h.latest, h.increasing⟩

end KarsaSec.Persistence
