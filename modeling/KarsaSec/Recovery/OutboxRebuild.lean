import KarsaSec.Persistence.Alignment
import KarsaSec.Persistence.Lifetimes
import KarsaSec.Recovery.Replay

/-!
# Rebuilding lost events

`rebuild_outbox_from_audit` is to add nothing to an intact outbox, and to bring back exactly what was lost.

* The rebuild reads the deduplication key of a row off the states that the row reports. `KeepsKey` is the
  condition on a call that the key it stages is this one; `pending_task_gains_event` is a call that does not
  meet it, the creation of a task in its default state.
* `InKey` says that rows and events are in step under these keys.
* `rebuilt_run_restores`: in a run of calls that keep their keys and advance, the rebuild is the inverse of
  any loss.
-/

namespace KarsaSec.Recovery

open KarsaSec.Found KarsaSec.Workers KarsaSec.Events KarsaSec.Persistence
open AuditReplayEngine

/-! ## Calls that stage the key of their row -/

/-- The moves whose key has a kind of its own in the rebuild. Kind: D -/
def specialMoves : List (String × String) :=
  [("NONE", "QUEUED"), ("PENDING", "QUEUED"), ("QUEUED", "RUNNING"), ("RUNNING", "COMPLETED")]

/-- A transition whose row is rebuilt under the key that it has staged. Kind: D -/
def PlainMove (previousState newState : String) : Prop :=
  (previousState, newState) ∉ specialMoves ∧ newState ∉ ["FAILED", "FAILED_RETRYABLE"]

/-- A task is created QUEUED and assigned when it is QUEUED, and a transition that is accepted reports a
plain move. Kind: D -/
def KeepsKey (db : Database) : RepositoryEvent → Prop
  | .call _ (.create task) => task.state = .queued
  | .call _ (.assign taskId _) => ∀ row, db.tasks.get? taskId = some row →
      row.attempts < row.maxAttempts → row.state ≠ TaskState.pending.value
  | .call _ (.update taskId args) => ∀ row, db.tasks.get? taskId = some row →
      ∀ newState ∈ args.state?, ∀ current : TaskState, row.state = current.value →
        resurrects [current] newState = false → PlainMove row.state newState.value
  | .call _ (.transition taskId expectedLeaseVersion expectedStates newState _) =>
    ∀ row, db.tasks.get? taskId = some row → row.leaseVersion = expectedLeaseVersion →
      row.state ∈ expectedStates.map TaskState.value → resurrects expectedStates newState = false →
        PlainMove ((expectedStates.map TaskState.value).headD "UNKNOWN") newState.value
  | _ => True

variable {sha256 : String → String} {db db' : Database} {draws : Draws} {op : TaskOp} {taskId : String}
  {row : TaskRow} {entry : Transition} {staged : Staged}

theorem rebuiltKey_plain {previousState newState : String} (h : PlainMove previousState newState)
    (taskId : String) (v : ℤ) :
    rebuiltKey taskId previousState newState v = versionKey "transition" taskId v := by
  obtain ⟨hspecial, hfailed⟩ := h
  unfold specialMoves at hspecial
  simp only [List.mem_cons, List.not_mem_nil, or_false, not_or] at hspecial
  unfold rebuiltKey
  rw [if_neg (by simp only [List.mem_cons, List.not_mem_nil, or_false, not_or]; exact ⟨hspecial.1, hspecial.2.1⟩),
    if_neg hspecial.2.2.1, if_neg hspecial.2.2.2, if_neg hfailed]

/-- A call that keeps its key stages the key under which its row is rebuilt. Kind: L -/
theorem staged_key {before : Option TaskRow} (hmoves : Moves db op taskId before row entry staged)
    (h : KeepsKey db (.call draws op)) :
    staged.deduplicationKey = rebuiltKey taskId entry.previousState entry.newState entry.leaseVersion := by
  cases hmoves with
  | create task =>
    have hqueued : task.state.value = "QUEUED" := by
      rw [show task.state = .queued from h]
      rfl
    show createdKey task.taskId = rebuiltKey task.taskId "NONE" task.state.value task.leaseVersion
    rw [hqueued]
    rfl
  | transition hop hfound hguard hversion hmem =>
    rename_i row expectedLeaseVersion expectedStates newState args
    have hplain : PlainMove ((expectedStates.map TaskState.value).headD "UNKNOWN") newState.value := by
      rcases hop with rfl | ⟨all, current, rfl, hnew, rfl, _, hcurrent, rfl⟩
      · exact h row hfound hversion hmem hguard
      · have hmove := h row hfound newState hnew current hcurrent hguard
        rwa [hcurrent] at hmove
    exact (rebuiltKey_plain hplain taskId _).symm
  | assign workerId hfound hworker hattempts hmem =>
    rename_i row
    have hqueued : row.state = "QUEUED" := by
      rcases List.mem_cons.mp hmem with hqueued | hpending
      · exact hqueued
      · exact absurd (List.mem_singleton.mp hpending) (h row hfound hattempts)
    show versionKey "assigned" taskId (row.leaseVersion + 1) =
      rebuiltKey taskId row.state "RUNNING" (row.leaseVersion + 1)
    rw [hqueued]
    rfl
  | complete receiptId receiptFingerprint status hmay =>
    rename_i row _ _
    show versionKey "completed" taskId (row.leaseVersion + 1) =
      rebuiltKey taskId row.state "COMPLETED" (row.leaseVersion + 1)
    rw [hmay.running]
    rfl
  | fail message hmay hattempts hburied =>
    rename_i row _ _
    show versionKey "failure" taskId (row.leaseVersion + 1) =
      rebuiltKey taskId row.state "FAILED" (row.leaseVersion + 1)
    rw [hmay.running]
    rfl
  | retry message hmay hattempts =>
    rename_i row _ _
    show versionKey "transition" taskId (row.leaseVersion + 1) =
      rebuiltKey taskId row.state "QUEUED" (row.leaseVersion + 1)
    rw [hmay.running]
    rfl

/-! ## Rows and events under one key -/

/-- Rows and events are in step under the keys of the rebuild, keys and identifiers are unique, and the
identifiers are drawn ones. Kind: D -/
structure InKey (db : Database) : Prop where
  aligned : Aligned db
  keys : db.outbox.map (fun event => (event.deduplicationKey, event.aggregateSequence)) =
    db.audit.map fun entry => (keyOf entry, entry.leaseVersion)
  nodup_keys : (db.outbox.map OutboxRow.deduplicationKey).Nodup
  nodup_ids : (db.outbox.map OutboxRow.eventId).Nodup
  drawn : ∀ event ∈ db.outbox, ∃ hex : String, event.eventId = "evt_" ++ hex ∧ '_' ∉ hex.toList

theorem inKey_init : InKey {} := ⟨aligned_init, rfl, List.nodup_nil, List.nodup_nil, by simp⟩

theorem stageEvent_ids (hstaged : TransactionalOutbox.stageEvent draws db.outbox staged = .ok db'.outbox)
    (hfresh : TransactionalOutbox.hasKey db.outbox staged.deduplicationKey = false) :
    "evt_" ++ draws.eventHex ∉ db.outbox.map OutboxRow.eventId := by
  unfold TransactionalOutbox.stageEvent at hstaged
  rw [hfresh, if_neg Bool.false_ne_true] at hstaged
  split at hstaged
  · cases hstaged
  · rename_i hids
    exact hids

theorem hasKey_iff {outbox : List OutboxRow} {key : String} :
    TransactionalOutbox.hasKey outbox key = true ↔ key ∈ outbox.map OutboxRow.deduplicationKey := by
  unfold TransactionalOutbox.hasKey
  simp [List.any_eq_true]

theorem inKey_move (h : InKey db) {before : Option TaskRow}
    (hmoves : Moves db op taskId before row entry staged)
    (hrecorded : Recorded sha256 draws db db' taskId row entry staged)
    (hadvances : Advances db (.call draws op)) (hkeeps : KeepsKey db (.call draws op)) : InKey db' := by
  have hbefore := advances_before hmoves hadvances
  have hfresh := h.aligned.key_fresh hmoves hbefore
  have houtbox := h.aligned.outbox_append hmoves hrecorded hbefore
  refine ⟨aligned_move h.aligned hmoves hrecorded hbefore, ?_, ?_, ?_, ?_⟩
  · rw [houtbox, hrecorded.audit, List.map_append, List.map_append, h.keys]
    have hpair : (staged.deduplicationKey, staged.leaseVersion) =
        (rebuiltKey entry.taskId entry.previousState entry.newState entry.leaseVersion,
          entry.leaseVersion) := by
      rw [staged_key hmoves hkeeps, hmoves.staged_leaseVersion, hmoves.entry_taskId,
        hmoves.entry_leaseVersion]
    exact congrArg (db.audit.map _ ++ [·]) hpair
  · rw [houtbox, List.map_append, List.nodup_append]
    refine ⟨h.nodup_keys, List.nodup_singleton _, fun key hkey key' hkey' heq => ?_⟩
    have hmem : staged.deduplicationKey ∈ db.outbox.map OutboxRow.deduplicationKey := by
      rw [← show key' = staged.deduplicationKey from List.mem_singleton.mp hkey', ← heq]
      exact hkey
    rw [hasKey_iff.mpr hmem] at hfresh
    exact absurd hfresh Bool.noConfusion
  · rw [houtbox, List.map_append, List.nodup_append]
    refine ⟨h.nodup_ids, List.nodup_singleton _, fun eventId hid eventId' hid' heq => ?_⟩
    refine stageEvent_ids hrecorded.outbox hfresh ?_
    rw [← show eventId' = "evt_" ++ draws.eventHex from List.mem_singleton.mp hid', ← heq]
    exact hid
  · rw [houtbox]
    intro event hevent
    rcases List.mem_append.mp hevent with hold | hnew
    · exact h.drawn event hold
    · rw [List.mem_singleton.mp hnew]
      exact ⟨draws.eventHex, rfl, draws.plain⟩

theorem inKey_step (h : InKey db) {event : RepositoryEvent} (hadvances : Advances db event)
    (hkeeps : KeepsKey db event) : InKey (db.step sha256 event) := by
  have haligned : Aligned (db.step sha256 event) := aligned_step h.aligned hadvances
  rcases Database.step_cases sha256 db event with heq | ⟨draws, op, moved, before, row', entry, staged, rfl,
    hmoves, hrecorded⟩ | ⟨draws, moved, args, old, row', rfl, hnew, hfound, hset, heq⟩ | ⟨_, _, _, heq⟩
  · rw [heq]
    exact h
  · exact inKey_move h hmoves hrecorded hadvances hkeeps
  · rw [heq] at haligned ⊢
    exact ⟨haligned, h.keys, h.nodup_keys, h.nodup_ids, h.drawn⟩
  · rw [heq] at haligned ⊢
    exact ⟨haligned, h.keys, h.nodup_keys, h.nodup_ids, h.drawn⟩

/-! ## The rebuild -/

/-- The rows whose event is missing. Kind: D -/
def missing (outbox : List OutboxRow) (entries : List AuditRow) : List AuditRow :=
  entries.filter fun entry => !TransactionalOutbox.hasKey outbox (keyOf entry)

theorem hasKey_append (outbox added : List OutboxRow) (key : String) :
    TransactionalOutbox.hasKey (outbox ++ added) key =
      (TransactionalOutbox.hasKey outbox key || TransactionalOutbox.hasKey added key) := by
  unfold TransactionalOutbox.hasKey
  exact List.any_append

/-- With different keys the rebuild adds the missing events, whether or not it sees what it adds. Kind: L -/
theorem foldl_rebuildStep (autoflush : Bool) (outbox : List OutboxRow) :
    (entries : List AuditRow) → (added : List OutboxRow) → (entries.map keyOf).Nodup →
      (∀ entry ∈ entries, keyOf entry ∉ added.map OutboxRow.deduplicationKey) →
      entries.foldl (rebuildStep autoflush outbox) added =
        added ++ (missing outbox entries).map rebuiltEvent
  | [], added, _, _ => by simp [missing]
  | entry :: rest, added, hnodup, hnew => by
    rw [List.map_cons, List.nodup_cons] at hnodup
    have hunseen : TransactionalOutbox.hasKey added (keyOf entry) = false := by
      rw [← Bool.not_eq_true, hasKey_iff]
      exact hnew entry List.mem_cons_self
    have hseen : TransactionalOutbox.hasKey (if autoflush then outbox ++ added else outbox) (keyOf entry) =
        TransactionalOutbox.hasKey outbox (keyOf entry) := by
      cases autoflush
      · rfl
      · rw [if_pos rfl, hasKey_append, hunseen, Bool.or_false]
    rw [List.foldl_cons]
    unfold rebuildStep
    dsimp only
    rw [hseen]
    by_cases hkey : TransactionalOutbox.hasKey outbox (keyOf entry) = true
    · rw [if_pos hkey]
      have hrest := foldl_rebuildStep autoflush outbox rest added hnodup.2
        fun other hother => hnew other (List.mem_cons_of_mem entry hother)
      unfold rebuildStep at hrest
      rw [hrest]
      unfold missing
      rw [List.filter_cons_of_neg (by simp [hkey])]
    · rw [if_neg hkey]
      have hrest := foldl_rebuildStep autoflush outbox rest (added ++ [rebuiltEvent entry]) hnodup.2
        fun other hother => by
          rw [List.map_append, List.mem_append, not_or]
          refine ⟨hnew other (List.mem_cons_of_mem entry hother), fun hmem => hnodup.1 ?_⟩
          rw [← show keyOf other = keyOf entry from List.mem_singleton.mp hmem]
          exact List.mem_map_of_mem hother
      unfold rebuildStep at hrest
      rw [hrest]
      unfold missing
      rw [List.filter_cons_of_pos (by simpa using hkey), List.map_cons, List.append_assoc]
      rfl

theorem chronological_perm (audit : List AuditRow) : (chronological audit).Perm audit :=
  List.perm_insertionSort _ audit

theorem InKey.nodup_keyOf (h : InKey db) : (db.audit.map keyOf).Nodup := by
  have hkeys := congrArg (List.map Prod.fst) h.keys
  rw [List.map_map, List.map_map] at hkeys
  have hnodup := h.nodup_keys
  rw [show db.outbox.map OutboxRow.deduplicationKey = db.audit.map keyOf from hkeys] at hnodup
  exact hnodup

/-- A task and a version are reported once. Kind: L -/
theorem aligned_nodup_pairs (h : Aligned db) :
    (db.audit.map fun entry => (entry.taskId, entry.leaseVersion)).Nodup := by
  rw [List.nodup_iff_count_le_one]
  rintro ⟨taskId, v⟩
  rw [count_pair]
  exact List.nodup_iff_count_le_one.mp (h.nodup_versions taskId) v

theorem toList_rebuiltId (entry : AuditRow) :
    (rebuiltEvent entry).eventId.toList =
      "evt_".toList ++ (entry.taskId.toList ++ '_' :: (toString entry.leaseVersion).toList) := by
  have hbar : "_".toList = ['_'] := by decide
  show ("evt_" ++ entry.taskId ++ "_" ++ toString entry.leaseVersion).toList = _
  simp only [String.toList_append, hbar, List.append_assoc, List.cons_append, List.nil_append]

/-- A rebuilt identifier says which task and version it is of. Kind: L -/
theorem rebuiltId_inj {entry other : AuditRow}
    (h : (rebuiltEvent entry).eventId = (rebuiltEvent other).eventId) :
    (entry.taskId, entry.leaseVersion) = (other.taskId, other.leaseVersion) := by
  have hchars := congrArg String.toList h
  rw [toList_rebuiltId, toList_rebuiltId] at hchars
  obtain ⟨hids, hversions⟩ := append_last_sep_inj (underscore_not_mem_toString_int entry.leaseVersion)
    (underscore_not_mem_toString_int other.leaseVersion) (List.append_cancel_left hchars)
  rw [String.toList_injective hids, toString_int_inj (String.toList_injective hversions)]

/-- A rebuilt identifier is not a drawn one. Kind: L -/
theorem rebuiltId_not_drawn (entry : AuditRow) {hex : String} (h : '_' ∉ hex.toList) :
    (rebuiltEvent entry).eventId ≠ "evt_" ++ hex := by
  intro heq
  have hchars := congrArg String.toList heq
  rw [toList_rebuiltId, String.toList_append] at hchars
  have hrest := List.append_cancel_left hchars
  exact h (hrest ▸ List.mem_append_right _ List.mem_cons_self)

section rebuild

variable {kept : List OutboxRow}

/-- The events that a rebuild adds after a loss. Kind: D -/
def rebuilt (audit : List AuditRow) (kept : List OutboxRow) : List OutboxRow :=
  (missing kept (chronological audit)).map rebuiltEvent

theorem mem_rebuilt {audit : List AuditRow} {event : OutboxRow} :
    event ∈ rebuilt audit kept ↔ ∃ entry ∈ audit,
      keyOf entry ∉ kept.map OutboxRow.deduplicationKey ∧ rebuiltEvent entry = event := by
  unfold rebuilt missing
  rw [List.mem_map]
  constructor
  · grind [chronological_perm, hasKey_iff]
  · rintro ⟨entry, hentry, hkey, heq⟩
    refine ⟨entry, List.mem_filter.mpr ⟨(chronological_perm audit).mem_iff.mpr hentry, ?_⟩, heq⟩
    rw [← hasKey_iff, Bool.not_eq_true] at hkey
    rw [hkey]
    rfl

theorem InKey.nodup_rebuilt_keys (h : InKey db) (hkept : kept.Sublist db.outbox) :
    ((kept ++ rebuilt db.audit kept).map OutboxRow.deduplicationKey).Nodup := by
  rw [List.map_append, List.nodup_append]
  refine ⟨h.nodup_keys.sublist (hkept.map _), ?_, fun key hkey key' hkey' heq => ?_⟩
  · have hchronological : ((chronological db.audit).map keyOf).Nodup :=
      ((chronological_perm db.audit).map keyOf).nodup_iff.mpr h.nodup_keyOf
    have hmissing : ((missing kept (chronological db.audit)).map keyOf).Nodup :=
      hchronological.sublist (List.filter_sublist.map keyOf)
    unfold rebuilt
    rw [List.map_map]
    exact hmissing
  · obtain ⟨event, hevent, rfl⟩ := List.mem_map.mp hkey'
    obtain ⟨entry, _, hnew, rfl⟩ := mem_rebuilt.mp hevent
    have hsame : key = keyOf entry := heq
    exact hnew (hsame ▸ hkey)

theorem InKey.nodup_rebuilt_ids (h : InKey db) (hkept : kept.Sublist db.outbox) :
    ((kept ++ rebuilt db.audit kept).map OutboxRow.eventId).Nodup := by
  rw [List.map_append, List.nodup_append]
  refine ⟨h.nodup_ids.sublist (hkept.map _), ?_, fun eventId hid eventId' hid' heq => ?_⟩
  · have hpairs : ((chronological db.audit).map fun entry => (entry.taskId, entry.leaseVersion)).Nodup :=
      ((chronological_perm db.audit).map _).nodup_iff.mpr (aligned_nodup_pairs h.aligned)
    have hmissing : ((missing kept (chronological db.audit)).map
        fun entry => (entry.taskId, entry.leaseVersion)).Nodup :=
      hpairs.sublist (List.filter_sublist.map _)
    unfold rebuilt
    rw [List.map_map]
    refine List.Nodup.map_on (fun entry hentry other hother hids => ?_) hmissing.of_map
    exact List.inj_on_of_nodup_map hmissing hentry hother (rebuiltId_inj hids)
  · obtain ⟨event, hevent, rfl⟩ := List.mem_map.mp hid
    obtain ⟨event', hevent', rfl⟩ := List.mem_map.mp hid'
    obtain ⟨entry, _, _, rfl⟩ := mem_rebuilt.mp hevent'
    obtain ⟨hex, hdrawn, hplain⟩ := h.drawn event (hkept.subset hevent)
    exact rebuiltId_not_drawn entry hplain (heq.symm.trans hdrawn)

/-- A rebuild after any loss adds the missing events. Kind: L -/
theorem InKey.rebuild_ok (h : InKey db) (autoflush : Bool) (hkept : kept.Sublist db.outbox) :
    rebuildOutboxFromAudit autoflush db.audit kept =
      .ok (kept ++ rebuilt db.audit kept, (rebuilt db.audit kept).length) := by
  have hfold : (chronological db.audit).foldl (rebuildStep autoflush kept) [] = rebuilt db.audit kept := by
    rw [foldl_rebuildStep autoflush kept _ [] _ (by simp)]
    · rfl
    · exact ((chronological_perm db.audit).map keyOf).nodup_iff.mpr h.nodup_keyOf
  unfold rebuildOutboxFromAudit
  dsimp only
  rw [hfold, if_pos (h.nodup_rebuilt_keys hkept), if_pos (h.nodup_rebuilt_ids hkept)]

/-- The key and the sequence of an event. Kind: D -/
def keySequence (event : OutboxRow) : String × ℤ := (event.deduplicationKey, event.aggregateSequence)

/-- What was lost is there again, under its key and with its sequence. Kind: L -/
theorem InKey.perm_rebuilt (h : InKey db) (hkept : kept.Sublist db.outbox) :
    ((kept ++ rebuilt db.audit kept).map keySequence).Perm (db.outbox.map keySequence) := by
  have hnodup : ∀ l : List OutboxRow, (l.map OutboxRow.deduplicationKey).Nodup →
      (l.map keySequence).Nodup := by
    intro l hl
    refine List.Nodup.of_map Prod.fst ?_
    rw [List.map_map]
    exact hl
  rw [List.perm_ext_iff_of_nodup (hnodup _ (h.nodup_rebuilt_keys hkept)) (hnodup _ h.nodup_keys)]
  intro pair
  rw [List.map_append, List.mem_append]
  constructor
  · rintro (hold | hnew)
    · exact (hkept.map keySequence).subset hold
    · obtain ⟨event, hevent, rfl⟩ := List.mem_map.mp hnew
      obtain ⟨entry, hentry, _, rfl⟩ := mem_rebuilt.mp hevent
      rw [show db.outbox.map keySequence = _ from h.keys]
      exact List.mem_map_of_mem (f := fun entry => (keyOf entry, entry.leaseVersion)) hentry
  · intro hpair
    obtain ⟨event, hevent, rfl⟩ := List.mem_map.mp hpair
    rw [show db.outbox.map keySequence = _ from h.keys] at hpair
    obtain ⟨entry, hentry, heq⟩ := List.mem_map.mp hpair
    by_cases hkey : keyOf entry ∈ kept.map OutboxRow.deduplicationKey
    · obtain ⟨event', hevent', hkey'⟩ := List.mem_map.mp hkey
      have hsame : event' = event := List.inj_on_of_nodup_map h.nodup_keys (hkept.subset hevent') hevent
        (hkey'.trans (congrArg Prod.fst heq))
      exact Or.inl (hsame ▸ List.mem_map_of_mem hevent')
    · exact Or.inr (List.mem_map.mpr ⟨rebuiltEvent entry, mem_rebuilt.mpr ⟨entry, hentry, hkey, rfl⟩, heq⟩)

/-- After a rebuild nothing is missing. Kind: L -/
theorem rebuilt_again (audit : List AuditRow) (kept : List OutboxRow) :
    rebuilt audit (kept ++ rebuilt audit kept) = [] := by
  rw [List.eq_nil_iff_forall_not_mem]
  intro event hevent
  obtain ⟨entry, hentry, hnew, _⟩ := mem_rebuilt.mp hevent
  refine hnew ?_
  by_cases hkey : keyOf entry ∈ kept.map OutboxRow.deduplicationKey
  · rw [List.map_append]
    exact List.mem_append_left _ hkey
  · rw [List.map_append]
    exact List.mem_append_right _
      (List.mem_map.mpr ⟨rebuiltEvent entry, mem_rebuilt.mpr ⟨entry, hentry, hkey, rfl⟩, rfl⟩)

theorem InKey.rebuild_again (h : InKey db) (autoflush : Bool) (hkept : kept.Sublist db.outbox) :
    rebuildOutboxFromAudit autoflush db.audit (kept ++ rebuilt db.audit kept) =
      .ok (kept ++ rebuilt db.audit kept, 0) := by
  have hfold : (chronological db.audit).foldl
      (rebuildStep autoflush (kept ++ rebuilt db.audit kept)) [] = [] := by
    rw [foldl_rebuildStep autoflush _ _ [] _ (by simp)]
    · exact rebuilt_again db.audit kept
    · exact ((chronological_perm db.audit).map keyOf).nodup_iff.mpr h.nodup_keyOf
  unfold rebuildOutboxFromAudit
  dsimp only
  rw [hfold, List.append_nil, if_pos (h.nodup_rebuilt_keys hkept), if_pos (h.nodup_rebuilt_ids hkept)]
  rfl

end rebuild

/-! ## Runs -/

/-- What is expected of the rebuild: it adds nothing to the intact outbox; after any loss it brings back
events with the keys and sequences that were lost, and nothing else; and it adds nothing a second time.
Kind: D -/
structure Restores (autoflush : Bool) (db : Database) : Prop where
  intact : rebuildOutboxFromAudit autoflush db.audit db.outbox = .ok (db.outbox, 0)
  restored : ∀ kept : List OutboxRow, kept.Sublist db.outbox → ∃ added : List OutboxRow,
    rebuildOutboxFromAudit autoflush db.audit kept = .ok (kept ++ added, added.length) ∧
      ((kept ++ added).map keySequence).Perm (db.outbox.map keySequence) ∧
        rebuildOutboxFromAudit autoflush db.audit (kept ++ added) = .ok (kept ++ added, 0)

theorem restores_of_inKey (h : InKey db) (autoflush : Bool) : Restores autoflush db := by
  refine ⟨?_, fun kept hkept => ⟨rebuilt db.audit kept, h.rebuild_ok autoflush hkept, h.perm_rebuilt hkept,
    h.rebuild_again autoflush hkept⟩⟩
  have hlength : (rebuilt db.audit db.outbox).length = 0 := by
    have hperm := (h.perm_rebuilt (List.Sublist.refl db.outbox)).length_eq
    rw [List.length_map, List.length_map, List.length_append] at hperm
    omega
  have hok := h.rebuild_ok autoflush (List.Sublist.refl db.outbox)
  rwa [List.length_eq_zero_iff.mp hlength, List.append_nil] at hok

/-- **Where calls keep their keys and versions only go up, the rebuild is the inverse of any loss.**
Kind: P -/
theorem rebuilt_run_restores (sha256 : String → String) (autoflush : Bool) (events : List RepositoryEvent)
    (h : Along (Database.step sha256) (fun db event => Advances db event ∧ KeepsKey db event) {} events) :
    ∀ db ∈ reached (Database.step sha256) {} events, Restores autoflush db := by
  have hinv : ∀ db ∈ reached (Database.step sha256) {} events, InKey db :=
    Along.invariant (fun db event hdb hcond => inKey_step hdb hcond.1 hcond.2) inKey_init h
  exact fun db hdb => restores_of_inKey (hinv db hdb) autoflush

/-- The events of a completed task come back after any loss. -/
theorem rebuilt_run_restores_completing : Restores false (completing.foldl (Database.step id) {}) := by
  have hqueued : (Database.step id {} (.call (drawsAt 0) (.create queuedTask))).tasks.get? "t" =
      some (TaskRow.ofTask queuedTask) := by decide +kernel
  refine rebuilt_run_restores id false completing
    ⟨⟨trivial, rfl⟩, ⟨trivial, fun row hrow _ => ?_⟩, ⟨trivial, trivial⟩, trivial⟩ _ (foldl_mem_reached _ _)
  cases hqueued.symm.trans hrow
  decide

/-- A task in the state that new tasks have. Kind: D -/
def pendingTask : RemediationTask :=
  { taskId := "t", findingId := "f", approvalTokenId := "a", fingerprint := "p" }

/-- The intact outbox of a new task gains an event, under another key than the one it has. -/
theorem pending_task_gains_event :
    ((Database.step id {} (.call (drawsAt 0) (.create pendingTask))).outbox.map
        OutboxRow.deduplicationKey = ["task_created_t"]) ∧
      (rebuildOutboxFromAudit false (Database.step id {} (.call (drawsAt 0) (.create pendingTask))).audit
          (Database.step id {} (.call (drawsAt 0) (.create pendingTask))).outbox).map
        (fun rebuilt => rebuilt.1.map OutboxRow.deduplicationKey) =
          .ok ["task_created_t", "task_transition_t_1"] := by
  decide +kernel

end KarsaSec.Recovery
