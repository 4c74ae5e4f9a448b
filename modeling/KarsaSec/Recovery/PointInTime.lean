import KarsaSec.Recovery.Restoration

/-!
# Replay to a point in time

`AuditReplayEngine.replay_events` with a `target_sequence`: the bound is one number for all tasks, the lease versions that are held
against it are counted for each task on its own, and the first row beyond the bound ends the replay.

* `within`: the rows that the bound lets through. `LeftByOwnRows` is what is expected of a replay: all of these rows are replayed,
  and each task is left as its own ones leave it.
* `leftByOwnRows_iff`: exactly when no row within the bound comes after one beyond it, and every task with two rows can be seen by
  the queries of the session.
-/

namespace KarsaSec.Recovery

open KarsaSec.Found KarsaSec.Events KarsaSec.Persistence TaskAuditLedger AuditReplayEngine

/-! ## Lists up to the first failure -/

section lists

variable {α : Type*} {p : α → Bool}

/-- What comes before the first failure is all that does not fail, if nothing comes after a failure but failures. Kind: L -/
theorem takeWhile_eq_filter_iff : {l : List α} →
    (l.takeWhile p = l.filter p ↔ l.Pairwise fun a b => p b = true → p a = true)
  | [] => iff_of_true rfl .nil
  | a :: l => by
    rw [List.pairwise_cons]
    by_cases ha : p a = true
    · rw [List.takeWhile_cons_of_pos ha, List.filter_cons_of_pos ha, List.cons.injEq, takeWhile_eq_filter_iff]
      exact ⟨fun h => ⟨fun _ _ _ => ha, h.2⟩, fun h => ⟨rfl, h.2⟩⟩
    · rw [List.takeWhile_cons_of_neg ha, List.filter_cons_of_neg ha, eq_comm, List.filter_eq_nil_iff]
      constructor
      · simp_all [List.pairwise_of_forall_mem_list]
      · exact fun h b hb hpb => ha (h.1 b hb hpb)

theorem length_takeWhile_eq_iff {l : List α} :
    (l.takeWhile p).length = (l.filter p).length ↔ l.takeWhile p = l.filter p := by
  refine ⟨fun h => ?_, fun h => congrArg List.length h⟩
  have hsub : (l.takeWhile p).Sublist (l.filter p) := by grind [List.filter_eq_self, List.mem_takeWhile_imp]
  exact hsub.eq_of_length h

end lists

/-! ## What is expected -/

/-- The rows whose version is at most the bound. Kind: D -/
def within (targetSequence : ℤ) (entries : List AuditRow) : List AuditRow :=
  entries.filter fun entry => entry.leaseVersion ≤ targetSequence

/-- The rows of a replay, in their order. Source: `replay.py`, `replay_events`, `audit_entries[start_index:]`. Kind: D -/
def replayable (audit : List AuditRow) (auditChainHead : String) : List AuditRow :=
  afterBoundary auditChainHead (chronological audit)

/-- The replay returns, after all rows within the bound; a task with such rows is left in the state of its last one, made from its
row by its own rows only, and a task without is left as it was. Kind: D -/
structure LeftByOwnRows (targetSequence : ℤ) (entries : List AuditRow) (tasks : Dict String TaskRow)
    (replayed : Except RecoveryError (Dict String TaskRow × ℕ)) : Prop where
  returns : ∃ tasks', replayed = .ok (tasks', (within targetSequence entries).length)
  last : ∀ tasks' count, replayed = .ok (tasks', count) → ∀ taskId entry,
    (recordedOf (within targetSequence entries) taskId).getLast? = some entry →
      ∃ row, tasks'.get? taskId = some row ∧ row.state = entry.newState ∧ row.leaseVersion = entry.leaseVersion
  own : ∀ tasks' count, replayed = .ok (tasks', count) → ∀ taskId,
    tasks'.get? taskId = (recordedOf (within targetSequence entries) taskId).foldl trackStep (tasks.get? taskId)

/-- No row within the bound comes after one beyond it. Kind: D -/
def BeyondLast (targetSequence : ℤ) (entries : List AuditRow) : Prop :=
  entries.Pairwise fun a b => b.leaseVersion ≤ targetSequence → a.leaseVersion ≤ targetSequence

/-- A task that the queries do not see has one row at most. Kind: D -/
def SeenTwice (autoflush : Bool) (targetSequence : ℤ) (entries : List AuditRow) (tasks : Dict String TaskRow) : Prop :=
  autoflush = true ∨ ∀ taskId, tasks.get? taskId = none → (recordedOf (within targetSequence entries) taskId).length ≤ 1

section pointInTime

variable {sha256 : String → String} {autoflush : Bool} {audit entries : List AuditRow} {tasks : Dict String TaskRow}
  {auditChainHead : String} {targetSequence : ℤ}

/-- A row leaves its task in its state. Kind: L -/
theorem state_foldl_trackStep {row : Option TaskRow} {entry : AuditRow} {own : List AuditRow} (h : own.getLast? = some entry) :
    ∃ after, own.foldl trackStep row = some after ∧ after.state = entry.newState ∧ after.leaseVersion = entry.leaseVersion := by
  obtain ⟨before, rfl⟩ : ∃ before, own = before ++ [entry] := ⟨own.dropLast, (List.dropLast_append_getLast? entry h).symm⟩
  rw [List.foldl_append]
  show ∃ after, trackStep (before.foldl trackStep row) entry = some after ∧ _
  cases before.foldl trackStep row with
  | none => exact ⟨_, rfl, rfl, rfl⟩
  | some row => exact ⟨_, rfl, rfl, rfl⟩

/-- The rows that a replay adds are of different tasks, if a task that the queries do not see has one row at most. Kind: P -/
theorem nodup_added_iff : ((entries.foldl (replayStep autoflush) { tasks := tasks }).added.map Prod.fst).Nodup ↔
    (autoflush = true ∨ ∀ taskId, tasks.get? taskId = none → (recordedOf entries taskId).length ≤ 1) := by
  have hcount : ∀ taskId, ((entries.foldl (replayStep autoflush) { tasks := tasks }).added.map Prod.fst).count taskId =
      ((entries.foldl (replayStep autoflush) { tasks := tasks }).added.filter fun new => new.1 = taskId).length := by
    intro taskId
    rw [List.count, List.countP_map, List.countP_eq_length_filter]
    congr 1
  rw [List.nodup_iff_count_le_one]
  constructor
  · intro h
    by_cases hauto : autoflush = true
    · exact .inl hauto
    · refine .inr fun taskId hnone => ?_
      have hunseen : Unseen autoflush tasks taskId := ⟨hnone, Bool.eq_false_iff.mpr hauto⟩
      have hle := h taskId
      rw [hcount, ((replayedTo_foldl autoflush tasks entries taskId).unseen hunseen).2, List.length_map] at hle
      exact hle
  · intro h taskId
    have hreplayed := replayedTo_foldl autoflush tasks entries taskId
    rw [hcount]
    by_cases hunseen : Unseen autoflush tasks taskId
    · rw [(hreplayed.unseen hunseen).2, List.length_map]
      refine h.elim (fun hauto => ?_) fun hone => hone taskId hunseen.1
      rw [hunseen.2] at hauto
      cases hauto
    · rw [(hreplayed.seen hunseen).2]
      exact Nat.zero_le 1

/-- **A replay up to a bound leaves each task as its own rows within the bound leave it, exactly when no row within the bound comes
after one beyond it and a task that the queries of the session do not see has one such row at most.**
Source: `replay.py`, `AuditReplayEngine.replay_events`. Kind: T -/
theorem leftByOwnRows_iff (h : verifyAuditChain sha256 audit = .ok ()) :
    LeftByOwnRows targetSequence (replayable audit auditChainHead) tasks
        (replayEvents sha256 autoflush audit tasks auditChainHead (some targetSequence)) ↔
      BeyondLast targetSequence (replayable audit auditChainHead) ∧
        SeenTwice autoflush targetSequence (replayable audit auditChainHead) tasks := by
  have hupTo : upTo (some targetSequence) (replayable audit auditChainHead) = within targetSequence (replayable audit auditChainHead) ↔
      BeyondLast targetSequence (replayable audit auditChainHead) := by
    refine takeWhile_eq_filter_iff.trans ?_
    simp only [BeyondLast, decide_eq_true_eq]
  have hreplay : replayEvents sha256 autoflush audit tasks auditChainHead (some targetSequence) =
      let entries := upTo (some targetSequence) (replayable audit auditChainHead)
      let replayed := entries.foldl (replayStep autoflush) { tasks := tasks }
      if (replayed.added.map Prod.fst).Nodup then
        .ok (replayed.added.foldl (fun tasks new => tasks.set new.1 new.2) replayed.tasks, entries.length)
      else .error (.integrity "tasks.task_id") := by
    rw [replayEvents, h]
    rfl
  rw [hreplay]
  dsimp only
  constructor
  · intro hleft
    obtain ⟨tasks', hok⟩ := hleft.returns
    split at hok
    next hnodup =>
      have hlength : (upTo (some targetSequence) (replayable audit auditChainHead)).length =
          (within targetSequence (replayable audit auditChainHead)).length := (Prod.ext_iff.mp (Except.ok.inj hok)).2
      have heq := length_takeWhile_eq_iff.mp hlength
      rw [show upTo (some targetSequence) (replayable audit auditChainHead) = _ from heq] at hnodup
      exact ⟨hupTo.mp heq, nodup_added_iff.mp hnodup⟩
    next => cases hok
  · rintro ⟨hbeyond, hseen⟩
    rw [hupTo.mpr hbeyond, if_pos (nodup_added_iff.mpr hseen)]
    have hown := replay_get? (nodup_added_iff.mpr hseen)
    refine ⟨⟨_, rfl⟩, fun tasks' count hok taskId entry hlast => ?_, fun tasks' count hok taskId => ?_⟩
    · obtain ⟨rfl, -⟩ := Prod.mk.inj (Except.ok.inj hok)
      rw [hown]
      exact state_foldl_trackStep hlast
    · simp_all

/-- The rows of two tasks: the first is created, the second is already at its third version, the first is assigned. Kind: D -/
def interleaved : List AuditRow :=
  let draws (n : ℕ) : Draws := ⟨toString n, n, "", n, "", List.not_mem_nil⟩
  let created := [newRow id (draws 1) [] { taskId := "a", previousState := "NONE", newState := "QUEUED" }]
  let ahead := created ++ [newRow id (draws 2) created
    { taskId := "b", previousState := "QUEUED", newState := "RUNNING", leaseVersion := 3 }]
  ahead ++ [newRow id (draws 3) ahead { taskId := "a", previousState := "QUEUED", newState := "RUNNING", leaseVersion := 2 }]

theorem verifyAuditChain_interleaved : verifyAuditChain id interleaved = .ok () := by
  decide +kernel

theorem leftByOwnRows_interleaved : LeftByOwnRows 3 (replayable interleaved "GENESIS") .empty
    (replayEvents id true interleaved .empty "GENESIS" (some 3)) := by
  refine (leftByOwnRows_iff verifyAuditChain_interleaved).mpr ⟨?_, .inl rfl⟩
  unfold BeyondLast
  decide +kernel

/-- With the bound two the row of the second task ends the replay, and the first task stays queued at version one.
Source: `replay.py`, `replay_events`. Kind: C -/
theorem other_task_stops_replay :
    (replayEvents id true interleaved .empty "GENESIS" (some 2)).map (fun result =>
        ((result.1.get? "a").map fun row => (row.state, row.leaseVersion), result.2)) = .ok (some ("QUEUED", 1), 1) ∧
      (recordedOf (within 2 (replayable interleaved "GENESIS")) "a").getLast?.map (fun row => (row.newState, row.leaseVersion)) =
        some ("RUNNING", 2) ∧
      ¬LeftByOwnRows 2 (replayable interleaved "GENESIS") .empty
        (replayEvents id true interleaved .empty "GENESIS" (some 2)) := by
  refine ⟨by decide +kernel, by decide +kernel, fun h => ?_⟩
  obtain ⟨tasks', hok⟩ := h.returns
  have hcount : (replayEvents id true interleaved .empty "GENESIS" (some 2)).map Prod.snd = .ok 1 := by decide +kernel
  rw [hok] at hcount
  have hlength : (within 2 (replayable interleaved "GENESIS")).length = 1 := Except.ok.inj hcount
  exact absurd hlength (by decide +kernel)

end pointInTime

end KarsaSec.Recovery
