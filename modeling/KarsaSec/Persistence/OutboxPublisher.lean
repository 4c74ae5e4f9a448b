import KarsaSec.Events.DeliveryOrder
import KarsaSec.Found.JsonText
import KarsaSec.Recovery.Snapshot

/-!
# The outbox publisher

`persistence/outbox_publisher.py`: `OutboxPublisher.process_pending_events` puts the tasks of pending events into the queue and
records the outcome, all in one transaction. The queue does not take part in it.

* `processPendingEvents`: one run. A payload that cannot be read ends it with an exception, outside of the `try` block, and takes
  back what has been recorded.
* `Settled`: what a run has put into the queue is published, and every other event of the batch has one more attempt.
* `settled_iff`: exactly when all payloads of the batch are objects; `reliable_iff` adds the runs that follow.
-/

namespace KarsaSec.Persistence

open KarsaSec.Events KarsaSec.Events.TransactionalOutbox KarsaSec.Found KarsaSec.Recovery

namespace OutboxPublisher

variable {F : Type} (fl : Floats F)

/-! ## One run -/

/-- The task of an event; a payload that is no JSON object has none. Source: `outbox_publisher.py`, `process_pending_events`,
`payload.get("task_id", event.aggregate_id)`. Kind: D -/
def taskOf (entry : OutboxEntry) : Option (Json F) :=
  match Json.loads fl entry.payload.toList with
  | some (.obj members) => some (Json.getD "task_id" members (.str entry.aggregateId))
  | _ => none

/-- Source: `outbox_publisher.py`, `record_failure`. Kind: D -/
def recordFailure (entry : OutboxEntry) : OutboxEntry :=
  { entry with
    attemptCount := entry.attemptCount + 1
    status := if 5 ≤ entry.attemptCount + 1 then .failed else entry.status }

/-- What a run has done so far: the rows of its transaction, the tasks in the queue with their events, the calls of the queue and
the events it has counted as published. Kind: D -/
structure Progress (F : Type) where
  table : Dict String OutboxEntry
  enqueued : List (String × Json F) := []
  calls : ℕ := 0
  publishedCount : ℕ := 0

/-- The `update` statement: only a pending event is published. Source: `outbox_publisher.py`, `process_pending_events`. Kind: D -/
def publishPending (now : ℤ) (eventId : String) (p : Progress F) : Progress F :=
  match p.table.get? eventId with
  | some entry =>
    if entry.status = .pending then
      { p with table := p.table.set eventId (entry.publish now), publishedCount := p.publishedCount + 1 }
    else p
  | none => p

/-- Source: `outbox_publisher.py`, `process_pending_events`, the `except` block. Kind: D -/
def failPending (eventId : String) (p : Progress F) : Progress F :=
  match p.table.get? eventId with
  | some entry => { p with table := p.table.set eventId (recordFailure entry) }
  | none => p

/-- One event; `none` is an exception. `queue k` says whether the queue accepts the `k`-th call. Source: `outbox_publisher.py`,
`process_pending_events`, loop body. Kind: D -/
def handle (queue : ℕ → Bool) (now : ℤ) (p : Progress F) (event : String × OutboxEntry) : Option (Progress F) :=
  (taskOf fl event.2).map fun task =>
    if queue p.calls then
      publishPending now event.1 { p with enqueued := p.enqueued ++ [(event.1, task)], calls := p.calls + 1 }
    else failPending event.1 { p with calls := p.calls + 1 }

/-- The loop: what has been done, and whether it has ended without an exception. Source: `outbox_publisher.py`,
`process_pending_events`. Kind: D -/
def handleAll (queue : ℕ → Bool) (now : ℤ) : Progress F → List (String × OutboxEntry) → Progress F × Bool
  | p, [] => (p, true)
  | p, event :: rest =>
    match handle fl queue now p event with
    | some p' => handleAll queue now p' rest
    | none => (p, false)

/-- What the circumstances of a run are: its limit, the rows that others have locked, the order of equal timestamps, the clock, and
the answers of the queue. Kind: D -/
structure Circumstances where
  limit : ℕ := 10
  locked : List String := []
  tie : String → ℕ := fun _ => 0
  now : ℤ := 0
  queue : ℕ → Bool

/-- The events of a run. Source: `outbox_publisher.py`, `fetch_pending_events`. Kind: D -/
def Circumstances.batch (c : Circumstances) (table : Dict String OutboxEntry) : List (String × OutboxEntry) :=
  pendingEvents table c.locked c.tie c.limit

/-- A run: what it returns if it does, the rows afterwards, and what it has put into the queue. Kind: D -/
structure Outcome (F : Type) where
  returned : Option ℕ
  table : Dict String OutboxEntry
  enqueued : List (String × Json F)

/-- An exception takes back the transaction, and leaves the queue. Source: `outbox_publisher.py`, `process_pending_events`; `db.py`,
`session_scope`. Kind: D -/
def processPendingEvents (c : Circumstances) (table : Dict String OutboxEntry) : Outcome F :=
  match handleAll fl c.queue c.now { table := table } (c.batch table) with
  | (p, true) => ⟨some p.publishedCount, p.table, p.enqueued⟩
  | (p, false) => ⟨none, table, p.enqueued⟩

/-- The events whose task is in the queue. Kind: D -/
def Outcome.enqueuedIds (o : Outcome F) : List String := o.enqueued.map Prod.fst

/-! ## What is expected of a run -/

/-- The events whose task a run has put into the queue are published, and the other ones of its batch, which have failed, have one
more attempt. Kind: D -/
structure Settled (c : Circumstances) (table : Dict String OutboxEntry) (o : Outcome F) : Prop where
  published : ∀ eventId entry, table.get? eventId = some entry → entry.status = .pending →
    ∃ entry', o.table.get? eventId = some entry' ∧ (entry'.status = .published ↔ eventId ∈ o.enqueuedIds)
  counted : ∀ eventId entry, table.get? eventId = some entry →
    ∃ entry', o.table.get? eventId = some entry' ∧ entry'.attemptCount = entry.attemptCount +
      if eventId ∈ (c.batch table).map Prod.fst ∧ eventId ∉ o.enqueuedIds then 1 else 0

/-- All payloads of the batch are JSON objects. Kind: D -/
def Readable (c : Circumstances) (table : Dict String OutboxEntry) : Prop :=
  ∀ event ∈ c.batch table, ∃ members, Json.loads fl event.2.payload.toList = some (.obj members)

/-! ## A run on payloads that can be read -/

section run

variable {fl : Floats F} {queue : ℕ → Bool} {now : ℤ} {p p' : Progress F} {event : String × OutboxEntry}
  {events : List (String × OutboxEntry)} {c : Circumstances} {table : Dict String OutboxEntry}

theorem taskOf_isSome_iff {entry : OutboxEntry} :
    (taskOf fl entry).isSome ↔ ∃ members, Json.loads fl entry.payload.toList = some (.obj members) := by
  unfold taskOf
  split
  next members hloads => exact ⟨fun _ => ⟨members, hloads⟩, fun _ => rfl⟩
  next hnot => exact ⟨nofun, fun ⟨members, hloads⟩ => absurd hloads (hnot members)⟩

/-- What becomes of the row of an event, given the events that have been put into the queue. Kind: D -/
def settledRow (now : ℤ) (ids : List String) (event : String × OutboxEntry) : OutboxEntry :=
  if event.1 ∈ ids then event.2.publish now else recordFailure event.2

variable (queue now) in
/-- One event that is pending: in the queue and published, or counted as failed. Kind: L -/
theorem handle_pending (hread : (taskOf fl event.2).isSome) (hrow : p.table.get? event.1 = some event.2)
    (hpending : event.2.status = .pending) :
    ∃ ids p', handle fl queue now p event = some p' ∧ p'.enqueued.map Prod.fst = p.enqueued.map Prod.fst ++ ids ∧
      ids.Sublist [event.1] ∧ p'.table = p.table.set event.1 (settledRow now ids event) := by
  obtain ⟨task, htask⟩ := Option.isSome_iff_exists.mp hread
  rw [handle, htask, Option.map_some]
  by_cases hqueue : queue p.calls = true
  · simp_all [publishPending, settledRow]
  · simp_all [failPending, settledRow]

/-- What the loop leaves of the rows, given the events that it has put into the queue. Kind: D -/
structure Done (now : ℤ) (p : Progress F) (events : List (String × OutboxEntry)) (ids : List String) (p' : Progress F) : Prop where
  enqueued : p'.enqueued.map Prod.fst = p.enqueued.map Prod.fst ++ ids
  sublist : ids.Sublist (events.map Prod.fst)
  other : ∀ eventId ∉ events.map Prod.fst, p'.table.get? eventId = p.table.get? eventId
  row : ∀ event ∈ events, p'.table.get? event.1 = some (settledRow now ids event)

variable (fl queue now) in
/-- The loop over events that can be read. Source: `outbox_publisher.py`, `process_pending_events`. Kind: P -/
theorem handleAll_done {events : List (String × OutboxEntry)} {p : Progress F} (hnd : (events.map Prod.fst).Nodup)
    (hall : ∀ event ∈ events, (taskOf fl event.2).isSome ∧ p.table.get? event.1 = some event.2 ∧ event.2.status = .pending) :
    ∃ ids p', handleAll fl queue now p events = (p', true) ∧ Done now p events ids p' := by
  induction events generalizing p with
  | nil => exact ⟨[], p, rfl, (List.append_nil _).symm, .refl _, fun _ _ => rfl, fun _ h => absurd h List.not_mem_nil⟩
  | cons event rest ih =>
    rw [List.map_cons, List.nodup_cons] at hnd
    obtain ⟨hread, hrow, hpending⟩ := hall event List.mem_cons_self
    obtain ⟨ids₁, p₁, hhandle, hids₁, hsub₁, htable⟩ := handle_pending queue now hread hrow hpending
    have hne : ∀ event' ∈ rest, event'.1 ≠ event.1 := fun event' he' heq => hnd.1 (heq ▸ List.mem_map_of_mem he')
    have hall' : ∀ event' ∈ rest, (taskOf fl event'.2).isSome ∧ p₁.table.get? event'.1 = some event'.2 ∧
        event'.2.status = .pending := by
      intro event' he'
      rw [htable, Dict.get?_set_ne _ (hne event' he')]
      exact hall event' (List.mem_cons_of_mem _ he')
    obtain ⟨ids, p', hloop, hdone⟩ := ih hnd.2 hall'
    have hnot : event.1 ∉ ids := fun hmem => hnd.1 (hdone.sublist.subset hmem)
    refine ⟨ids₁ ++ ids, p', ?_, ?_, hsub₁.append hdone.sublist, fun eventId hid => ?_, fun event' he' => ?_⟩
    · rw [handleAll, hhandle]
      exact hloop
    · rw [hdone.enqueued, hids₁, List.append_assoc]
    · rw [List.map_cons, List.mem_cons, not_or] at hid
      rw [hdone.other eventId hid.2, htable, Dict.get?_set_ne _ hid.1]
    · rcases List.mem_cons.mp he' with rfl | he'
      · rw [hdone.other _ hnd.1, htable, Dict.get?_set_self, settledRow, settledRow]
        simp only [List.mem_append, hnot, or_false]
      · have hnot₁ : event'.1 ∉ ids₁ := fun hmem => hne event' he' (List.mem_singleton.mp (hsub₁.subset hmem))
        rw [hdone.row event' he', settledRow, settledRow]
        simp only [List.mem_append, hnot₁, false_or]

variable (fl queue now) in
/-- The loop over events of which one cannot be read ends with an exception, and that one is not in the queue.
Source: `outbox_publisher.py`, `process_pending_events`. Kind: L -/
theorem handleAll_raises : {events : List (String × OutboxEntry)} → {p : Progress F} → (events.map Prod.fst).Nodup →
    (∀ event ∈ events, event.1 ∉ p.enqueued.map Prod.fst ∧ p.table.get? event.1 = some event.2 ∧ event.2.status = .pending) →
    (∃ event ∈ events, taskOf fl event.2 = none) →
      ∃ p', handleAll fl queue now p events = (p', false) ∧ ∃ event ∈ events, event.1 ∉ p'.enqueued.map Prod.fst
  | [], _, _, _, hbad => absurd hbad (by rintro ⟨event, he, -⟩; exact List.not_mem_nil he)
  | event :: rest, p, hnd, hall, hbad => by
    rw [List.map_cons, List.nodup_cons] at hnd
    obtain ⟨hfresh, hrow, hpending⟩ := hall event List.mem_cons_self
    rcases htask : taskOf fl event.2 with _ | task
    · refine ⟨p, ?_, event, List.mem_cons_self, hfresh⟩
      rw [handleAll, handle, htask]
      rfl
    · obtain ⟨ids₁, p₁, hhandle, hids₁, hsub₁, htable⟩ :=
        handle_pending queue now (by rw [htask]; rfl) hrow hpending
      have hbad' : ∃ event' ∈ rest, taskOf fl event'.2 = none := by grind
      obtain ⟨p', hloop, event', he', hnot⟩ := handleAll_raises hnd.2 (fun event' he' => by
        have hne : event'.1 ≠ event.1 := fun heq => hnd.1 (heq ▸ List.mem_map_of_mem he')
        obtain ⟨hfresh', hrow', hpending'⟩ := hall event' (List.mem_cons_of_mem _ he')
        rw [hids₁, htable, Dict.get?_set_ne _ hne, List.mem_append, not_or]
        exact ⟨⟨hfresh', fun hmem => hne (List.mem_singleton.mp (hsub₁.subset hmem))⟩, hrow', hpending'⟩) hbad'
      refine ⟨p', ?_, event', List.mem_cons_of_mem _ he', hnot⟩
      rw [handleAll, hhandle]
      exact hloop

/-- The events of a batch. Kind: L -/
theorem batch_pending (he : event ∈ c.batch table) : table.get? event.1 = some event.2 ∧ event.2.status = .pending :=
  ⟨(PublisherCall.mem_pendingEvents he).1, (PublisherCall.mem_pendingEvents he).2.1⟩

theorem nodup_batch (c : Circumstances) (table : Dict String OutboxEntry) : ((c.batch table).map Prod.fst).Nodup :=
  nodup_pendingEvents table c.locked c.tie c.limit

theorem readable_iff : Readable fl c table ↔ ∀ event ∈ c.batch table, (taskOf fl event.2).isSome :=
  forall₂_congr fun _ _ => taskOf_isSome_iff.symm

/-- A run on payloads that can be read. Kind: L -/
theorem processPendingEvents_done (h : Readable fl c table) : ∃ ids, (processPendingEvents fl c table).enqueuedIds = ids ∧
    ids.Sublist ((c.batch table).map Prod.fst) ∧
    (∀ eventId ∉ (c.batch table).map Prod.fst, (processPendingEvents fl c table).table.get? eventId = table.get? eventId) ∧
    ∀ event ∈ c.batch table, (processPendingEvents fl c table).table.get? event.1 = some (settledRow c.now ids event) := by
  obtain ⟨ids, p', hloop, hdone⟩ := handleAll_done fl c.queue c.now (p := { table := table }) (nodup_batch c table) fun event he => ⟨readable_iff.mp h event he, batch_pending he⟩
  rw [processPendingEvents, hloop]
  exact ⟨ids, hdone.enqueued, hdone.sublist, hdone.other, hdone.row⟩

/-- A run is settled exactly when all payloads of its batch are objects. Source: `outbox_publisher.py`,
`process_pending_events`. Kind: P -/
theorem settled_iff : Settled c table (processPendingEvents fl c table) ↔ Readable fl c table := by
  constructor
  · intro h
    by_contra hbad
    have hbad' : ∃ event ∈ c.batch table, taskOf fl event.2 = none := by
      rw [readable_iff] at hbad
      push Not at hbad
      obtain ⟨event, he, hnone⟩ := hbad
      exact ⟨event, he, Option.not_isSome_iff_eq_none.mp hnone⟩
    obtain ⟨p', hloop, event, he, hnot⟩ := handleAll_raises fl c.queue c.now (p := { table := table })
      (nodup_batch c table) (fun event he => ⟨List.not_mem_nil, batch_pending he⟩) hbad'
    -- the rows are as before the run, so the event that is left over has not been counted
    have hrun : processPendingEvents fl c table = ⟨none, table, p'.enqueued⟩ := by
      rw [processPendingEvents, hloop]
    obtain ⟨entry', hrow, hcount⟩ := h.counted event.1 event.2 (batch_pending he).1
    rw [hrun] at hrow hcount
    rw [if_pos ⟨List.mem_map_of_mem he, hnot⟩] at hcount
    rw [Option.some.inj (hrow.symm.trans (batch_pending he).1)] at hcount
    omega
  · intro h
    obtain ⟨ids, hids, hsub, hother, hrow⟩ := processPendingEvents_done h
    have hmem : ∀ {eventId entry}, table.get? eventId = some entry → eventId ∈ (c.batch table).map Prod.fst →
        (processPendingEvents fl c table).table.get? eventId = some (settledRow c.now ids (eventId, entry)) := by
      intro eventId entry hfound hin
      obtain ⟨event, he, rfl⟩ := List.mem_map.mp hin
      rw [hrow event he, Option.some.inj (hfound.symm.trans (batch_pending he).1)]
    constructor
    · intro eventId entry hfound hpending
      rw [hids]
      by_cases hin : eventId ∈ (c.batch table).map Prod.fst
      · refine ⟨_, hmem hfound hin, ?_⟩
        by_cases hid : eventId ∈ ids
        · rw [settledRow, if_pos hid]
          exact ⟨fun _ => hid, fun _ => rfl⟩
        · rw [settledRow, if_neg hid]
          refine ⟨fun hstatus => ?_, fun hid' => absurd hid' hid⟩
          rw [recordFailure] at hstatus
          dsimp only at hstatus
          split at hstatus
          · cases hstatus
          · rw [hpending] at hstatus
            cases hstatus
      · grind
    · intro eventId entry hfound
      rw [hids]
      by_cases hin : eventId ∈ (c.batch table).map Prod.fst
      · refine ⟨_, hmem hfound hin, ?_⟩
        by_cases hid : eventId ∈ ids
        · rw [settledRow, if_pos hid, if_neg (fun hboth => hboth.2 hid), Int.add_zero]
          rfl
        · rw [settledRow, if_neg hid, if_pos ⟨hin, hid⟩]
          rfl
      · refine ⟨entry, (hother eventId hin).trans hfound, ?_⟩
        rw [if_neg (fun hboth => hin hboth.1), Int.add_zero]

end run

/-! ## Run after run -/

/-- What happens to the outbox: a run of the publisher, or a new event. Kind: D -/
inductive OutboxStep
  | run (c : Circumstances)
  | stage (eventId aggregateId eventType payload : String) (createdAt : ℤ)

/-- The rows, and the events that have been put into the queue. Kind: D -/
structure History where
  table : Dict String OutboxEntry
  enqueuedIds : List String

/-- A new event is pending; a known identifier is refused. Source: `outbox_publisher.py`, `create_event_in_session`. Kind: D -/
def createEvent (table : Dict String OutboxEntry) (eventId aggregateId eventType payload : String) (createdAt : ℤ) :
    Dict String OutboxEntry :=
  if eventId ∈ table.keys then table
  else
    table.set eventId
      { aggregateId := aggregateId, aggregateType := "TASK", eventType := eventType, payload := payload
        aggregateSequence := 1, createdAt := createdAt }

/-- One step. Kind: D -/
def History.step (h : History) : OutboxStep → History
  | .run c =>
    let o := processPendingEvents fl c h.table
    ⟨o.table, h.enqueuedIds ++ o.enqueuedIds⟩
  | .stage eventId aggregateId eventType payload createdAt =>
    { h with table := createEvent h.table eventId aggregateId eventType payload createdAt }

/-- Every run is settled, and no event is put into the queue twice. Kind: D -/
structure Reliable (table : Dict String OutboxEntry) (steps : List OutboxStep) : Prop where
  settled : Along (History.step fl) (fun h s => ∀ c, s = .run c → Settled c h.table (processPendingEvents fl c h.table))
    ⟨table, []⟩ steps
  once : (steps.foldl (History.step fl) ⟨table, []⟩).enqueuedIds.Nodup

section runs

variable {fl : Floats F} {h : History}

/-- What has been put into the queue is published, and in the queue once. Kind: D -/
structure History.Kept (h : History) : Prop where
  once : h.enqueuedIds.Nodup
  published : ∀ eventId ∈ h.enqueuedIds, ∃ entry, h.table.get? eventId = some entry ∧ entry.status = .published

theorem History.Kept.run (hk : h.Kept) {c : Circumstances} (hread : Readable fl c h.table) : (h.step fl (.run c)).Kept := by
  obtain ⟨ids, hids, hsub, hother, hrow⟩ := processPendingEvents_done hread
  have hbatch : ∀ {eventId}, eventId ∈ (c.batch h.table).map Prod.fst → eventId ∉ h.enqueuedIds := by
    intro eventId hin hmem
    obtain ⟨event, he, rfl⟩ := List.mem_map.mp hin
    obtain ⟨entry, hfound, hstatus⟩ := hk.published _ hmem
    rw [Option.some.inj (hfound.symm.trans (batch_pending he).1), (batch_pending he).2] at hstatus
    cases hstatus
  constructor
  · show (h.enqueuedIds ++ (processPendingEvents fl c h.table).enqueuedIds).Nodup
    rw [hids]
    exact hk.once.append (nodup_batch c h.table |>.sublist hsub) fun eventId hmem hid => hbatch (hsub.subset hid) hmem
  · intro eventId hmem
    have hmem' : eventId ∈ h.enqueuedIds ++ (processPendingEvents fl c h.table).enqueuedIds := hmem
    rw [hids, List.mem_append] at hmem'
    show ∃ entry, (processPendingEvents fl c h.table).table.get? eventId = some entry ∧ entry.status = .published
    rcases hmem' with hold | hnew
    · rw [hother eventId fun hin => hbatch hin hold]
      exact hk.published eventId hold
    · obtain ⟨event, he, rfl⟩ := List.mem_map.mp (hsub.subset hnew)
      refine ⟨_, hrow event he, ?_⟩
      rw [settledRow, if_pos hnew]
      rfl

theorem History.Kept.stage (hk : h.Kept) (eventId aggregateId eventType payload : String) (createdAt : ℤ) :
    (h.step fl (.stage eventId aggregateId eventType payload createdAt)).Kept := by
  refine ⟨hk.once, fun known hmem => ?_⟩
  obtain ⟨entry, hfound, hstatus⟩ := hk.published known hmem
  show ∃ entry, (createEvent h.table eventId aggregateId eventType payload createdAt).get? known = some entry ∧ _
  unfold createEvent
  split
  · exact ⟨entry, hfound, hstatus⟩
  next hnew =>
    have hne : known ≠ eventId := fun heq => hnew (heq ▸ Dict.get?_isSome.mp (by rw [hfound]; rfl))
    rw [Dict.get?_set_ne _ hne]
    exact ⟨entry, hfound, hstatus⟩

/-- **The publisher is reliable over any number of runs exactly when every run finds only payloads that are JSON objects.**
Source: `outbox_publisher.py`, `OutboxPublisher.process_pending_events`. Kind: T -/
theorem reliable_iff (fl : Floats F) (table : Dict String OutboxEntry) (steps : List OutboxStep) :
    Reliable fl table steps ↔
      Along (History.step fl) (fun h s => ∀ c, s = .run c → Readable fl c h.table) ⟨table, []⟩ steps := by
  have hsettled : Along (History.step fl) (fun h s => ∀ c, s = .run c → Settled c h.table (processPendingEvents fl c h.table))
      ⟨table, []⟩ steps ↔ Along (History.step fl) (fun h s => ∀ c, s = .run c → Readable fl c h.table) ⟨table, []⟩ steps :=
    along_congr fun h s => forall₂_congr fun c _ => settled_iff
  constructor
  · exact fun h => hsettled.mp h.settled
  · intro h
    refine ⟨hsettled.mpr h, ?_⟩
    have hkept := h.invariant (I := History.Kept) (fun h s hk hs => by
      cases s with
      | run c => exact hk.run (hs c rfl)
      | stage eventId aggregateId eventType payload createdAt => exact hk.stage eventId aggregateId eventType payload createdAt)
      ⟨List.nodup_nil, fun _ hmem => absurd hmem List.not_mem_nil⟩
    exact (hkept _ (foldl_mem_reached _ _)).once

end runs

/-- Two pending events, the second with a list as its payload. Kind: D -/
def mixed : Dict String OutboxEntry :=
  createEvent (createEvent Dict.empty "evt-1" "task-1" "TASK_CREATED" "\x7b\x7d" 1) "evt-2" "task-2" "TASK_CREATED" "[]" 2

/-- The queue accepts everything. Kind: D -/
def accepting : Circumstances := { queue := fun _ => true }

/-- Each of two runs puts the task of the first event into the queue and ends with an exception, and both events are as pending as
before. Source: `outbox_publisher.py`, `process_pending_events`. Kind: C -/
theorem malformed_blocks :
    (processPendingEvents noFloats accepting mixed).returned = none ∧
      (processPendingEvents noFloats accepting mixed).table.values.map (fun entry => (entry.status, entry.attemptCount)) =
        [(.pending, 0), (.pending, 0)] ∧
      ([.run accepting, .run accepting].foldl (History.step noFloats) ⟨mixed, []⟩).enqueuedIds = ["evt-1", "evt-1"] ∧
      ¬Reliable noFloats mixed [.run accepting, .run accepting] := by
  have hruns : ([.run accepting, .run accepting].foldl (History.step noFloats) ⟨mixed, []⟩).enqueuedIds = ["evt-1", "evt-1"] := by
    decide +kernel
  refine ⟨by decide +kernel, by decide +kernel, hruns, fun h => ?_⟩
  have honce := h.once
  rw [hruns] at honce
  exact absurd honce (by decide)

end OutboxPublisher

end KarsaSec.Persistence
