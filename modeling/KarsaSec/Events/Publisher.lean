import KarsaSec.Found.Dict
import KarsaSec.Found.Runs
import KarsaSec.Found.Sorting
import Mathlib.Data.Prod.Lex

/-!
# Publishing from the outbox

`TransactionalOutbox.claim_pending_events`, `mark_published` and `mark_failed`: publishers claim pending events
and report what became of them.

* `claimPendingEvents` takes events in the order of their timestamps; the database is free in the order of equal
  ones, and leaves out rows that others have locked.
* `PublisherCall.Guarded` is what is expected of a call: PUBLISHED stays, and only the publisher that holds the
  claim of an event, or one that claims it, changes its status.
* `mark_failed` looks neither at the status nor at the claim: `published_event_becomes_pending`.
* `guarded_run_iff`: a run is as expected exactly when each `mark_failed` in it is made by the holder, or leaves
  the status as it was.
-/

namespace KarsaSec.Events

open KarsaSec.Found

/-- Source: `models.py`, `OutboxEventModel.status`. Kind: D -/
inductive OutboxStatus
  | pending
  | claimed
  | published
  | failed
  deriving DecidableEq, Repr

/-- An event in the outbox, without its identifier. Source: `models.py`, `OutboxEventModel`. Kind: D -/
structure OutboxEntry where
  aggregateId : String
  aggregateType : String := "remediation_task"
  eventType : String
  payload : String
  eventHash : Option String := none
  aggregateSequence : ℤ
  status : OutboxStatus := .pending
  claimedBy : Option String := none
  claimedAt : Option ℤ := none
  publisherLeaseToken : Option String := none
  attemptCount : ℤ := 0
  publishedAt : Option ℤ := none
  createdAt : ℤ
  deriving DecidableEq

/-- Source: `publisher.py`, `ReliableEventPublisher.__init__`. Kind: D -/
structure Publisher where
  publisherId : String
  leaseToken : String
  deriving DecidableEq

namespace OutboxEntry

variable (entry : OutboxEntry)

/-- The publisher has the claim of the event. Source: `outbox.py`, `mark_published`. Kind: D -/
def HeldBy (publisher : Publisher) : Prop :=
  entry.status = .claimed ∧ entry.claimedBy = some publisher.publisherId ∧
    entry.publisherLeaseToken = some publisher.leaseToken

instance (publisher : Publisher) : Decidable (entry.HeldBy publisher) :=
  inferInstanceAs (Decidable (_ ∧ _ ∧ _))

/-- Source: `outbox.py`, `claim_pending_events`. Kind: D -/
def claim (publisher : Publisher) (now : ℤ) : OutboxEntry :=
  { entry with
    status := .claimed
    claimedBy := some publisher.publisherId
    publisherLeaseToken := some publisher.leaseToken
    claimedAt := some now }

/-- Source: `outbox.py`, `mark_published`. Kind: D -/
def publish (now : ℤ) : OutboxEntry := { entry with status := .published, publishedAt := some now }

/-- Source: `outbox.py`, `mark_failed`. Kind: D -/
def fail (maxAttempts : ℤ) : OutboxEntry :=
  { entry with
    attemptCount := entry.attemptCount + 1
    status := if maxAttempts ≤ entry.attemptCount + 1 then .failed else .pending
    claimedBy := none
    claimedAt := none
    publisherLeaseToken := none }

end OutboxEntry

namespace TransactionalOutbox

variable (table : Dict String OutboxEntry)

/-- The events that a publisher gets, earliest first.
Source: `outbox.py`, `claim_pending_events`, `events`
Kind: D -/
def pendingEvents (locked : List String) (tie : String → ℕ) (limit : ℕ) : List (String × OutboxEntry) :=
  (sortBy (fun p : String × OutboxEntry => toLex (p.2.createdAt, tie p.1))
    (table.entries.filter fun p => p.2.status = .pending ∧ p.1 ∉ locked)).take limit

/-- Source: `outbox.py`, `claim_pending_events`. Kind: D -/
def claimPendingEvents (publisher : Publisher) (now : ℤ) (events : List (String × OutboxEntry)) :
    Dict String OutboxEntry :=
  events.foldl (fun table p => table.set p.1 (p.2.claim publisher now)) table

/-- Source: `outbox.py`, `mark_published`. Kind: D -/
def markPublished (eventId : String) (publisher : Publisher) (now : ℤ) : Dict String OutboxEntry × Bool :=
  match table.get? eventId with
  | none => (table, false)
  | some entry =>
    if entry.HeldBy publisher then (table.set eventId (entry.publish now), true) else (table, false)

/-- Neither the publisher nor its message is looked at. Source: `outbox.py`, `mark_failed`. Kind: D -/
def markFailed (eventId _publisherId _errorMessage : String) (maxAttempts : ℤ) : Dict String OutboxEntry :=
  match table.get? eventId with
  | none => table
  | some entry => table.set eventId (entry.fail maxAttempts)

end TransactionalOutbox

/-- A call of a publisher, with what it reads of the clock and of the locks of others, or a new event that an
operation stages. Source: `outbox.py`. Kind: D -/
inductive PublisherCall
  | claim (publisher : Publisher) (limit : ℕ) (now : ℤ) (locked : List String) (tie : String → ℕ)
  | published (publisher : Publisher) (eventId : String) (now : ℤ)
  | failed (publisher : Publisher) (eventId errorMessage : String) (maxAttempts : ℤ)
  | stage (eventId : String) (entry : OutboxEntry)

namespace PublisherCall

open TransactionalOutbox

/-- The outbox after a call. Kind: D -/
def step (table : Dict String OutboxEntry) : PublisherCall → Dict String OutboxEntry
  | claim publisher limit now locked tie =>
    claimPendingEvents table publisher now (pendingEvents table locked tie limit)
  | published publisher eventId now => (markPublished table eventId publisher now).1
  | failed publisher eventId errorMessage maxAttempts =>
    markFailed table eventId publisher.publisherId errorMessage maxAttempts
  | stage eventId entry => if table.contains eventId then table else table.set eventId entry

/-- The call claims the event, which nobody holds, or is made by the publisher that holds it. Kind: D -/
def MayChange (entry : OutboxEntry) : PublisherCall → Prop
  | claim _ _ _ _ _ => entry.status = .pending
  | published publisher _ _ => entry.HeldBy publisher
  | failed publisher _ _ _ => entry.HeldBy publisher
  | stage _ _ => False

/-- What is expected of a call for each event that is there. Kind: D -/
structure Guarded (table : Dict String OutboxEntry) (call : PublisherCall) : Prop where
  absorbing : ∀ eventId entry, table.get? eventId = some entry → entry.status = .published →
    ∃ entry', (step table call).get? eventId = some entry' ∧ entry'.status = .published
  holder : ∀ eventId entry, table.get? eventId = some entry →
    ∃ entry', (step table call).get? eventId = some entry' ∧
      (entry'.status ≠ entry.status → call.MayChange entry)

/-- A failure is reported by the publisher that holds the event, or leaves the status as it was. Kind: D -/
def Entitled (table : Dict String OutboxEntry) : PublisherCall → Prop
  | failed publisher eventId _ maxAttempts => ∀ entry, table.get? eventId = some entry →
      entry.HeldBy publisher ∨
        entry.status = .pending ∧ entry.attemptCount + 1 < maxAttempts ∨
          entry.status = .failed ∧ maxAttempts ≤ entry.attemptCount + 1
  | _ => True

/-! ## Claims -/

section

variable {table : Dict String OutboxEntry} (publisher : Publisher) (now : ℤ)

/-- The event after a claim: as it was, or claimed. Kind: L -/
theorem get?_claimPendingEvents (events : List (String × OutboxEntry)) (table : Dict String OutboxEntry)
    (eventId : String) :
    (claimPendingEvents table publisher now events).get? eventId = table.get? eventId ∨
      ∃ entry, (eventId, entry) ∈ events ∧
        (claimPendingEvents table publisher now events).get? eventId = some (entry.claim publisher now) := by
  induction events generalizing table with
  | nil => exact Or.inl rfl
  | cons p events ih =>
    rcases ih (table.set p.1 (p.2.claim publisher now)) with hsame | ⟨entry, hmem, hclaimed⟩
    · by_cases hkey : eventId = p.1
      · subst hkey
        exact Or.inr ⟨p.2, List.mem_cons_self, hsame.trans (Dict.get?_set_self _ _ _)⟩
      · exact Or.inl (hsame.trans (Dict.get?_set_ne _ hkey _))
    · exact Or.inr ⟨entry, List.mem_cons_of_mem _ hmem, hclaimed⟩

theorem mem_pendingEvents {locked : List String} {tie : String → ℕ} {limit : ℕ} {eventId : String}
    {entry : OutboxEntry} (h : (eventId, entry) ∈ pendingEvents table locked tie limit) :
    table.get? eventId = some entry ∧ entry.status = .pending ∧ eventId ∉ locked := by
  have hsorted := List.mem_of_mem_take h
  rw [(sortBy_perm _ _).mem_iff, List.mem_filter] at hsorted
  exact ⟨Dict.mem_entries.mp hsorted.1, of_decide_eq_true hsorted.2⟩

theorem claim_cases {locked : List String} {tie : String → ℕ} {limit : ℕ} {eventId : String}
    {entry : OutboxEntry} (hfound : table.get? eventId = some entry) :
    (claimPendingEvents table publisher now (pendingEvents table locked tie limit)).get? eventId = some entry ∨
      entry.status = .pending ∧
        (claimPendingEvents table publisher now (pendingEvents table locked tie limit)).get? eventId =
          some (entry.claim publisher now) := by
  rcases get?_claimPendingEvents publisher now (pendingEvents table locked tie limit) table eventId with hsame |
    ⟨entry', hmem, hclaimed⟩
  · exact Or.inl (hsame.trans hfound)
  · obtain ⟨hfound', hpending, _⟩ := mem_pendingEvents hmem
    cases hfound.symm.trans hfound'
    exact Or.inr ⟨hpending, hclaimed⟩

end

/-! ## What a call does to an event -/

/-- An event after a call: as it was, claimed, published by its holder, or failed. Kind: L -/
theorem step_cases {table : Dict String OutboxEntry} (call : PublisherCall) {eventId : String}
    {entry : OutboxEntry} (hfound : table.get? eventId = some entry) :
    (step table call).get? eventId = some entry ∨
      (∃ publisher limit now locked tie, call = claim publisher limit now locked tie ∧
        entry.status = .pending ∧ (step table call).get? eventId = some (entry.claim publisher now)) ∨
      (∃ publisher now, call = published publisher eventId now ∧ entry.HeldBy publisher ∧
        (step table call).get? eventId = some (entry.publish now)) ∨
      ∃ publisher message maxAttempts, call = failed publisher eventId message maxAttempts ∧
        (step table call).get? eventId = some (entry.fail maxAttempts) := by
  cases call with
  | claim publisher limit now locked tie =>
    rcases claim_cases _ _ hfound with hsame | ⟨hpending, hclaimed⟩
    · exact Or.inl hsame
    · exact Or.inr (Or.inl ⟨publisher, limit, now, locked, tie, rfl, hpending, hclaimed⟩)
  | published publisher published now =>
    show (markPublished table published publisher now).1.get? eventId = some entry ∨ _
    by_cases hkey : eventId = published
    · subst hkey
      by_cases hheld : entry.HeldBy publisher
      · refine Or.inr (Or.inr (Or.inl ⟨publisher, now, rfl, hheld, ?_⟩))
        show (markPublished table eventId publisher now).1.get? eventId = _
        unfold markPublished
        rw [hfound]
        dsimp only
        rw [if_pos hheld]
        exact Dict.get?_set_self _ _ _
      · simp_all [markPublished]
    · left
      unfold markPublished
      split
      · exact hfound
      · grind [Dict.get?_set_ne]
  | failed publisher failing message maxAttempts =>
    show (markFailed table failing publisher.publisherId message maxAttempts).get? eventId = some entry ∨ _
    by_cases hkey : eventId = failing
    · subst hkey
      refine Or.inr (Or.inr (Or.inr ⟨publisher, message, maxAttempts, rfl, ?_⟩))
      show (markFailed table eventId publisher.publisherId message maxAttempts).get? eventId = _
      unfold markFailed
      rw [hfound]
      exact Dict.get?_set_self _ _ _
    · grind [markFailed, Dict.get?_set_ne]
  | stage staged new =>
    left
    show (if table.contains staged then table else table.set staged new).get? eventId = some entry
    split
    · exact hfound
    · grind [Dict.contains, Dict.get?_set_ne]

theorem status_fail (entry : OutboxEntry) (maxAttempts : ℤ) :
    (entry.fail maxAttempts).status = if maxAttempts ≤ entry.attemptCount + 1 then .failed else .pending := rfl

/-- A failure leaves the status where the event was to be tried again, or given up, already. Kind: L -/
theorem status_fail_eq_iff (entry : OutboxEntry) (maxAttempts : ℤ) :
    (entry.fail maxAttempts).status = entry.status ↔
      entry.status = .pending ∧ entry.attemptCount + 1 < maxAttempts ∨
        entry.status = .failed ∧ maxAttempts ≤ entry.attemptCount + 1 := by
  rw [status_fail]
  constructor
  · grind
  · grind

theorem guarded_of_entitled {table : Dict String OutboxEntry} {call : PublisherCall}
    (h : Entitled table call) : Guarded table call := by
  have hstep : ∀ eventId entry, table.get? eventId = some entry →
      ∃ entry', (step table call).get? eventId = some entry' ∧
        (entry'.status = entry.status ∨ entry.status ≠ .published ∧ call.MayChange entry) := by
    intro eventId entry hfound
    rcases step_cases call hfound with hsame | ⟨publisher, limit, now, locked, tie, rfl, hpending, hclaimed⟩ |
      ⟨publisher, now, rfl, hheld, hpublished⟩ | ⟨publisher, message, maxAttempts, rfl, hfailed⟩
    · exact ⟨entry, hsame, Or.inl rfl⟩
    · exact ⟨_, hclaimed, Or.inr ⟨by rw [hpending]; decide, hpending⟩⟩
    · exact ⟨_, hpublished, Or.inr ⟨by rw [hheld.1]; decide, hheld⟩⟩
    · refine ⟨_, hfailed, ?_⟩
      rcases h entry hfound with hheld | hstays
      · exact Or.inr ⟨by rw [hheld.1]; decide, hheld⟩
      · exact Or.inl ((status_fail_eq_iff entry maxAttempts).mpr hstays)
  refine ⟨fun eventId entry hfound hpublished => ?_, fun eventId entry hfound => ?_⟩
  · grind
  · grind

theorem entitled_of_guarded {table : Dict String OutboxEntry} {call : PublisherCall}
    (h : Guarded table call) : Entitled table call := by
  cases call with
  | failed publisher eventId message maxAttempts =>
    intro entry hfound
    obtain ⟨entry', hfound', hmay⟩ := h.holder eventId entry hfound
    have hfailed : (step table (failed publisher eventId message maxAttempts)).get? eventId =
        some (entry.fail maxAttempts) := by
      show (markFailed table eventId publisher.publisherId message maxAttempts).get? eventId = _
      unfold markFailed
      rw [hfound]
      exact Dict.get?_set_self _ _ _
    cases hfailed.symm.trans hfound'
    by_cases hsame : (entry.fail maxAttempts).status = entry.status
    · exact Or.inr ((status_fail_eq_iff entry maxAttempts).mp hsame)
    · exact Or.inl (hmay hsame)
  | _ => trivial

/-! ## Runs -/

/-- What is expected of a run: each call is guarded, and an event that was PUBLISHED is so ever after. Kind: D -/
structure GuardedRun (table : Dict String OutboxEntry) (calls : List PublisherCall) : Prop where
  guarded : Along step Guarded table calls
  kept : ∀ before after eventId entry, calls = before ++ after →
    (before.foldl step table).get? eventId = some entry → entry.status = .published →
      ∃ entry', (calls.foldl step table).get? eventId = some entry' ∧ entry'.status = .published

theorem published_foldl {calls : List PublisherCall} {table : Dict String OutboxEntry}
    (h : Along step Guarded table calls) {eventId : String} {entry : OutboxEntry}
    (hfound : table.get? eventId = some entry) (hpublished : entry.status = .published) :
    ∃ entry', (calls.foldl step table).get? eventId = some entry' ∧ entry'.status = .published := by
  induction calls generalizing table entry with
  | nil => exact ⟨entry, hfound, hpublished⟩
  | cons call calls ih =>
    obtain ⟨entry', hfound', hpublished'⟩ := h.1.absorbing eventId entry hfound hpublished
    exact ih h.2 hfound' hpublished'

/-- **A run is as expected exactly when each failure is reported by the publisher that holds the event, or leaves
the status as it was.** Kind: P -/
theorem guarded_run_iff (table : Dict String OutboxEntry) (calls : List PublisherCall) :
    GuardedRun table calls ↔ Along step Entitled table calls := by
  constructor
  · intro h
    exact h.guarded.mono fun table call hguarded => entitled_of_guarded hguarded
  · intro h
    have hguarded : Along step Guarded table calls := h.mono fun table call => guarded_of_entitled
    refine ⟨hguarded, ?_⟩
    rintro before after eventId entry rfl hfound hpublished
    rw [List.foldl_append]
    exact published_foldl ((along_append.mp hguarded).2) hfound hpublished

/-- A slow publisher fails an event that another one has claimed and published since. Kind: D -/
def slowPublisher : List PublisherCall :=
  [.stage "e" { aggregateId := "t", eventType := "TASK_CREATED", payload := "", aggregateSequence := 1, createdAt := 0 },
    .claim ⟨"p", "1"⟩ 10 1 [] (fun _ => 0), .failed ⟨"p", "1"⟩ "e" "timeout" 5,
    .claim ⟨"q", "2"⟩ 10 2 [] (fun _ => 0), .published ⟨"q", "2"⟩ "e" 3, .failed ⟨"p", "1"⟩ "e" "timeout" 5]

/-- The event is PUBLISHED, and then PENDING again. -/
theorem published_event_becomes_pending : ¬ GuardedRun Dict.empty slowPublisher := by
  intro h
  obtain ⟨entry, hfound, hpublished⟩ := h.kept (slowPublisher.take 5) (slowPublisher.drop 5) "e" _ rfl rfl rfl
  have hpending : (slowPublisher.foldl step Dict.empty).get? "e" = some
      { aggregateId := "t", eventType := "TASK_CREATED", payload := "", aggregateSequence := 1, createdAt := 0,
        attemptCount := 2, publishedAt := some 3 } := rfl
  cases hpending.symm.trans hfound
  cases hpublished

end PublisherCall

end KarsaSec.Events
