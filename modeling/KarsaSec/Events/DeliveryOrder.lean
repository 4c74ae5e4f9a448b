import KarsaSec.Events.Publisher

/-!
# The order of delivery

`ReliableEventPublisher.poll_and_publish`: a publisher claims a batch of events, hands them to the handler one by
one, and commits. Several publishers do so at the same time.

* `Publishing` is the outbox with the open polls. A row that a poll has claimed is locked until its commit, so
  what it writes meanwhile is seen by nobody else and stands in the table at once.
* Where the handler raises, the warning that reports it raises as well: it is called without a message. The
  exception leaves the poll, whose transaction is rolled back, but what the handler has received stays received.
* `DeliveredInOrder` is what is expected: the handler gets an event only when every earlier one of its aggregate has
  been delivered, and never goes back.
* A poll leaves out the rows that another one has locked: `later_event_overtakes`.
* `orderly_run_delivers`: where a claimed event leaves no earlier one of its aggregate behind, and none is claimed
  anew by another publisher after a later one was received, events are delivered in order.
-/

namespace KarsaSec.Events

open KarsaSec.Found TransactionalOutbox

/-! ## Polls -/

/-- The handler was called with an event, and returned or raised. Kind: D -/
structure Delivery where
  eventId : String
  entry : OutboxEntry
  returned : Bool

/-- The outbox, the events that each publisher has claimed and not yet handled, the rows that open transactions have
locked, as they were, the identifiers that each publisher has processed, and the calls of the handler.
Source: `publisher.py`, `ReliableEventPublisher`
Kind: D -/
structure Publishing (π : Type) where
  table : Dict String OutboxEntry
  batch : π → Option (List (String × OutboxEntry)) := fun _ => none
  locks : List (π × String × OutboxEntry) := []
  processed : π → List String := fun _ => []
  received : List Delivery := []

/-- A step of a publisher; the handler raises, or returns. Kind: D -/
inductive PollStep
  | poll (limit : ℕ) (now : ℤ) (tie : String → ℕ)
  | handle (raises : Bool) (now : ℤ)
  | commit

namespace Publishing

variable {π : Type} [DecidableEq π]

/-- The rows that open transactions have locked. Kind: D -/
def locked (s : Publishing π) : List String := s.locks.map fun lock => lock.2.1

/-- Source: `publisher.py`, `poll_and_publish`, `claimed_events`. Kind: D -/
def claim (publishers : π → Publisher) (s : Publishing π) (p : π) (limit : ℕ) (now : ℤ) (tie : String → ℕ) :
    Publishing π :=
  let events := pendingEvents s.table s.locked tie limit
  { s with
    table := claimPendingEvents s.table (publishers p) now events
    batch := Function.update s.batch p (some events)
    locks := s.locks ++ events.map fun event => (p, event) }

/-- The transaction of a poll is over. Source: `db.py`, `session_scope`, `session.commit`. Kind: D -/
def release (s : Publishing π) (p : π) : Publishing π :=
  { s with
    batch := Function.update s.batch p none
    locks := s.locks.filter fun lock => lock.1 ≠ p }

/-- An exception leaves a poll: the rows that it has claimed are as they were.
Source: `db.py`, `session_scope`, `session.rollback`
Kind: D -/
def rollback (s : Publishing π) (p : π) : Publishing π :=
  let rows := s.locks.filter fun lock => lock.1 = p
  { s.release p with table := rows.foldl (fun table lock => table.set lock.2.1 lock.2.2) s.table }

/-- One turn of the loop. Source: `publisher.py`, `poll_and_publish`, `for evt in claimed_events`. Kind: D -/
def handle (publishers : π → Publisher) (s : Publishing π) (p : π) (event : String × OutboxEntry)
    (rest : List (String × OutboxEntry)) (raises : Bool) (now : ℤ) : Publishing π :=
  if event.1 ∈ s.processed p then
    { s with
      table := (markPublished s.table event.1 (publishers p) now).1
      batch := Function.update s.batch p (some rest) }
  else if raises then
    -- `default_logger.warning` lacks its `message`: the `TypeError` comes before `mark_failed`
    rollback { s with received := s.received ++ [⟨event.1, event.2, false⟩] } p
  else
    { s with
      table := (markPublished s.table event.1 (publishers p) now).1
      batch := Function.update s.batch p (some rest)
      processed := Function.update s.processed p (event.1 :: s.processed p)
      received := s.received ++ [⟨event.1, event.2, true⟩] }

/-- A step of a publisher; one that does not fit where it stands changes nothing.
Source: `publisher.py`, `poll_and_publish`
Kind: D -/
def step (publishers : π → Publisher) (s : Publishing π) : π × PollStep → Publishing π
  | (p, .poll limit now tie) =>
    match s.batch p with
    | none => claim publishers s p limit now tie
    | some _ => s
  | (p, .handle raises now) =>
    match s.batch p with
    | some (event :: rest) => handle publishers s p event rest raises now
    | _ => s
  | (p, .commit) =>
    match s.batch p with
    | some [] => s.release p
    | _ => s

end Publishing

/-! ## What is expected -/

/-- An event comes before another one of the same aggregate. Kind: D -/
def Precedes (earlier later : OutboxEntry) : Prop :=
  earlier.aggregateType = later.aggregateType ∧ earlier.aggregateId = later.aggregateId ∧
    earlier.aggregateSequence < later.aggregateSequence

/-- The handler has returned for an event. Kind: D -/
def Delivered (received : List Delivery) (eventId : String) : Prop :=
  ∃ d ∈ received, d.eventId = eventId ∧ d.returned = true

/-- The handler gets an event after every earlier one of its aggregate that was staged has been delivered, and
none that precedes one that it got before. Kind: D -/
structure DeliveredInOrder (staged : Dict String OutboxEntry) (received : List Delivery) : Prop where
  earlier : ∀ before d after, received = before ++ d :: after →
    ∀ eventId entry, staged.get? eventId = some entry → Precedes entry d.entry → Delivered before eventId
  increasing : received.Pairwise fun d d' => ¬ Precedes d'.entry d.entry

/-- When an event is claimed, each earlier one of its aggregate is free and either was delivered and is PUBLISHED, or
can be claimed too and stands before it by timestamp; and the publisher has processed the event, or the handler has
received no later one of its aggregate. Kind: D -/
def Orderly {π : Type} (s : Publishing π) : π × PollStep → Prop
  | (p, .poll limit _ tie) => s.batch p = none → ∀ event ∈ pendingEvents s.table s.locked tie limit,
      (∀ eventId entry, s.table.get? eventId = some entry → Precedes entry event.2 → eventId ∉ s.locked ∧
        (entry.status = .published ∧ Delivered s.received eventId ∨
          entry.status = .pending ∧ toLex (entry.createdAt, tie eventId) < toLex (event.2.createdAt, tie event.1))) ∧
      (event.1 ∈ s.processed p ∨ ∀ d ∈ s.received, ¬ Precedes event.2 d.entry)
  | _ => True

/-! ## Events that keep what they are -/

/-- Two entries of one event: what does not change while it is published. Kind: D -/
structure SameEvent (entry entry' : OutboxEntry) : Prop where
  aggregateType : entry'.aggregateType = entry.aggregateType
  aggregateId : entry'.aggregateId = entry.aggregateId
  aggregateSequence : entry'.aggregateSequence = entry.aggregateSequence
  createdAt : entry'.createdAt = entry.createdAt

theorem SameEvent.refl (entry : OutboxEntry) : SameEvent entry entry := ⟨rfl, rfl, rfl, rfl⟩

theorem SameEvent.trans {a b c : OutboxEntry} (h : SameEvent a b) (h' : SameEvent b c) : SameEvent a c :=
  ⟨h'.1.trans h.1, h'.2.trans h.2, h'.3.trans h.3, h'.4.trans h.4⟩

theorem SameEvent.symm {a b : OutboxEntry} (h : SameEvent a b) : SameEvent b a :=
  ⟨h.1.symm, h.2.symm, h.3.symm, h.4.symm⟩

theorem Precedes.congr {a a' b b' : OutboxEntry} (h : Precedes a b) (ha : SameEvent a a') (hb : SameEvent b b') :
    Precedes a' b' := by
  obtain ⟨htype, hid, hlt⟩ := h
  refine ⟨?_, ?_, ?_⟩
  · rw [ha.aggregateType, hb.aggregateType, htype]
  · rw [ha.aggregateId, hb.aggregateId, hid]
  · rwa [ha.aggregateSequence, hb.aggregateSequence]

/-- Two tables with the same events. Kind: D -/
structure SameEvents (table table' : Dict String OutboxEntry) : Prop where
  there : ∀ eventId entry, table.get? eventId = some entry →
    ∃ entry', table'.get? eventId = some entry' ∧ SameEvent entry entry'
  back : ∀ eventId entry', table'.get? eventId = some entry' →
    ∃ entry, table.get? eventId = some entry ∧ SameEvent entry entry'

theorem SameEvents.refl (table : Dict String OutboxEntry) : SameEvents table table :=
  ⟨fun _ entry h => ⟨entry, h, .refl entry⟩, fun _ entry h => ⟨entry, h, .refl entry⟩⟩

theorem SameEvents.set {table table' : Dict String OutboxEntry} (h : SameEvents table table')
    {eventId : String} {old new : OutboxEntry} (hold : table'.get? eventId = some old) (hsame : SameEvent old new) :
    SameEvents table (table'.set eventId new) := by
  refine ⟨fun id entry hentry => ?_, fun id entry' hentry' => ?_⟩
  · obtain ⟨entry', hentry', hentries⟩ := h.there id entry hentry
    by_cases hkey : id = eventId
    · subst hkey
      cases hold.symm.trans hentry'
      exact ⟨new, Dict.get?_set_self _ _ _, hentries.trans hsame⟩
    · simp_all [Dict.get?_set_ne]
  · by_cases hkey : id = eventId
    · subst hkey
      rw [Dict.get?_set_self] at hentry'
      cases hentry'
      obtain ⟨entry, hentry, hentries⟩ := h.back id old hold
      exact ⟨entry, hentry, hentries.trans hsame⟩
    · rw [Dict.get?_set_ne _ hkey] at hentry'
      exact h.back id entry' hentry'

/-! ## The batch of a poll -/

section

variable {table : Dict String OutboxEntry} {publisher : Publisher} {now : ℤ} {locked : List String}
  {tie : String → ℕ} {limit : ℕ}

theorem nodup_pendingEvents (table : Dict String OutboxEntry) (locked : List String) (tie : String → ℕ)
    (limit : ℕ) : ((pendingEvents table locked tie limit).map Prod.fst).Nodup := by
  have hsorted : ((sortBy (fun p : String × OutboxEntry => toLex (p.2.createdAt, tie p.1))
      (table.entries.filter fun p => p.2.status = .pending ∧ p.1 ∉ locked)).map Prod.fst).Nodup := by
    rw [((sortBy_perm _ _).map _).nodup_iff]
    exact table.nodup.sublist (List.filter_sublist.map _)
  exact hsorted.sublist ((List.take_sublist _ _).map _)

/-- What is free to be claimed and comes before an event by timestamp stands before it in the batch. Kind: L -/
theorem mem_before_pending {pre post : List (String × OutboxEntry)} {event : String × OutboxEntry}
    (hbatch : pendingEvents table locked tie limit = pre ++ event :: post) {eventId : String}
    {entry : OutboxEntry} (hfound : table.get? eventId = some entry) (hpending : entry.status = .pending)
    (hfree : eventId ∉ locked)
    (hearlier : toLex (entry.createdAt, tie eventId) < toLex (event.2.createdAt, tie event.1)) :
    eventId ∈ pre.map Prod.fst := by
  have hmem : (eventId, entry) ∈ sortBy (fun p : String × OutboxEntry => toLex (p.2.createdAt, tie p.1))
      (table.entries.filter fun p => p.2.status = .pending ∧ p.1 ∉ locked) := by
    rw [(sortBy_perm _ _).mem_iff, List.mem_filter]
    exact ⟨Dict.mem_entries.mpr hfound, decide_eq_true ⟨hpending, hfree⟩⟩
  have hbefore : (eventId, entry) ∈ pre :=
    mem_before_of_lt (pairwise_sortBy _ _) hbatch hmem hearlier
  exact List.mem_map_of_mem (f := Prod.fst) hbefore

theorem sameEvents_claim {staged : Dict String OutboxEntry} (h : SameEvents staged table) :
    SameEvents staged (claimPendingEvents table publisher now (pendingEvents table locked tie limit)) := by
  have hclaim : ∀ eventId entry, table.get? eventId = some entry → ∃ entry',
      (claimPendingEvents table publisher now (pendingEvents table locked tie limit)).get? eventId = some entry' ∧
        SameEvent entry entry' := by
    intro eventId entry hfound
    rcases PublisherCall.claim_cases publisher now hfound with hsame | ⟨_, hclaimed⟩
    · exact ⟨entry, hsame, .refl entry⟩
    · exact ⟨_, hclaimed, rfl, rfl, rfl, rfl⟩
  refine ⟨fun eventId entry hentry => ?_, fun eventId entry' hentry' => ?_⟩
  · obtain ⟨middle, hmiddle, hfirst⟩ := h.there eventId entry hentry
    obtain ⟨entry', hentry', hsecond⟩ := hclaim eventId middle hmiddle
    exact ⟨entry', hentry', hfirst.trans hsecond⟩
  · have hthere : ∃ middle, table.get? eventId = some middle := by
      rcases PublisherCall.get?_claimPendingEvents publisher now
        (pendingEvents table locked tie limit) table eventId with hsame | ⟨middle, hmem, _⟩
      · exact ⟨entry', hsame.symm.trans hentry'⟩
      · exact ⟨middle, (PublisherCall.mem_pendingEvents hmem).1⟩
    obtain ⟨middle, hmiddle⟩ := hthere
    obtain ⟨entry, hentry, hfirst⟩ := h.back eventId middle hmiddle
    obtain ⟨claimed, hclaimed, hsecond⟩ := hclaim eventId middle hmiddle
    cases hclaimed.symm.trans hentry'
    exact ⟨entry, hentry, hfirst.trans hsecond⟩

end

/-! ## What every step keeps -/

theorem Delivered.append {received : List Delivery} {eventId : String} (h : Delivered received eventId)
    (later : List Delivery) : Delivered (received ++ later) eventId := by
  obtain ⟨d, hd, hid⟩ := h
  exact ⟨d, List.mem_append_left _ hd, hid⟩

theorem delivered_snoc {received : List Delivery} {d : Delivery} {eventId : String} :
    Delivered (received ++ [d]) eventId ↔
      Delivered received eventId ∨ d.eventId = eventId ∧ d.returned = true := by
  constructor
  · rintro ⟨d', hd', hid⟩
    rcases List.mem_append.mp hd' with hmem | hlast
    · exact Or.inl ⟨d', hmem, hid⟩
    · rw [List.mem_singleton.mp hlast] at hid
      exact Or.inr hid
  · rintro (h | hid)
    · exact h.append [d]
    · exact ⟨d, List.mem_append_right _ (List.mem_singleton_self d), hid⟩

theorem DeliveredInOrder.snoc {staged : Dict String OutboxEntry} {received : List Delivery}
    (h : DeliveredInOrder staged received) {d : Delivery}
    (hearlier : ∀ eventId entry, staged.get? eventId = some entry → Precedes entry d.entry →
      Delivered received eventId) (hlast : ∀ d' ∈ received, ¬ Precedes d.entry d'.entry) :
    DeliveredInOrder staged (received ++ [d]) := by
  refine ⟨fun before d' after hsplit => ?_, ?_⟩
  · rcases List.eq_nil_or_concat after with rfl | ⟨after, z, rfl⟩
    · grind [List.append_inj']
    · rw [List.concat_eq_append, ← List.cons_append, ← List.append_assoc] at hsplit
      obtain ⟨hreceived, _⟩ := List.append_inj' hsplit rfl
      exact h.earlier before d' after hreceived
  · rw [List.pairwise_append]
    refine ⟨h.increasing, List.pairwise_singleton _ _, fun d' hd' z hz => ?_⟩
    rw [List.mem_singleton.mp hz]
    exact hlast d' hd'

/-- An event is PUBLISHED, and no open transaction has locked it. Kind: D -/
structure Settled {π : Type} (s : Publishing π) (eventId : String) : Prop where
  published : ∃ entry, s.table.get? eventId = some entry ∧ entry.status = .published
  free : eventId ∉ s.locked

/-- What holds in every state of an orderly run: what a poll has still to handle is locked by it; each earlier event
of the aggregate is settled or locked by the same poll, and is delivered or stands before it; and no later one was
received, unless the event is processed. Kind: D -/
structure Kept {π : Type} (staged : Dict String OutboxEntry) (s : Publishing π) : Prop where
  same : SameEvents staged s.table
  claimed : ∀ p event, (p, event) ∈ s.locks → ∃ entry, staged.get? event.1 = some entry ∧ SameEvent entry event.2
  held : ∀ p batch, s.batch p = some batch → ∀ event ∈ batch, (p, event) ∈ s.locks
  exclusive : ∀ p p' event event', (p, event) ∈ s.locks → (p', event') ∈ s.locks → event.1 = event'.1 → p = p'
  processed : ∀ p, ∀ eventId ∈ s.processed p, Delivered s.received eventId
  settled : ∀ p batch, s.batch p = some batch → ∀ event ∈ batch, ∀ eventId entry,
    staged.get? eventId = some entry → Precedes entry event.2 →
      Settled s eventId ∨ ∃ row, (p, eventId, row) ∈ s.locks
  ready : ∀ p batch, s.batch p = some batch → ∀ pre event post, batch = pre ++ event :: post →
    ∀ eventId entry, staged.get? eventId = some entry → Precedes entry event.2 →
      Delivered s.received eventId ∨ eventId ∈ pre.map Prod.fst
  ordered : ∀ p batch, s.batch p = some batch → ∀ pre event post, batch = pre ++ event :: post →
    ∀ later ∈ post, ¬ Precedes later.2 event.2
  fresh : ∀ p batch, s.batch p = some batch → ∀ event ∈ batch,
    event.1 ∈ s.processed p ∨ ∀ d ∈ s.received, ¬ Precedes event.2 d.entry
  inOrder : DeliveredInOrder staged s.received

section

variable {π : Type} {publishers : π → Publisher} {staged : Dict String OutboxEntry} {s s' : Publishing π} {p : π}

theorem mem_locked {event : String × OutboxEntry} (h : (p, event) ∈ s.locks) : event.1 ∈ s.locked :=
  List.mem_map_of_mem (f := fun lock : π × String × OutboxEntry => lock.2.1) h

/-- The first event of a batch, if it is not processed, is next in its aggregate. Kind: L -/
theorem Kept.deliveredInOrder_snoc (h : Kept staged s) {event : String × OutboxEntry}
    {rest : List (String × OutboxEntry)} (hbatch : s.batch p = some (event :: rest))
    (hnew : event.1 ∉ s.processed p) (returned : Bool) :
    DeliveredInOrder staged (s.received ++ [⟨event.1, event.2, returned⟩]) := by
  refine h.inOrder.snoc (fun eventId entry hentry hprecedes => ?_) ?_
  · rcases h.ready p _ hbatch [] event rest rfl eventId entry hentry hprecedes with hdelivered | hnone
    · exact hdelivered
    · cases hnone
  · rcases h.fresh p _ hbatch event List.mem_cons_self with hprocessed | hnone
    · exact absurd hprocessed hnew
    · exact hnone

/-- No event that is still to be handled precedes the one that is handled. Kind: L -/
theorem Kept.not_precedes (h : Kept staged s) {event other : String × OutboxEntry}
    {rest batch : List (String × OutboxEntry)} (hbatch : s.batch p = some (event :: rest)) {q : π}
    (hother : other ∈ batch) (hq : q = p ∧ batch = rest ∨ q ≠ p ∧ s.batch q = some batch) :
    ¬ Precedes other.2 event.2 := by
  intro hprecedes
  rcases hq with ⟨rfl, rfl⟩ | ⟨hne, hq⟩
  · exact h.ordered q _ hbatch [] event batch rfl other hother hprecedes
  · have hlock := h.held q batch hq other hother
    obtain ⟨entry, hentry, hsame⟩ := h.claimed q other hlock
    rcases h.settled p _ hbatch event List.mem_cons_self other.1 entry hentry
      (hprecedes.congr hsame.symm (.refl _)) with hsettled | ⟨row, hrow⟩
    · exact hsettled.free (mem_locked hlock)
    · exact hne (h.exclusive q p other (other.1, row) hlock hrow rfl)

/-- Batches that lose their first events, which are delivered; locked rows are changed, and some of them released.
Kind: L -/
theorem Kept.advance (h : Kept staged s) (hsame : SameEvents staged s'.table)
    (hfree : ∀ eventId ∉ s.locked, s'.table.get? eventId = s.table.get? eventId)
    (hlocks : ∀ lock ∈ s'.locks, lock ∈ s.locks)
    (hbatch : ∀ q batch, s'.batch q = some batch → ∃ pre, s.batch q = some (pre ++ batch) ∧
      (∀ row, (q, row) ∈ s.locks → (q, row) ∈ s'.locks) ∧ ∀ event ∈ pre, Delivered s'.received event.1)
    (hgrows : ∀ eventId, Delivered s.received eventId → Delivered s'.received eventId)
    (hprocessed : ∀ q, ∀ eventId ∈ s'.processed q, Delivered s'.received eventId)
    (hfresh : ∀ q batch, s'.batch q = some batch → ∀ event ∈ batch,
      event.1 ∈ s'.processed q ∨ ∀ d ∈ s'.received, ¬ Precedes event.2 d.entry)
    (hinOrder : DeliveredInOrder staged s'.received) : Kept staged s' := by
  refine ⟨hsame, fun q event hlock => h.claimed q event (hlocks _ hlock), fun q batch hq event hevent => ?_,
    fun q q' event event' hq hq' => h.exclusive q q' event event' (hlocks _ hq) (hlocks _ hq'), hprocessed,
    fun q batch hq event hevent eventId entry hentry hprecedes => ?_,
    fun q batch hq pre event post hsplit eventId entry hentry hprecedes => ?_,
    fun q batch hq pre event post hsplit => ?_, hfresh, hinOrder⟩
  · obtain ⟨pre, hqbatch, hkept, _⟩ := hbatch q batch hq
    exact hkept event (h.held q _ hqbatch event (List.mem_append_right _ hevent))
  · obtain ⟨pre, hqbatch, hkept, _⟩ := hbatch q batch hq
    rcases h.settled q _ hqbatch event (List.mem_append_right _ hevent) eventId entry hentry hprecedes with
      ⟨⟨stored, hstored, hpublished⟩, hunlocked⟩ | ⟨row, hrow⟩
    · refine Or.inl ⟨⟨stored, (hfree eventId hunlocked).trans hstored, hpublished⟩, fun hmem => ?_⟩
      obtain ⟨lock, hlock, hid⟩ := List.mem_map.mp hmem
      exact hunlocked (hid ▸ mem_locked (hlocks lock hlock))
    · exact Or.inr ⟨row, hkept _ hrow⟩
  · obtain ⟨first, hqbatch, _, hdelivered⟩ := hbatch q batch hq
    subst hsplit
    rcases h.ready q _ hqbatch (first ++ pre) event post (List.append_assoc _ _ _).symm eventId entry hentry
      hprecedes with hbefore | hmem
    · exact Or.inl (hgrows eventId hbefore)
    · rw [List.map_append, List.mem_append] at hmem
      rcases hmem with hfirst | hpre
      · obtain ⟨head, hhead, rfl⟩ := List.mem_map.mp hfirst
        exact Or.inl (hdelivered head hhead)
      · exact Or.inr hpre
  · obtain ⟨first, hqbatch, _⟩ := hbatch q batch hq
    subst hsplit
    exact h.ordered q _ hqbatch (first ++ pre) event post (List.append_assoc _ _ _).symm

variable [DecidableEq π]

theorem update_some {batch rest : List (String × OutboxEntry)} {q : π}
    (h : Function.update s.batch p (some rest) q = some batch) :
    q = p ∧ batch = rest ∨ q ≠ p ∧ s.batch q = some batch := by
  by_cases hqp : q = p
  · subst hqp
    rw [Function.update_self] at h
    cases h
    exact Or.inl ⟨rfl, rfl⟩
  · rw [Function.update_of_ne hqp] at h
    exact Or.inr ⟨hqp, h⟩

theorem update_none {batch : List (String × OutboxEntry)} {q : π}
    (h : Function.update s.batch p none q = some batch) : q ≠ p ∧ s.batch q = some batch := by
  by_cases hqp : q = p
  · subst hqp
    rw [Function.update_self] at h
    cases h
  · rw [Function.update_of_ne hqp] at h
    exact ⟨hqp, h⟩

/-! ## Rows that are written -/

theorem sameEvents_markPublished {table : Dict String OutboxEntry} (h : SameEvents staged table)
    (eventId : String) (publisher : Publisher) (now : ℤ) :
    SameEvents staged (markPublished table eventId publisher now).1 := by
  unfold markPublished
  split
  · exact h
  · rename_i entry hentry
    split
    · exact h.set hentry ⟨rfl, rfl, rfl, rfl⟩
    · exact h

theorem get?_markPublished_ne (table : Dict String OutboxEntry) {eventId other : String} (h : other ≠ eventId)
    (publisher : Publisher) (now : ℤ) :
    (markPublished table eventId publisher now).1.get? other = table.get? other := by
  unfold markPublished
  split
  · rfl
  · split
    · exact Dict.get?_set_ne _ h _
    · rfl

omit [DecidableEq π] in
/-- Rows that are put back as they were. Kind: L -/
theorem sameEvents_restore {rows : List (π × String × OutboxEntry)} {table : Dict String OutboxEntry}
    (h : SameEvents staged table)
    (hrows : ∀ row ∈ rows, ∃ entry, staged.get? row.2.1 = some entry ∧ SameEvent entry row.2.2) :
    SameEvents staged (rows.foldl (fun table row => table.set row.2.1 row.2.2) table) := by
  induction rows generalizing table with
  | nil => exact h
  | cons row rows ih =>
    obtain ⟨entry, hentry, hrow⟩ := hrows row List.mem_cons_self
    obtain ⟨stored, hstored, hsame⟩ := h.there row.2.1 entry hentry
    exact ih (h.set hstored (hsame.symm.trans hrow)) fun other hother =>
      hrows other (List.mem_cons_of_mem _ hother)

omit [DecidableEq π] in
theorem get?_restore {rows : List (π × String × OutboxEntry)} {table : Dict String OutboxEntry} {eventId : String}
    (h : ∀ row ∈ rows, row.2.1 ≠ eventId) :
    (rows.foldl (fun table row => table.set row.2.1 row.2.2) table).get? eventId = table.get? eventId := by
  induction rows generalizing table with
  | nil => rfl
  | cons row rows ih =>
    rw [List.foldl_cons, ih fun other hother => h other (List.mem_cons_of_mem _ hother)]
    exact Dict.get?_set_ne _ (h row List.mem_cons_self).symm _

/-! ## Steps -/

/-- The locks of a poll are those of before and its own. Kind: L -/
theorem mem_locks_claim {q : π} {event : String × OutboxEntry} {limit : ℕ} {now : ℤ} {tie : String → ℕ} :
    (q, event) ∈ (s.claim publishers p limit now tie).locks ↔
      (q, event) ∈ s.locks ∨ q = p ∧ event ∈ pendingEvents s.table s.locked tie limit := by
  refine List.mem_append.trans (or_congr_right ⟨fun hlock => ?_, ?_⟩)
  · obtain ⟨other, hother, heq⟩ := List.mem_map.mp hlock
    cases heq
    exact ⟨rfl, hother⟩
  · rintro ⟨rfl, hevent⟩
    exact List.mem_map_of_mem hevent

/-- What is settled is not claimed. Kind: L -/
theorem Settled.claim {eventId : String} (h : Settled s eventId) {limit : ℕ} {now : ℤ} {tie : String → ℕ} :
    Settled (s.claim publishers p limit now tie) eventId := by
  obtain ⟨⟨entry, hentry, hpublished⟩, hfree⟩ := h
  refine ⟨⟨entry, ?_, hpublished⟩, fun hmem => ?_⟩
  · rcases PublisherCall.claim_cases (publishers p) now hentry with hsame | ⟨hpending, _⟩
    · exact hsame
    · rw [hpublished] at hpending
      cases hpending
  · obtain ⟨⟨q, event⟩, hlock, hid⟩ := List.mem_map.mp hmem
    rcases mem_locks_claim.mp hlock with hlock | ⟨_, hevent⟩
    · exact hfree (hid ▸ mem_locked hlock)
    · obtain ⟨hfound, hpending, _⟩ := PublisherCall.mem_pendingEvents hevent
      have hid : event.1 = eventId := hid
      subst hid
      cases hentry.symm.trans hfound
      rw [hpublished] at hpending
      cases hpending

omit [DecidableEq π] in
/-- An earlier event is settled and delivered, or stands before it in the batch. Kind: L -/
theorem Orderly.earlier {limit : ℕ} {now : ℤ} {tie : String → ℕ} (h : Orderly s (p, .poll limit now tie))
    (hidle : s.batch p = none) {pre post : List (String × OutboxEntry)} {event : String × OutboxEntry}
    (hsplit : pendingEvents s.table s.locked tie limit = pre ++ event :: post) {eventId : String} {entry : OutboxEntry}
    (hentry : s.table.get? eventId = some entry) (hprecedes : Precedes entry event.2) :
    (Settled s eventId ∧ entry.status = .published ∧ Delivered s.received eventId) ∨ eventId ∈ pre.map Prod.fst := by
  have hmem : event ∈ pendingEvents s.table s.locked tie limit := by
    rw [hsplit]
    exact List.mem_append_right _ List.mem_cons_self
  obtain ⟨hfree, ⟨hpublished, hdelivered⟩ | ⟨hpending, hplace⟩⟩ := (h hidle event hmem).1 eventId entry hentry hprecedes
  · exact Or.inl ⟨⟨⟨entry, hentry, hpublished⟩, hfree⟩, hpublished, hdelivered⟩
  · exact Or.inr (mem_before_pending hsplit hentry hpending hfree hplace)

theorem Kept.claim (h : Kept staged s) (hidle : s.batch p = none) {limit : ℕ} {now : ℤ} {tie : String → ℕ}
    (horderly : Orderly s (p, .poll limit now tie)) : Kept staged (s.claim publishers p limit now tie) := by
  have hevents : ∀ event ∈ pendingEvents s.table s.locked tie limit, s.table.get? event.1 = some event.2 ∧
      event.2.status = .pending ∧ event.1 ∉ s.locked := fun event hevent => PublisherCall.mem_pendingEvents hevent
  have hnew : ∀ event ∈ pendingEvents s.table s.locked tie limit,
      (p, event) ∈ (s.claim publishers p limit now tie).locks :=
    fun event hevent => mem_locks_claim.mpr (Or.inr ⟨rfl, hevent⟩)
  refine ⟨sameEvents_claim h.same, fun q event hlock => ?_, fun q batch hq event hevent => ?_,
    fun q q' event event' hq hq' hid => ?_, h.processed,
    fun q batch hq event hevent eventId entry hentry hprecedes => ?_,
    fun q batch hq pre event post hsplit eventId entry hentry hprecedes => ?_,
    fun q batch hq pre event post hsplit later hlater hprecedes => ?_, fun q batch hq event hevent => ?_,
    h.inOrder⟩
  · rcases mem_locks_claim.mp hlock with hlock | ⟨_, hevent⟩
    · exact h.claimed q event hlock
    · exact h.same.back event.1 event.2 (hevents event hevent).1
  · rcases update_some hq with ⟨rfl, rfl⟩ | ⟨_, hq⟩
    · exact hnew event hevent
    · exact mem_locks_claim.mpr (Or.inl (h.held q batch hq event hevent))
  · rcases mem_locks_claim.mp hq with hbefore | ⟨rfl, hevent⟩ <;>
      rcases mem_locks_claim.mp hq' with hbefore' | ⟨rfl, hevent'⟩
    · exact h.exclusive q q' event event' hbefore hbefore' hid
    · exact absurd (hid ▸ mem_locked hbefore) (hevents event' hevent').2.2
    · exact absurd (hid ▸ mem_locked hbefore') (hevents event hevent).2.2
    · rfl
  · rcases update_some hq with ⟨rfl, rfl⟩ | ⟨_, hq⟩
    · obtain ⟨stored, hstored, hsame⟩ := h.same.there eventId entry hentry
      obtain ⟨pre, post, hsplit⟩ := List.append_of_mem hevent
      rcases horderly.earlier hidle hsplit hstored (hprecedes.congr hsame (.refl _)) with ⟨hsettled, _⟩ | hmem
      · exact Or.inl hsettled.claim
      · obtain ⟨other, hother, rfl⟩ := List.mem_map.mp hmem
        refine Or.inr ⟨other.2, hnew other ?_⟩
        rw [hsplit]
        exact List.mem_append_left _ hother
    · rcases h.settled q batch hq event hevent eventId entry hentry hprecedes with hsettled | ⟨row, hrow⟩
      · exact Or.inl hsettled.claim
      · exact Or.inr ⟨row, mem_locks_claim.mpr (Or.inl hrow)⟩
  · rcases update_some hq with ⟨rfl, rfl⟩ | ⟨_, hq⟩
    · obtain ⟨stored, hstored, hsame⟩ := h.same.there eventId entry hentry
      exact (horderly.earlier hidle hsplit hstored (hprecedes.congr hsame (.refl _))).imp_left fun hsettled => hsettled.2.2
    · exact h.ready q batch hq pre event post hsplit eventId entry hentry hprecedes
  · rcases update_some hq with ⟨rfl, rfl⟩ | ⟨_, hq⟩
    · have hnodup := nodup_pendingEvents s.table s.locked tie limit
      have hmem : later ∈ pendingEvents s.table s.locked tie limit := by
        rw [hsplit]
        exact List.mem_append_right _ (List.mem_cons_of_mem _ hlater)
      obtain ⟨hfound, hpending, _⟩ := hevents later hmem
      rcases horderly.earlier hidle hsplit hfound hprecedes with ⟨_, hpublished, _⟩ | hpre
      · rw [hpending] at hpublished
        cases hpublished
      · rw [hsplit, List.map_append, List.nodup_append] at hnodup
        exact hnodup.2.2 later.1 hpre later.1
          (List.mem_map_of_mem (f := Prod.fst) (List.mem_cons_of_mem _ hlater)) rfl
    · exact h.ordered q batch hq pre event post hsplit later hlater hprecedes
  · rcases update_some hq with ⟨rfl, rfl⟩ | ⟨_, hq⟩
    · exact (horderly hidle event hevent).2
    · exact h.fresh q batch hq event hevent

omit [DecidableEq π] in
/-- The events that are still to be handled after one was received. Kind: L -/
theorem Kept.fresh_snoc (h : Kept staged s) {event other : String × OutboxEntry}
    {rest batch : List (String × OutboxEntry)} (hbatch : s.batch p = some (event :: rest)) {q : π}
    (hother : other ∈ batch) (hq : q = p ∧ batch = rest ∨ q ≠ p ∧ s.batch q = some batch) (returned : Bool) :
    other.1 ∈ s.processed q ∨ ∀ d ∈ s.received ++ [⟨event.1, event.2, returned⟩], ¬ Precedes other.2 d.entry := by
  have hnot := h.not_precedes hbatch hother hq
  have hbefore : other.1 ∈ s.processed q ∨ ∀ d ∈ s.received, ¬ Precedes other.2 d.entry := by
    rcases hq with ⟨rfl, rfl⟩ | ⟨_, hq⟩
    · exact h.fresh q _ hbatch other (List.mem_cons_of_mem _ hother)
    · exact h.fresh q batch hq other hother
  refine hbefore.imp_right fun hnone d hd => ?_
  rcases List.mem_append.mp hd with hd | hd
  · exact hnone d hd
  · rw [List.mem_singleton.mp hd]
    exact hnot

/-- The first event of a batch is marked; it is delivered. Kind: L -/
theorem Kept.marked (h : Kept staged s) {event : String × OutboxEntry} {rest : List (String × OutboxEntry)}
    (hbatch : s.batch p = some (event :: rest)) (publisher : Publisher) (now : ℤ) {received : List Delivery}
    {processed : π → List String} (hgrows : ∀ eventId, Delivered s.received eventId → Delivered received eventId)
    (hevent : Delivered received event.1) (hprocessed : ∀ q, ∀ eventId ∈ processed q, Delivered received eventId)
    (hfresh : ∀ q batch, q = p ∧ batch = rest ∨ q ≠ p ∧ s.batch q = some batch → ∀ other ∈ batch,
      other.1 ∈ processed q ∨ ∀ d ∈ received, ¬ Precedes other.2 d.entry)
    (hinOrder : DeliveredInOrder staged received) :
    Kept staged
      { s with
        table := (markPublished s.table event.1 publisher now).1
        batch := Function.update s.batch p (some rest)
        processed := processed
        received := received } := by
  have hlocked := mem_locked (h.held p _ hbatch event List.mem_cons_self)
  refine h.advance (sameEvents_markPublished h.same _ _ _) (fun eventId hfree => ?_) (fun _ hlock => hlock)
    (fun q batch hq => ?_) hgrows hprocessed (fun q batch hq => hfresh q batch (update_some hq)) hinOrder
  · exact get?_markPublished_ne _ (ne_of_mem_of_not_mem hlocked hfree).symm _ _
  · rcases update_some hq with ⟨rfl, rfl⟩ | ⟨_, hq⟩
    · refine ⟨[event], hbatch, fun _ hrow => hrow, fun other hother => ?_⟩
      rw [List.mem_singleton.mp hother]
      exact hevent
    · exact ⟨[], hq, fun _ hrow => hrow, fun _ hmem => (nomatch hmem)⟩

/-- A poll that is over. Kind: L -/
theorem Kept.released (h : Kept staged s) (p : π) {table : Dict String OutboxEntry} {received : List Delivery}
    (hsame : SameEvents staged table)
    (hfree : ∀ eventId ∉ s.locked, table.get? eventId = s.table.get? eventId)
    (hgrows : ∀ eventId, Delivered s.received eventId → Delivered received eventId)
    (hfresh : ∀ q batch, q ≠ p ∧ s.batch q = some batch → ∀ other ∈ batch,
      other.1 ∈ s.processed q ∨ ∀ d ∈ received, ¬ Precedes other.2 d.entry)
    (hinOrder : DeliveredInOrder staged received) :
    Kept staged
      { s with
        table := table
        batch := Function.update s.batch p none
        locks := s.locks.filter fun lock => lock.1 ≠ p
        received := received } := by
  refine h.advance hsame hfree (fun _ hlock => List.mem_of_mem_filter hlock) (fun q batch hq => ?_) hgrows
    (fun q eventId hmem => hgrows eventId (h.processed q eventId hmem))
    (fun q batch hq => hfresh q batch (update_none hq)) hinOrder
  obtain ⟨hqp, hq⟩ := update_none hq
  exact ⟨[], hq, fun row hrow => List.mem_filter.mpr ⟨hrow, decide_eq_true hqp⟩, fun _ hmem => (nomatch hmem)⟩

theorem Kept.handle (h : Kept staged s) {event : String × OutboxEntry} {rest : List (String × OutboxEntry)}
    (hbatch : s.batch p = some (event :: rest)) (raises : Bool) (now : ℤ) :
    Kept staged (s.handle publishers p event rest raises now) := by
  unfold Publishing.handle
  split
  · rename_i hprocessed
    refine h.marked hbatch _ _ (fun _ hbefore => hbefore) (h.processed p event.1 hprocessed) h.processed
      (fun q batch hq other hother => ?_) h.inOrder
    rcases hq with ⟨rfl, rfl⟩ | ⟨_, hq⟩
    · exact h.fresh q _ hbatch other (List.mem_cons_of_mem _ hother)
    · exact h.fresh q batch hq other hother
  · rename_i hnew
    split
    · refine h.released p (sameEvents_restore h.same fun row hrow => ?_) (fun eventId hfree => ?_)
        (fun _ hbefore => hbefore.append _)
        (fun q batch hq other hother => h.fresh_snoc hbatch hother (Or.inr hq) false)
        (h.deliveredInOrder_snoc hbatch hnew false)
      · exact h.claimed row.1 row.2 (List.mem_of_mem_filter hrow)
      · refine get?_restore fun row hrow hid => hfree ?_
        rw [← hid]
        exact mem_locked (List.mem_of_mem_filter hrow)
    · have hnow : Delivered (s.received ++ [⟨event.1, event.2, true⟩]) event.1 :=
        delivered_snoc.mpr (Or.inr ⟨rfl, rfl⟩)
      have hgrown : ∀ q eventId, eventId ∈ s.processed q →
          eventId ∈ Function.update s.processed p (event.1 :: s.processed p) q := by
        intro q eventId hmem
        by_cases hqp : q = p
        · subst hqp
          rw [Function.update_self]
          exact List.mem_cons_of_mem _ hmem
        · rwa [Function.update_of_ne hqp]
      refine h.marked hbatch _ _ (fun _ hbefore => hbefore.append _) hnow (fun q eventId hmem => ?_)
        (fun q batch hq other hother => (h.fresh_snoc hbatch hother hq true).imp_left (hgrown q other.1))
        (h.deliveredInOrder_snoc hbatch hnew true)
      by_cases hqp : q = p
      · subst hqp
        rw [Function.update_self] at hmem
        rcases List.mem_cons.mp hmem with rfl | hmem
        · exact hnow
        · exact (h.processed q eventId hmem).append _
      · rw [Function.update_of_ne hqp] at hmem
        exact (h.processed q eventId hmem).append _

theorem Kept.step (h : Kept staged s) {event : π × PollStep} (horderly : Orderly s event) :
    Kept staged (s.step publishers event) := by
  obtain ⟨p, turn⟩ := event
  cases turn with
  | poll limit now tie =>
    unfold Publishing.step
    dsimp only
    split
    · rename_i hidle
      exact h.claim hidle horderly
    · exact h
  | handle raises now =>
    unfold Publishing.step
    dsimp only
    split
    · rename_i event rest hbatch
      exact h.handle hbatch raises now
    · exact h
  | commit =>
    unfold Publishing.step
    dsimp only
    split
    · exact h.released p h.same (fun _ _ => rfl) (fun _ hbefore => hbefore)
        (fun q batch hq => h.fresh q batch hq.2) h.inOrder
    · exact h

omit [DecidableEq π] in
theorem Kept.start (staged : Dict String OutboxEntry) : Kept (π := π) staged { table := staged } := by
  refine ⟨.refl staged, ?_, ?_, ?_, ?_, ?_, ?_, ?_, ?_, ⟨by simp, List.Pairwise.nil⟩⟩
  · rintro p event ⟨⟩
  · rintro p batch ⟨⟩
  · rintro p p' event event' ⟨⟩
  · rintro p eventId ⟨⟩
  · rintro p batch ⟨⟩
  · rintro p batch ⟨⟩
  · rintro p batch ⟨⟩
  · rintro p batch ⟨⟩

/-- Source: `publisher.py`, `poll_and_publish`. In a run of any publishers, with any failures of the handler, whose
claims leave no earlier event of an aggregate behind and take none anew after a later one was received, every
aggregate is delivered in order. Kind: T -/
theorem Publishing.orderly_run_delivers (publishers : π → Publisher) (staged : Dict String OutboxEntry)
    {events : List (π × PollStep)}
    (horderly : Along (Publishing.step publishers) Orderly { table := staged } events) :
    ∀ s ∈ reached (Publishing.step publishers) { table := staged } events, DeliveredInOrder staged s.received := by
  intro s hs
  have hkept : Kept staged s :=
    horderly.invariant (fun _ _ h horderly => h.step horderly) (Kept.start staged) s hs
  exact hkept.inOrder

end

namespace Publishing

/-- Kind: D -/
def firstEvent : OutboxEntry :=
  { aggregateId := "t", eventType := "TASK_CREATED", payload := "", aggregateSequence := 1, createdAt := 0 }

/-- Kind: D -/
def secondEvent : OutboxEntry :=
  { aggregateId := "t", eventType := "TASK_ASSIGNED", payload := "", aggregateSequence := 2, createdAt := 1 }

/-- Two events of one task. Kind: D -/
def twoEvents : Dict String OutboxEntry := (Dict.empty.set "first" firstEvent).set "second" secondEvent

/-- The handler raises on the second event; the poll is rolled back, and the next one of the same publisher gets both
again. Kind: D -/
def secondAttempt : List (Bool × PollStep) :=
  [(true, .poll 10 5 fun _ => 0), (true, .handle false 6), (true, .handle true 7), (true, .poll 10 8 fun _ => 0),
    (true, .handle false 9), (true, .handle false 9), (true, .commit)]

theorem orderly_run_delivers_two :
    DeliveredInOrder twoEvents
      (secondAttempt.foldl (step fun _ : Bool => ⟨"p", "1"⟩) { table := twoEvents }).received := by
  have hpoll : ∀ (s : Publishing Bool) (now : ℤ), s.table.entries = twoEvents.entries → s.locked = [] →
      ("first" ∈ s.processed true ∨ s.received = []) →
        (∀ d ∈ s.received, d.entry = firstEvent ∨ d.entry = secondEvent) →
          Orderly s (true, .poll 10 now fun _ => 0) := by
    intro s now htable hlocked hfirst hreceived _ event hevent
    obtain ⟨hfound, _⟩ := PublisherCall.mem_pendingEvents hevent
    have hentry : ∀ eventId entry, s.table.get? eventId = some entry →
        (eventId, entry) = ("first", firstEvent) ∨ (eventId, entry) = ("second", secondEvent) := by
      intro eventId entry h
      have hmem := Dict.mem_entries.mpr h
      rw [htable] at hmem
      rcases List.mem_cons.mp hmem with heq | hrest
      · exact Or.inl heq
      · exact Or.inr (List.mem_singleton.mp hrest)
    refine ⟨fun eventId entry h hprecedes => ?_, ?_⟩
    · rw [hlocked]
      refine ⟨List.not_mem_nil, Or.inr ?_⟩
      rcases hentry event.1 event.2 hfound with heq | heq <;> rcases hentry eventId entry h with heq' | heq' <;>
        cases heq' <;> obtain rfl : event = _ := heq
      · exact absurd hprecedes.2.2 (by decide)
      · exact absurd hprecedes.2.2 (by decide)
      · exact ⟨rfl, by decide⟩
      · exact absurd hprecedes.2.2 (by decide)
    · rcases hentry event.1 event.2 hfound with heq | heq <;> obtain rfl : event = _ := heq
      · rcases hfirst with hprocessed | hnone
        · exact Or.inl hprocessed
        · rw [hnone]
          exact Or.inr fun d hd => (nomatch hd)
      · refine Or.inr fun d hd hprecedes => ?_
        rcases hreceived d hd with heq | heq <;> rw [heq] at hprecedes <;> exact absurd hprecedes.2.2 (by decide)
  have horderly : Along (step fun _ : Bool => ⟨"p", "1"⟩) Orderly { table := twoEvents } secondAttempt := by
    refine ⟨hpoll _ 5 rfl rfl (Or.inr rfl) (fun d hd => (nomatch hd)), trivial, trivial,
      hpoll _ 8 rfl rfl (Or.inl List.mem_cons_self) (fun d hd => ?_), trivial, trivial, trivial, trivial⟩
    rcases List.mem_cons.mp hd with rfl | hd
    · exact Or.inl rfl
    · rw [List.mem_singleton.mp hd]
      exact Or.inr rfl
  exact orderly_run_delivers _ twoEvents horderly _ (foldl_mem_reached _ secondAttempt)

/-- A publisher has claimed the first event and has not handled it yet; another one gets the second, and delivers
it. -/
theorem later_event_overtakes :
    ¬ ∀ s ∈ reached (step fun p : Bool => if p then ⟨"p", "1"⟩ else ⟨"q", "2"⟩) { table := twoEvents }
        [(true, .poll 1 5 fun _ => 0), (false, .poll 1 5 fun _ => 0), (false, .handle false 6)],
      DeliveredInOrder twoEvents s.received := by
  intro h
  have hlast := (h _ (foldl_mem_reached _ _)).earlier [] _ [] rfl "first" _ rfl ⟨rfl, rfl, by decide⟩
  obtain ⟨d, hd, _⟩ := hlast
  cases hd

end Publishing

end KarsaSec.Events
