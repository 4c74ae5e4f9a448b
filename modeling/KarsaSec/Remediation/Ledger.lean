import KarsaSec.Remediation.ApplierOutcome
import KarsaSec.Remediation.Audit
import Mathlib.Data.List.Chain

/-!
# The audit ledger

The append-only chain of audit events, and what loading it from a document detects.

* `RemediationLedger` carries the verification of its constructor as a field; `append` is the only way to
  extend it.
* `Chained` is the contract of the events, `validateChain_iff` that the verification checks just that.
* `fromDict_ok_iff`: a document is taken just if its events, with their fingerprints computed anew, are
  chained. The total fingerprint, the number of events and the fingerprint in an event are not looked at.
* `create_clean` and `exists_single` make ledgers of one event.
-/

namespace KarsaSec.Remediation

open KarsaSec.Found ControlledPatchApplier

variable {F : Type} {host : Host} {w : Wording F}

/-! ## The ledger -/

namespace RemediationLedger

/-- The link from an event to the one before it.
Source: `ledger.py`, `RemediationLedger.validate_chain`
Kind: D -/
def checkLink (idx : ℕ) (prev : Option (LifecycleAuditEvent host w))
    (event : LifecycleAuditEvent host w) : Except String Unit :=
  match prev with
  | none =>
    if !event.predecessorEventId.isNull || !event.predecessorEventFingerprint.isNull then
      .error ("Initial event '" ++ event.eventId ++ "' must not have predecessor linkage.")
    else .ok ()
  | some prevEvent =>
    if !event.predecessorEventId.isText prevEvent.eventId then
      .error ("Predecessor ID mismatch at index " ++ toString idx ++ ": '"
        ++ w.text event.predecessorEventId ++ "' != '" ++ prevEvent.eventId ++ "'.")
    else if !event.predecessorEventFingerprint.isText prevEvent.eventFingerprint then
      .error ("Predecessor fingerprint mismatch at index " ++ toString idx ++ ": '"
        ++ w.text event.predecessorEventFingerprint ++ "' != '" ++ prevEvent.eventFingerprint ++ "'.")
    else .ok ()

/-- The loop over the events.
Source: `ledger.py`, `RemediationLedger.validate_chain`
Kind: D -/
def checkEvents : List String → List String → Option (LifecycleAuditEvent host w) → ℕ →
    List (LifecycleAuditEvent host w) → Except String Unit
  | _, _, _, _, [] => .ok ()
  | seenIds, seenFps, prev, idx, event :: rest =>
    if event.eventId ∈ seenIds then
      .error ("Duplicate event_id '" ++ event.eventId ++ "' detected at index " ++ toString idx ++ ".")
    else if event.eventFingerprint ∈ seenFps then
      .error ("Duplicate event_fingerprint for '" ++ event.eventId ++ "' detected at index "
        ++ toString idx ++ ".")
    else if event.eventFingerprint ≠ event.expectedFp host w then
      .error ("Tampered event fingerprint for '" ++ event.eventId ++ "' at index " ++ toString idx
        ++ ".")
    else do
      checkLink idx prev event
      checkEvents (seenIds ++ [event.eventId]) (seenFps ++ [event.eventFingerprint]) (some event)
        (idx + 1) rest

/-- Source: `ledger.py`, `RemediationLedger.validate_chain`. Kind: D -/
def validateChain (events : List (LifecycleAuditEvent host w)) : Except String Unit :=
  checkEvents [] [] none 0 events

end RemediationLedger

/-- A ledger: events that pass the verification of the constructor.
Source: `ledger.py`, `RemediationLedger`
Kind: D -/
structure RemediationLedger {F : Type} (host : Host) (w : Wording F) where
  events : List (LifecycleAuditEvent host w)
  /-- The constructor went through. -/
  checked : RemediationLedger.validateChain events = .ok ()

namespace RemediationLedger

/-- The ledger without events. Source: `ledger.py`, `RemediationLedger()`. Kind: D -/
def empty : RemediationLedger host w := ⟨[], rfl⟩

/-- The constructor. Source: `ledger.py`, `RemediationLedger`. Kind: D -/
def create (events : List (LifecycleAuditEvent host w)) : Except String (RemediationLedger host w) :=
  match h : validateChain events with
  | .ok () => .ok ⟨events, h⟩
  | .error message => .error message

/-- Source: `ledger.py`, `RemediationLedger.append`. Kind: D -/
def append (ledger : RemediationLedger host w) (event : LifecycleAuditEvent host w) :
    Except String (RemediationLedger host w) :=
  if event.eventId ∈ ledger.events.map (·.eventId) then
    .error ("Duplicate event_id '" ++ event.eventId ++ "' rejected (L24).")
  else if event.eventFingerprint ∈ ledger.events.map (·.eventFingerprint) then
    .error ("Duplicate event_fingerprint for event '" ++ event.eventId
      ++ "' rejected (L24 Replay Prevention).")
  else
    match ledger.events.getLast? with
    | none =>
      if !event.predecessorEventId.isNull || !event.predecessorEventFingerprint.isNull then
        .error ("First event '" ++ event.eventId
          ++ "' in ledger must have None for predecessor linkage.")
      else create (ledger.events ++ [event])
    | some last =>
      if !event.predecessorEventId.isText last.eventId then
        .error ("Broken predecessor link for event '" ++ event.eventId ++ "': predecessor_event_id '"
          ++ w.text event.predecessorEventId ++ "' != expected '" ++ last.eventId ++ "'.")
      else if !event.predecessorEventFingerprint.isText last.eventFingerprint then
        .error ("Broken predecessor fingerprint for event '" ++ event.eventId
          ++ "': predecessor_event_fingerprint '" ++ w.text event.predecessorEventFingerprint
          ++ "' != expected '" ++ last.eventFingerprint ++ "'.")
      else create (ledger.events ++ [event])

/-- Source: `ledger.py`, `RemediationLedger.ledger_fingerprint`. Kind: D -/
def ledgerFingerprint (ledger : RemediationLedger host w) : String :=
  host.sha256Text (joinStr "||" (ledger.events.map fun e =>
    joinStr ":" [e.eventId, e.eventType.value, e.eventFingerprint, orNone w e.predecessorEventId,
      orNone w e.predecessorEventFingerprint]))

/-- Source: `ledger.py`, `RemediationLedger.to_dict`. Kind: D -/
def toDict (ledger : RemediationLedger host w) : List (String × Json F) :=
  [("ledger_fingerprint", .str ledger.ledgerFingerprint), ("event_count", .int ledger.events.length),
    ("events", .arr (ledger.events.map LifecycleAuditEvent.toDict))]

/-- One turn of the loading loop. Source: `ledger.py`, `RemediationLedger.from_dict`. Kind: D -/
def loadEvent (ledger : RemediationLedger host w) (data : Json F) :
    Except String (RemediationLedger host w) := do
  ledger.append (← LifecycleAuditEvent.fromDict host w data)

/-- Source: `ledger.py`, `RemediationLedger.from_dict`. Kind: D -/
def fromDict (host : Host) (w : Wording F) (data : List (String × Json F)) :
    Except String (RemediationLedger host w) := do
  let eventsData ← (Json.getD "events" data (.arr [])).iterate
  eventsData.foldlM loadEvent empty

/-! ## Chains -/

/-- An event follows another: it names its identity and its fingerprint. Kind: D -/
def Follows (a b : LifecycleAuditEvent host w) : Prop :=
  b.predecessorEventId = .str a.eventId ∧ b.predecessorEventFingerprint = .str a.eventFingerprint

/-- Events that make a ledger: identities and fingerprints are not repeated, fingerprints are the computed ones,
the first event names no predecessor, and each other event names the one before it.
Source: `ledger.py`, invariants L21-L24
Kind: C -/
structure Chained (events : List (LifecycleAuditEvent host w)) : Prop where
  ids : (events.map (·.eventId)).Nodup
  fingerprints : (events.map (·.eventFingerprint)).Nodup
  computed : ∀ e ∈ events, e.eventFingerprint = e.expectedFp host w
  first : ∀ e ∈ events.head?, e.predecessorEventId = .null ∧ e.predecessorEventFingerprint = .null
  linked : events.IsChain Follows

/-- The link that the loop looks for. Kind: D -/
def LinkedTo : Option (LifecycleAuditEvent host w) → LifecycleAuditEvent host w → Prop
  | none, e => e.predecessorEventId = .null ∧ e.predecessorEventFingerprint = .null
  | some prev, e => Follows prev e

theorem checkLink_ok {idx : ℕ} {prev : Option (LifecycleAuditEvent host w)}
    {event : LifecycleAuditEvent host w} :
    checkLink idx prev event = .ok () ↔ LinkedTo prev event := by
  rcases prev with _ | prev
  · simp [checkLink, LinkedTo, Json.isNull_iff]
  · grind [checkLink, LinkedTo, Follows, Json.isText_iff]

/-- What the loop has checked, for whatever it has seen before. Kind: L -/
theorem checkEvents_ok {events : List (LifecycleAuditEvent host w)} {seenIds seenFps : List String}
    {prev : Option (LifecycleAuditEvent host w)} {idx : ℕ} (hids : seenIds.Nodup)
    (hfps : seenFps.Nodup) :
    checkEvents seenIds seenFps prev idx events = .ok () ↔
      (seenIds ++ events.map (·.eventId)).Nodup ∧ (seenFps ++ events.map (·.eventFingerprint)).Nodup ∧
        (∀ e ∈ events, e.eventFingerprint = e.expectedFp host w) ∧
        (∀ e ∈ events.head?, LinkedTo prev e) ∧ events.IsChain Follows := by
  induction events generalizing seenIds seenFps prev idx with
  | nil => simp [checkEvents, hids, hfps]
  | cons event rest ih =>
    have hsnoc : ∀ (seen : List String) (a : String), seen.Nodup → a ∉ seen →
        (seen ++ [a]).Nodup := by
      intro seen a hseen ha
      exact hseen.append (List.nodup_singleton a) (by simpa using ha)
    rw [checkEvents, List.map_cons, List.map_cons]
    by_cases hid : event.eventId ∈ seenIds
    · rw [if_pos hid]
      refine iff_of_false (by simp) fun h => ?_
      exact List.disjoint_of_nodup_append h.1 hid List.mem_cons_self
    · by_cases hfp : event.eventFingerprint ∈ seenFps
      · rw [if_neg hid, if_pos hfp]
        refine iff_of_false (by simp) fun h => ?_
        exact List.disjoint_of_nodup_append h.2.1 hfp List.mem_cons_self
      · by_cases hcomputed : event.eventFingerprint = event.expectedFp host w
        · rw [if_neg hid, if_neg hfp, if_neg (not_not.mpr hcomputed)]
          have hhead : (∀ e ∈ (event :: rest).head?, LinkedTo prev e) ↔ LinkedTo prev event := by
            simp
          rw [hhead, List.forall_mem_cons, List.isChain_cons]
          rcases hlink : checkLink idx prev event with message | _
          · refine iff_of_false (fun h => (nomatch h)) fun h => ?_
            have hok : checkLink idx prev event = .ok () := checkLink_ok.mpr h.2.2.2.1
            rw [hlink] at hok
            cases hok
          · have hlinked := checkLink_ok.mp hlink
            simp only [Bind.bind, Except.bind]
            rw [ih (hsnoc seenIds _ hids hid) (hsnoc seenFps _ hfps hfp), List.append_assoc,
              List.append_assoc, List.singleton_append, List.singleton_append]
            constructor
            · rintro ⟨h1, h2, h3, h4, h5⟩
              exact ⟨h1, h2, ⟨hcomputed, h3⟩, hlinked, h4, h5⟩
            · rintro ⟨h1, h2, ⟨-, h3⟩, -, h4, h5⟩
              exact ⟨h1, h2, h3, h4, h5⟩
        · rw [if_neg hid, if_neg hfp, if_pos hcomputed]
          exact iff_of_false (by simp) fun h => hcomputed (h.2.2.1 event List.mem_cons_self)

/-- The constructor takes just the chained events.
Source: `ledger.py`, `RemediationLedger.validate_chain`
Kind: P -/
theorem validateChain_iff {events : List (LifecycleAuditEvent host w)} :
    validateChain events = .ok () ↔ Chained events := by
  unfold validateChain
  rw [checkEvents_ok List.nodup_nil List.nodup_nil]
  exact ⟨fun ⟨h1, h2, h3, h4, h5⟩ => ⟨h1, h2, h3, h4, h5⟩, fun ⟨h1, h2, h3, h4, h5⟩ =>
    ⟨h1, h2, h3, h4, h5⟩⟩

theorem chained (ledger : RemediationLedger host w) : Chained ledger.events :=
  validateChain_iff.mp ledger.checked

theorem ext_events {a b : RemediationLedger host w} (h : a.events = b.events) : a = b := by
  cases a
  cases b
  cases h
  rfl

/-- The first events of a chain are a chain. Kind: L -/
theorem Chained.of_append {l l' : List (LifecycleAuditEvent host w)} (h : Chained (l ++ l')) :
    Chained l := by
  have hids := h.ids
  have hfps := h.fingerprints
  rw [List.map_append] at hids hfps
  refine ⟨hids.of_append_left, hfps.of_append_left, fun e he => ?_, fun e he => ?_, ?_⟩
  · exact h.computed e (List.mem_append_left _ he)
  · rcases l with _ | ⟨e', l⟩
    · cases he
    · exact h.first e he
  · exact (List.isChain_append.mp h.linked).1

/-- An event is appended just if the events stay a chain.
Source: `ledger.py`, `RemediationLedger.append`
Kind: P -/
theorem append_ok_iff {ledger ledger' : RemediationLedger host w} {event : LifecycleAuditEvent host w} :
    ledger.append event = .ok ledger' ↔ ledger'.events = ledger.events ++ [event] := by
  have hcreate : ∀ events, create events = .ok ledger' ↔ ledger'.events = events := by
    intro events
    unfold create
    constructor
    · grind
    · rintro rfl
      split
      · rfl
      · next h =>
          rw [ledger'.checked] at h
          cases h
  unfold append
  constructor
  · intro h
    split at h
    · cases h
    · split at h
      · cases h
      · split at h
        · grind
        · grind
  · intro h
    have hchain := ledger'.chained
    rw [h] at hchain
    have hids := hchain.ids
    have hfps := hchain.fingerprints
    rw [List.map_append, List.nodup_append] at hids hfps
    have hid : event.eventId ∉ ledger.events.map (·.eventId) := fun hmem =>
      hids.2.2 _ hmem _ (by simp) rfl
    have hfp : event.eventFingerprint ∉ ledger.events.map (·.eventFingerprint) := fun hmem =>
      hfps.2.2 _ hmem _ (by simp) rfl
    rw [if_neg hid, if_neg hfp]
    rcases hlast : ledger.events.getLast? with _ | last
    · have hnil := List.getLast?_eq_none_iff.mp hlast
      rw [hnil] at hchain
      obtain ⟨h1, h2⟩ := hchain.first event rfl
      simp only [h1, h2, Json.isNull, Bool.not_true, Bool.or_self, Bool.false_eq_true, if_false]
      exact (hcreate _).mpr h
    · have hfollows := (List.isChain_append.mp hchain.linked).2.2 last hlast event rfl
      simp only [Json.isText_iff.mpr hfollows.1, Json.isText_iff.mpr hfollows.2, Bool.not_true,
        Bool.false_eq_true, if_false]
      exact (hcreate _).mpr h

/-! ## Loading -/

/-- The events of a document, each read on its own and fingerprinted anew. Kind: D -/
def readEvents (host : Host) (w : Wording F) (data : List (String × Json F)) :
    Except String (List (LifecycleAuditEvent host w)) := do
  let eventsData ← (Json.getD "events" data (.arr [])).iterate
  eventsData.mapM (LifecycleAuditEvent.fromDict host w)

/-- The loading loop appends what is read. Kind: L -/
theorem loadEvents_ok {eventsData : List (Json F)} {ledger ledger' : RemediationLedger host w} :
    eventsData.foldlM loadEvent ledger = .ok ledger' ↔
      ∃ events, List.Forall₂ (fun d e => LifecycleAuditEvent.fromDict host w d = .ok e) eventsData
        events ∧ ledger'.events = ledger.events ++ events := by
  induction eventsData generalizing ledger with
  | nil =>
    simp only [List.foldlM_nil, List.forall₂_nil_left_iff, exists_eq_left, List.append_nil]
    constructor
    · intro h
      cases h
      rfl
    · intro h
      rw [ext_events h]
      rfl
  | cons d rest ih =>
    rw [List.foldlM_cons]
    constructor
    · intro h
      obtain ⟨next, hnext, hrest⟩ := bind_ok h
      obtain ⟨event, hread, happend⟩ := bind_ok hnext
      obtain ⟨events, hevents, heq⟩ := ih.mp hrest
      rw [append_ok_iff.mp happend] at heq
      exact ⟨event :: events, List.Forall₂.cons hread hevents, by rw [heq]; simp⟩
    · rintro ⟨_, hread, heq⟩
      rcases hread with _ | ⟨hd, hrest⟩
      rename_i event events
      have hsplit : ledger'.events = (ledger.events ++ [event]) ++ events := by rw [heq]; simp
      have hchain := ledger'.chained
      rw [hsplit] at hchain
      have hchecked := validateChain_iff.mpr hchain.of_append
      have happend : ledger.append event = .ok ⟨ledger.events ++ [event], hchecked⟩ :=
        append_ok_iff.mpr rfl
      have hload : loadEvent ledger d = .ok ⟨ledger.events ++ [event], hchecked⟩ := by
        unfold loadEvent
        rw [hd]
        exact happend
      rw [hload]
      exact ih.mpr ⟨events, hrest, hsplit⟩

/-- A document is taken just if its events, fingerprinted anew, are a chain.
Source: `ledger.py`, `RemediationLedger.from_dict`
Kind: P -/
theorem fromDict_ok_iff {data : List (String × Json F)} {ledger : RemediationLedger host w} :
    fromDict host w data = .ok ledger ↔ readEvents host w data = .ok ledger.events := by
  unfold fromDict readEvents
  rcases (Json.getD "events" data (.arr [])).iterate with message | eventsData
  · exact iff_of_false (fun h => (nomatch h)) fun h => (nomatch h)
  · change eventsData.foldlM loadEvent empty = _ ↔ eventsData.mapM _ = _
    rw [loadEvents_ok, mapM_ok]
    constructor
    · rintro ⟨events, hread, heq⟩
      rw [heq]
      exact hread
    · intro hread
      exact ⟨ledger.events, hread, rfl⟩

/-- The first event of a ledger. Kind: D -/
def firstEvent : EventBinding Empty where
  eventId := "evt_1"
  findingId := "F-101"
  lifecycleState := .str "DETECTED"
  actor := .str "system"
  timestamp := .str "2026-01-01T00:00:00+00:00"
  repositoryIdentity := "/repo"

/-- An event behind one with a fingerprint. Kind: D -/
def secondEvent (fingerprint : String) : EventBinding Empty :=
  { firstEvent with
    eventId := "evt_2", lifecycleState := .str "VERIFIED", predecessorEventId := .str "evt_1"
    predecessorEventFingerprint := .str fingerprint }

/-- A binding with both identities and clean metadata makes an event. Kind: L -/
theorem create_clean (host : Host) (w : Wording F) (e : EventBinding F) (text metadata : Json F) (evType : AuditEventType)
    (raw items again : List (String × String)) (hid : isBlank e.eventId = false) (hfinding : isBlank e.findingId = false)
    (htype : w.text text = evType.value) (hraw : rawItems w metadata = .ok raw) (hitems : sanitizeMetadata w raw = .ok items)
    (hagain : sanitizeMetadata w items = .ok again) :
    ∃ event, LifecycleAuditEvent.create host w e text metadata = .ok event ∧ event.toEventFields =
      { e with
        eventType := evType, metadata := items
        eventFingerprint := e.computeEventFingerprint host w evType items } := by
  have hcheck : EventFields.postInit host w
      { e with
        eventType := evType, metadata := items
        eventFingerprint := e.computeEventFingerprint host w evType items } = .ok () := by
    unfold EventFields.postInit
    rw [if_neg (by simp [hid]), if_neg (by simp [hfinding]), hagain]
    exact if_neg fun h => h.2 rfl
  refine ⟨⟨_, hcheck⟩, ?_, rfl⟩
  unfold LifecycleAuditEvent.create
  rw [htype, AuditEventType.ofText_value, hraw]
  simp only [bind, Except.bind, hitems]
  unfold LifecycleAuditEvent.build
  split
  · rfl
  · next h => cases hcheck.symm.trans h

/-- Such an event without predecessor is a ledger of its own. Kind: L -/
theorem exists_single {e : EventBinding F} {evType : AuditEventType} {items : List (String × String)}
    {event : LifecycleAuditEvent host w}
    (hfields : event.toEventFields =
      { e with
        eventType := evType, metadata := items
        eventFingerprint := e.computeEventFingerprint host w evType items })
    (hid : e.predecessorEventId = .null) (hfingerprint : e.predecessorEventFingerprint = .null) :
    ∃ ledger : RemediationLedger host w, ledger.events = [event] := by
  have hchain : Chained [event] := by
    refine ⟨List.nodup_singleton _, List.nodup_singleton _, List.forall_mem_singleton.mpr ?_, fun _ he => ?_, .singleton _⟩
    · rw [hfields]
      rfl
    · rw [← Option.some.inj he, hfields]
      exact ⟨hid, hfingerprint⟩
  exact ⟨⟨[event], validateChain_iff.mpr hchain⟩, rfl⟩

/-- An event and one that is linked to it are a ledger. Kind: L -/
theorem exists_linked {e e' : EventBinding F} {evType evType' : AuditEventType} {items items' : List (String × String)}
    {first second : LifecycleAuditEvent host w}
    (hfirst : first.toEventFields =
      { e with
        eventType := evType, metadata := items
        eventFingerprint := e.computeEventFingerprint host w evType items })
    (hsecond : second.toEventFields =
      { e' with
        eventType := evType', metadata := items'
        eventFingerprint := e'.computeEventFingerprint host w evType' items' })
    (hid : e.predecessorEventId = .null) (hfingerprint : e.predecessorEventFingerprint = .null)
    (hid' : e'.predecessorEventId = .str e.eventId) (hfingerprint' : e'.predecessorEventFingerprint = .str first.eventFingerprint)
    (hids : e.eventId ≠ e'.eventId) (hfingerprints : first.eventFingerprint ≠ second.eventFingerprint) :
    ∃ ledger : RemediationLedger host w, ledger.events = [first, second] := by
  have hchain : Chained [first, second] := by
    refine ⟨?_, by simpa using hfingerprints, ?_, fun _ he => ?_, List.isChain_pair.mpr ?_⟩
    · simpa [hfirst, hsecond] using hids
    · refine List.forall_mem_cons.mpr ⟨?_, List.forall_mem_singleton.mpr ?_⟩
      · rw [hfirst]
        rfl
      · rw [hsecond]
        rfl
    · rw [← Option.some.inj he, hfirst]
      exact ⟨hid, hfingerprint⟩
    · rw [Follows, hsecond]
      exact ⟨by rw [hfirst]; exact hid', hfingerprint'⟩
  exact ⟨⟨[first, second], validateChain_iff.mpr hchain⟩, rfl⟩

/-- The two events are a ledger. Kind: L -/
theorem exists_pair {evType evType' : AuditEventType} {items items' : List (String × String)}
    {first second : LifecycleAuditEvent sampleHost plainWording}
    (hfirst : first.toEventFields =
      { firstEvent with
        eventType := evType, metadata := items
        eventFingerprint := firstEvent.computeEventFingerprint sampleHost plainWording evType items })
    (hsecond : second.toEventFields =
      { secondEvent first.eventFingerprint with
        eventType := evType', metadata := items'
        eventFingerprint :=
          (secondEvent first.eventFingerprint).computeEventFingerprint sampleHost plainWording evType' items' }) :
    ∃ ledger : RemediationLedger sampleHost plainWording, ledger.events = [first, second] := by
  refine exists_linked hfirst hsecond rfl rfl rfl rfl (by simp [firstEvent, secondEvent]) fun h => ?_
  have htexts : firstEvent.computeEventFingerprint sampleHost plainWording evType items =
      (secondEvent first.eventFingerprint).computeEventFingerprint sampleHost plainWording evType' items' := by
    rw [hsecond, hfirst] at h
    rw [hfirst]
    exact h
  have hchars := congrArg (fun s => s.toList.take 5) (String.toByteArray_inj.mp (sampleHost_injective htexts))
  simp [firstEvent, secondEvent, joinStr] at hchars

/-- What the keys of the document of an event give. Kind: L -/
theorem lookup_toDict_event (e : LifecycleAuditEvent host w) :
    ∃ members : List (String × Json F), e.toDict = .obj members ∧
      Dict.lookup "event_id" members = some (.str e.eventId) ∧
      Dict.lookup "event_type" members = some (.str e.eventType.value) ∧
      Dict.lookup "finding_id" members = some (.str e.findingId) ∧
      Dict.lookup "lifecycle_state" members = some e.lifecycleState ∧
      Dict.lookup "actor" members = some e.actor ∧
      Dict.lookup "timestamp" members = some e.timestamp ∧
      Dict.lookup "repository_identity" members = some (.str e.repositoryIdentity) ∧
      Dict.lookup "predecessor_event_id" members = some e.predecessorEventId ∧
      Dict.lookup "predecessor_event_fingerprint" members = some e.predecessorEventFingerprint ∧
      Dict.lookup "proposal_fingerprint" members = some e.proposalFingerprint ∧
      Dict.lookup "source_snapshot_hash" members = some e.sourceSnapshotHash ∧
      Dict.lookup "post_apply_snapshot_hash" members = some e.postApplySnapshotHash ∧
      Dict.lookup "verification_run_id" members = some e.verificationRunId ∧
      Dict.lookup "verification_fingerprint" members = some e.verificationFingerprint ∧
      Dict.lookup "provenance_fingerprint" members = some e.provenanceFingerprint ∧
      Dict.lookup "metadata" members =
        some (.obj ((Dict.ofList e.metadata).entries.map fun m => (m.1, .str m.2))) := by
  refine ⟨_, rfl, ?_⟩
  simp [Dict.lookup]

end RemediationLedger

end KarsaSec.Remediation
