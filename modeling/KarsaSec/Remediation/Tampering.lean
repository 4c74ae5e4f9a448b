import KarsaSec.Remediation.PreImages

/-!
# Altered ledgers

What `from_dict` notices of the changes of a document of a ledger, for a digest without collisions.

* `linkedTo_iff_beside`: a link that is in the ledger holds of the event before it if that has the identity and the text of the
  event it was made for.
* `chained_iff` is verification in terms of the ledger that the events are said to be: nothing is `Repeated`, `Displaced` or
  `Unlinked`.
* `tampering_detected_iff` says which changes of a ledger are noticed; `truncation_unnoticed` and `altered_event_accepted` are
  two that are not.
-/

namespace KarsaSec.Remediation

open KarsaSec.Found ControlledPatchApplier

variable {F : Type} {host : Host} {w : Wording F}

/-! ## Links -/

/-- The fingerprint of an event is the digest of its text. Source: `audit.py`, `compute_event_fingerprint`. Kind: L -/
theorem EventFields.expectedFp_eq (e : EventFields F) : e.expectedFp host w = host.sha256Text (e.preImage w) :=
  rfl

namespace LifecycleAuditEvent

/-- The fingerprint of an event that is read is computed anew.
Source: `audit.py`, `LifecycleAuditEvent.from_dict`
Kind: L -/
theorem computed_of_fromDict {data : Json F} {e : LifecycleAuditEvent host w} (h : fromDict host w data = .ok e) :
    e.eventFingerprint = e.expectedFp host w := by
  have hcreate : ∀ {bound : EventBinding F} {eventType metadata : Json F},
      create host w bound eventType metadata = .ok e → e.eventFingerprint = e.expectedFp host w := by
    intro bound eventType metadata h
    obtain ⟨evType, -, h⟩ := bind_ok h
    obtain ⟨raw, -, h⟩ := bind_ok h
    obtain ⟨items, -, h⟩ := bind_ok h
    rw [build_ok.mp h]
    rfl
  unfold fromDict at h
  iterate 8 obtain ⟨_, -, h⟩ := bind_ok h
  iterate 3 obtain ⟨_, -, h⟩ := bind_ok h
  exact hcreate h

end LifecycleAuditEvent

namespace RemediationLedger

/-- Two events, or none, with one identity and one hashed text. Kind: D -/
def Beside : Option (LifecycleAuditEvent host w) → Option (LifecycleAuditEvent host w) → Prop
  | none, none => True
  | some a, some b => a.eventId = b.eventId ∧ a.preImage w = b.preImage w
  | _, _ => False

/-- Two events name the same predecessor. Kind: D -/
def SameLink (a b : LifecycleAuditEvent host w) : Prop :=
  a.predecessorEventId = b.predecessorEventId ∧ a.predecessorEventFingerprint = b.predecessorEventFingerprint

/-- An identity or a hashed text comes twice. Kind: C -/
def Repeated (events : List (LifecycleAuditEvent host w)) : Prop :=
  ¬(events.map (·.eventId)).Nodup ∨ ¬(events.map (·.preImage w)).Nodup

/-- An event has the link of one of the ledger, and stands behind another than that one. Kind: C -/
def Displaced (ledger : RemediationLedger host w) (events : List (LifecycleAuditEvent host w)) : Prop :=
  ∃ before e after earlier known later, events = before ++ e :: after ∧ ledger.events = earlier ++ known :: later ∧
    SameLink e known ∧ ¬Beside before.getLast? earlier.getLast?

/-- An event has a link that none of the ledger has, and it is not to the event before it. Kind: C -/
def Unlinked (ledger : RemediationLedger host w) (events : List (LifecycleAuditEvent host w)) : Prop :=
  ∃ before e after, events = before ++ e :: after ∧ (∀ known ∈ ledger.events, ¬SameLink e known) ∧
    ¬LinkedTo before.getLast? e

theorem sha256Text_inj (hsha : Function.Injective host.sha256) {a b : String} : host.sha256Text a = host.sha256Text b ↔ a = b :=
  ⟨fun h => String.toByteArray_inj.mp (hsha h), fun h => by rw [h]⟩

/-- A link of the ledger holds of another event just if that is beside the one it was made for. Kind: L -/
theorem linkedTo_iff_beside (hsha : Function.Injective host.sha256) {prev prev' : Option (LifecycleAuditEvent host w)}
    {e known : LifecycleAuditEvent host w} (hprev : ∀ p ∈ prev, p.eventFingerprint = p.expectedFp host w)
    (hprev' : ∀ p ∈ prev', p.eventFingerprint = p.expectedFp host w) (hknown : LinkedTo prev' known)
    (hsame : SameLink e known) : LinkedTo prev e ↔ Beside prev prev' := by
  obtain ⟨hid, hfingerprint⟩ := hsame
  rcases prev with _ | p
  · rcases prev' with _ | p'
    · exact iff_of_true ⟨hid.trans hknown.1, hfingerprint.trans hknown.2⟩ trivial
    · refine iff_of_false (fun h => ?_) not_false
      cases h.1.symm.trans (hid.trans hknown.1)
  · rcases prev' with _ | p'
    · refine iff_of_false (fun h => ?_) not_false
      cases h.1.symm.trans (hid.trans hknown.1)
    · show Follows p e ↔ p.eventId = p'.eventId ∧ p.preImage w = p'.preImage w
      rw [Follows, hid.trans hknown.1, hfingerprint.trans hknown.2, Json.str.injEq, Json.str.injEq, hprev p rfl, hprev' p' rfl,
        EventFields.expectedFp_eq, EventFields.expectedFp_eq, sha256Text_inj hsha, eq_comm, @eq_comm _ (p'.preImage w)]

/-- The links of a chain, at each place. Kind: L -/
theorem linked_iff {events : List (LifecycleAuditEvent host w)} :
    ((∀ e ∈ events.head?, LinkedTo none e) ∧ events.IsChain Follows) ↔
      ∀ before e after, events = before ++ e :: after → LinkedTo before.getLast? e := by
  constructor
  · rintro ⟨hfirst, hchain⟩ before e after rfl
    rcases hlast : before.getLast? with _ | p
    · rw [List.getLast?_eq_none_iff.mp hlast] at hfirst
      exact hfirst e rfl
    · exact (List.isChain_append.mp hchain).2.2 p hlast e rfl
  · intro h
    refine ⟨fun e he => ?_, List.isChain_iff_forall_rel_of_append_cons_cons.mpr fun a b l₁ l₂ heq => ?_⟩
    · obtain ⟨rest, hrest⟩ := List.head?_eq_some_iff.mp he
      exact h [] e rest hrest
    · have hlink := h (l₁ ++ [a]) b l₂ (by rw [heq, List.append_assoc]; rfl)
      rwa [List.getLast?_concat] at hlink

/-- Events with computed fingerprints are a chain just if no identity or text is repeated and each event is linked. Kind: L -/
theorem chained_iff_linked (hsha : Function.Injective host.sha256) {events : List (LifecycleAuditEvent host w)}
    (hcomputed : ∀ e ∈ events, e.eventFingerprint = e.expectedFp host w) :
    Chained events ↔ ¬Repeated events ∧ ∀ before e after, events = before ++ e :: after → LinkedTo before.getLast? e := by
  have hfingerprints : events.map (·.eventFingerprint) = (events.map (·.preImage w)).map host.sha256Text := by
    rw [List.map_map]
    exact List.map_congr_left hcomputed
  have hnodup : (events.map (·.eventFingerprint)).Nodup ↔ (events.map (·.preImage w)).Nodup := by
    rw [hfingerprints]
    exact List.nodup_map_iff fun a b h => (sha256Text_inj hsha).mp h
  rw [Repeated, not_or, not_not, not_not, ← hnodup, ← linked_iff]
  exact ⟨fun h => ⟨⟨h.ids, h.fingerprints⟩, h.first, h.linked⟩, fun h => ⟨h.1.1, h.1.2, hcomputed, h.2.1, h.2.2⟩⟩

/-- Events are a chain just if nothing is wrong with them against a ledger, whichever it is. Kind: L -/
theorem chained_iff (hsha : Function.Injective host.sha256) (ledger : RemediationLedger host w)
    {events : List (LifecycleAuditEvent host w)} (hcomputed : ∀ e ∈ events, e.eventFingerprint = e.expectedFp host w) :
    Chained events ↔ ¬(Repeated events ∨ Displaced ledger events ∨ Unlinked ledger events) := by
  have hledger := linked_iff.mp ⟨ledger.chained.first, ledger.chained.linked⟩
  have hbefore : ∀ {l : List (LifecycleAuditEvent host w)} {before e after},
      (∀ e ∈ l, e.eventFingerprint = e.expectedFp host w) → l = before ++ e :: after →
        ∀ p ∈ before.getLast?, p.eventFingerprint = p.expectedFp host w := by
    rintro _ before e after h rfl p hp
    exact h p (List.mem_append_left _ (List.mem_of_getLast? hp))
  rw [chained_iff_linked hsha hcomputed, not_or, not_or]
  refine and_congr_right fun _ => ⟨fun h => ⟨?_, ?_⟩, fun ⟨hplaced, hlinked⟩ before e after heq => ?_⟩
  · rintro ⟨before, e, after, earlier, known, later, heq, hknown, hsame, hbeside⟩
    exact hbeside ((linkedTo_iff_beside hsha (hbefore hcomputed heq) (hbefore ledger.chained.computed hknown)
      (hledger _ _ _ hknown) hsame).mp (h _ _ _ heq))
  · rintro ⟨before, e, after, heq, -, hlink⟩
    exact hlink (h _ _ _ heq)
  · by_contra hlink
    by_cases hknown : ∃ known ∈ ledger.events, SameLink e known
    · obtain ⟨known, hmem, hsame⟩ := hknown
      obtain ⟨earlier, later, hsplit⟩ := List.append_of_mem hmem
      refine hplaced ⟨before, e, after, earlier, known, later, heq, hsplit, hsame, fun hbeside => hlink ?_⟩
      exact (linkedTo_iff_beside hsha (hbefore hcomputed heq) (hbefore ledger.chained.computed hsplit) (hledger _ _ _ hsplit)
        hsame).mpr hbeside
    · push Not at hknown
      exact hlinked ⟨before, e, after, heq, hknown, hlink⟩

/-! ## What is noticed -/

/-- A changed document is noticed just if its events cannot be read, an identity or a hashed text is repeated, an event with a
link of the ledger stands behind another than the one the link was made for, or an event with a link of its own is not linked to
the one before it.
Source: `ledger.py`, `RemediationLedger.from_dict`; `audit.py`, `LifecycleAuditEvent.from_dict`
Kind: P -/
theorem tampering_detected_iff (hsha : Function.Injective host.sha256) (ledger : RemediationLedger host w)
    (data : List (String × Json F)) :
    (¬Json.Same (.obj data) (.obj ledger.toDict) →
        ∀ loaded, fromDict host w data = .ok loaded → validateChain loaded.events ≠ .ok ()) ↔
      Json.Same (.obj data) (.obj ledger.toDict) ∨
        ∀ events, readEvents host w data = .ok events → Repeated events ∨ Displaced ledger events ∨ Unlinked ledger events := by
  have hread : ∀ {events}, readEvents host w data = .ok events → ∀ e ∈ events, e.eventFingerprint = e.expectedFp host w := by
    intro events h
    obtain ⟨items, -, hitems⟩ := bind_ok h
    have hall := mapM_ok.mp hitems
    clear h hitems
    induction hall with
    | nil => exact List.forall_mem_nil _
    | cons hd _ ih => exact List.forall_mem_cons.mpr ⟨LifecycleAuditEvent.computed_of_fromDict hd, ih⟩
  constructor
  · intro h
    refine or_iff_not_imp_left.mpr fun hdiffers events hevents => ?_
    by_contra hunnoticed
    have hchecked := validateChain_iff.mpr ((chained_iff hsha ledger (hread hevents)).mpr hunnoticed)
    exact h hdiffers ⟨events, hchecked⟩ (fromDict_ok_iff.mpr hevents) hchecked
  · rintro (hsame | hnoticed) hdiffers loaded hloaded
    · exact absurd hsame hdiffers
    · have hevents := fromDict_ok_iff.mp hloaded
      exact absurd (hnoticed _ hevents) ((chained_iff hsha ledger (hread hevents)).mp loaded.chained)

/-- A chain of two events is cut behind the first, and that is not noticed.
Source: `ledger.py`, `RemediationLedger.from_dict`
Kind: T -/
theorem truncation_unnoticed :
    ∃ first second, ∃ ledger : RemediationLedger sampleHost plainWording, [first, second].foldlM append empty = .ok ledger ∧
      ¬(¬Json.Same (.obj [("events", .arr [first.toDict])]) (.obj ledger.toDict) →
        ∀ loaded, fromDict sampleHost plainWording [("events", .arr [first.toDict])] = .ok loaded →
          validateChain loaded.events ≠ .ok ()) := by
  obtain ⟨first, second, ledger, -, -, hledger, hcanonical⟩ := exists_plainChain
  refine ⟨first, second, ledger, appended_iff.mpr hledger, ?_⟩
  have hchain : Chained [first] := by
    have hall : Chained ([first] ++ [second]) := by
      have hboth := ledger.chained
      rwa [hledger] at hboth
    exact hall.of_append
  have hfirst := (LifecycleAuditEvent.event_roundTrip (hchain.computed first List.mem_cons_self)).mpr
    (hcanonical first List.mem_cons_self)
  have hread : readEvents sampleHost plainWording [("events", .arr [first.toDict])] = .ok [first] := by
    change [first.toDict].mapM (LifecycleAuditEvent.fromDict sampleHost plainWording) = .ok [first]
    rw [List.mapM_cons, hfirst]
    rfl
  rw [tampering_detected_iff sampleHost_injective]
  rintro (hsame | hnoticed)
  · have hsorted := Json.obj.inj ((Json.sortKeys_obj _).symm.trans (hsame.trans (Json.sortKeys_obj _)))
    have hcount := congrArg (Dict.lookup "event_count") hsorted
    rw [Json.lookup_sortMembers (by simp), Json.lookup_sortMembers (by simp [toDict])] at hcount
    simp [toDict, Dict.lookup] at hcount
  · exact (chained_iff sampleHost_injective ledger hchain.computed).mp hchain (hnoticed _ hread)

/-- The document of an event whose actor has been changed. Kind: D -/
def alterActor (event : LifecycleAuditEvent host w) : Json F :=
  match event.toDict with
  | .obj members => .obj (members.map fun m => if m.1 = "actor" then (m.1, .str "mallory") else m)
  | v => v

/-- The document of a ledger in which the actors have been changed, and nothing else. Kind: D -/
def alteredDocument (ledger : RemediationLedger host w) : List (String × Json F) :=
  [("ledger_fingerprint", .str ledger.ledgerFingerprint), ("event_count", .int ledger.events.length),
    ("events", .arr (ledger.events.map alterActor))]

/-- One member of a mapping is replaced. Kind: L -/
theorem lookup_replaced (name key : String) (v : Json F) (members : List (String × Json F)) :
    Dict.lookup key (members.map fun m => if m.1 = name then (m.1, v) else m) =
      if key = name then (Dict.lookup key members).map fun _ => v else Dict.lookup key members := by
  induction members with
  | nil => simp [Dict.lookup]
  | cons m rest ih =>
    by_cases hname : m.1 = name
    · by_cases hkey : m.1 = key
      · simp [Dict.lookup, hname, ← hkey]
      · simp [Dict.lookup, hname, ih, hname ▸ hkey]
    · by_cases hkey : m.1 = key
      · simp [Dict.lookup, hname, ← hkey]
      · simp [Dict.lookup, hname, hkey, ih]

/-- The document of such an event reads as its binding, under another actor. Kind: L -/
theorem fromDict_alterActor {e : EventBinding F} {evType : AuditEventType} {fingerprint : String}
    {event : LifecycleAuditEvent host w}
    (hfields : event.toEventFields = { e with eventType := evType, eventFingerprint := fingerprint }) :
    LifecycleAuditEvent.fromDict host w (alterActor event) =
      LifecycleAuditEvent.create host w { e with actor := .str "mallory" } (.str evType.value) (.obj []) := by
  obtain ⟨members, hdict, h1, h2, h3, h4, h5, h6, h7, h8, h9, h10, h11, h12, h13, h14, h15, h16⟩ := lookup_toDict_event event
  have hother : ∀ {key v}, Dict.lookup key members = some v → key ≠ "actor" →
      Dict.lookup key (members.map fun m => if m.1 = "actor" then (m.1, .str "mallory") else m) = some v := by
    intro key v hv hkey
    rw [lookup_replaced, if_neg hkey, hv]
  have hactor : Dict.lookup "actor" (members.map fun m => if m.1 = "actor" then (m.1, .str "mallory") else m) =
      some (.str "mallory") := by
    rw [lookup_replaced, if_pos rfl, h5]
    rfl
  have hdocument : alterActor event = .obj (members.map fun m => if m.1 = "actor" then (m.1, .str "mallory") else m) := by
    unfold alterActor
    rw [hdict]
  rw [hdocument]
  simp only [LifecycleAuditEvent.fromDict, Json.asObj, Json.getD, Json.require, Json.asStr, hother h1 (by decide),
    hother h2 (by decide), hother h3 (by decide), hother h4 (by decide), hactor, hother h6 (by decide), hother h7 (by decide),
    hother h8 (by decide), hother h9 (by decide), hother h10 (by decide), hother h11 (by decide), hother h12 (by decide),
    hother h13 (by decide), hother h14 (by decide), hother h15 (by decide), hother h16 (by decide), Bind.bind, Except.bind,
    Option.getD_some, hfields]
  rfl

/-- The actor of the last event is changed, and the document is taken.
Source: `ledger.py`, `RemediationLedger.from_dict`
Kind: T -/
theorem altered_event_accepted :
    Function.Injective sampleHost.sha256 ∧ ∃ event ledger loaded,
      LifecycleAuditEvent.create sampleHost plainWording firstEvent (.str "FINDING_DETECTED") (.obj []) =
          .ok event ∧
        empty.append event = .ok ledger ∧
        ¬Json.Same (.obj (alteredDocument ledger)) (.obj ledger.toDict) ∧
        fromDict sampleHost plainWording (alteredDocument ledger) = .ok loaded ∧
        validateChain loaded.events = .ok () := by
  refine ⟨sampleHost_injective, ?_⟩
  obtain ⟨event, hevent, hfields⟩ := create_clean sampleHost plainWording firstEvent (.str "FINDING_DETECTED") (.obj [])
    .findingDetected [] [] [] (by decide) (by decide) rfl rfl rfl rfl
  obtain ⟨altered, haltered, hfields'⟩ := create_clean sampleHost plainWording { firstEvent with actor := .str "mallory" }
    (.str "FINDING_DETECTED") (.obj []) .findingDetected [] [] [] (by decide) (by decide) rfl rfl rfl rfl
  obtain ⟨ledger, hledger⟩ := exists_single hfields rfl rfl
  obtain ⟨loaded, hloaded⟩ := exists_single hfields' rfl rfl
  refine ⟨event, ledger, loaded, hevent, append_ok_iff.mpr hledger, fun hsame => ?_, fromDict_ok_iff.mpr ?_, loaded.checked⟩
  · -- the only event of one document has another actor than that of the other
    have hsorted := Json.obj.inj ((Json.sortKeys_obj _).symm.trans (hsame.trans (Json.sortKeys_obj _)))
    have hevents := congrArg (Dict.lookup "events") hsorted
    rw [Json.lookup_sortMembers (by simp [alteredDocument]), Json.lookup_sortMembers (by simp [toDict])] at hevents
    have hitem : (alterActor event).sortKeys = event.toDict.sortKeys := by
      simpa [alteredDocument, toDict, Dict.lookup, Json.sortKeys, Json.sortKeysItems, hledger] using hevents
    have hmembers := Json.obj.inj ((Json.sortKeys_obj _).symm.trans (hitem.trans (Json.sortKeys_obj _)))
    have hactor := congrArg (Dict.lookup "actor") hmembers
    rw [Json.lookup_sortMembers (by simp), Json.lookup_sortMembers (by simp)] at hactor
    simp [Dict.lookup, hfields, firstEvent] at hactor
  · have hdocument : Json.getD "events" (alteredDocument ledger) (.arr []) = .arr [alterActor event] := by
      simp [Json.getD, alteredDocument, Dict.lookup, hledger]
    unfold readEvents
    rw [hdocument, hloaded]
    change [alterActor event].mapM _ = Except.ok [altered]
    rw [List.mapM_cons, fromDict_alterActor hfields]
    rw [AuditEventType.value, haltered]
    rfl

end RemediationLedger

end KarsaSec.Remediation
