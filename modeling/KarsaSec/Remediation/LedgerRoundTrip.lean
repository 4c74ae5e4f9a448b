import KarsaSec.Remediation.Ledger

/-!
# A ledger through its document

`to_dict` followed by `from_dict`, for every ledger that appends can build.

* `appended_iff`: the ledgers that accepted appends build are just the ledgers.
* `fromDict_toDict_event` is what an event becomes on the way: its metadata pass through a mapping and through
  `sanitize_metadata`, and the fingerprint is computed anew.
* `event_roundTrip`: an event comes back just if its metadata are `Canonical`.
* `ledger_roundTrip_iff` says the same of ledgers. `colliding_key_lost` is one that does not come back.
-/

namespace KarsaSec.Remediation

open KarsaSec.Found ControlledPatchApplier

variable {F : Type} {host : Host} {w : Wording F}

/-! ## Metadata -/

/-- Metadata that a mapping and another `sanitize_metadata` leave alone: each key once, in order, and no white
space around a key or a value.
Source: `audit.py`, `sanitize_metadata`
Kind: C -/
structure Canonical (metadata : List (String × String)) : Prop where
  ascending : metadata.Pairwise fun a b => a.1 < b.1
  stripped : ∀ m ∈ metadata, strip m.1 = m.1 ∧ strip m.2 = m.2

theorem map_stripped {metadata : List (String × String)}
    (h : ∀ m ∈ metadata, strip m.1 = m.1 ∧ strip m.2 = m.2) :
    metadata.map (fun m => (strip m.1, strip m.2)) = metadata := by
  conv_rhs => rw [← List.map_id metadata]
  refine List.map_congr_left fun m hm => ?_
  obtain ⟨hkey, hvalue⟩ := h m hm
  rw [hkey, hvalue]
  rfl

theorem Canonical.keys {metadata : List (String × String)} (h : Canonical metadata) :
    (metadata.map Prod.fst).Nodup :=
  List.pairwise_map.mpr (h.ascending.imp fun hlt => ne_of_lt hlt)

/-- The loop strips the items, and raises on a sensitive key. Kind: L -/
theorem sanitizeItems_ok {items out : List (String × String)} :
    sanitizeItems w items = .ok out ↔
      (∀ m ∈ items, isSensitiveKey w m.1 = false) ∧ out = items.map fun m => (strip m.1, strip m.2) := by
  induction items generalizing out with
  | nil =>
    constructor
    · intro h
      exact ⟨fun _ hm => absurd hm List.not_mem_nil, (Except.ok.inj h).symm⟩
    · rintro ⟨-, rfl⟩
      rfl
  | cons m rest ih =>
    obtain ⟨k, v⟩ := m
    rw [sanitizeItems, List.forall_mem_cons, List.map_cons]
    cases hkey : isSensitiveKey w k with
    | true => simp
    | false =>
      rw [if_neg (by decide)]
      constructor
      · intro h
        obtain ⟨items, hitems, hout⟩ := bind_ok h
        obtain ⟨hrest, rfl⟩ := ih.mp hitems
        exact ⟨⟨rfl, hrest⟩, (Except.ok.inj hout).symm⟩
      · rintro ⟨⟨-, hrest⟩, rfl⟩
        rw [ih.mpr ⟨hrest, rfl⟩]
        rfl

theorem sanitizeMetadata_ok {items out : List (String × String)} :
    sanitizeMetadata w items = .ok out ↔
      (∀ m ∈ items, isSensitiveKey w m.1 = false) ∧
        out = sortPairs (items.map fun m => (strip m.1, strip m.2)) := by
  unfold sanitizeMetadata
  constructor
  · intro h
    obtain ⟨stripped, hitems, hout⟩ := bind_ok h
    obtain ⟨hkeys, rfl⟩ := sanitizeItems_ok.mp hitems
    exact ⟨hkeys, (Except.ok.inj hout).symm⟩
  · rintro ⟨hkeys, rfl⟩
    rw [sanitizeItems_ok.mpr ⟨hkeys, rfl⟩]
    rfl

/-- Metadata come back as they were just if they are canonical. Kind: L -/
theorem sanitized_iff_canonical {metadata : List (String × String)} :
    sortPairs ((Dict.ofList metadata).entries.map fun m => (strip m.1, strip m.2)) = metadata ↔
      Canonical metadata := by
  constructor
  · intro h
    have hperm := sortPairs_perm ((Dict.ofList metadata).entries.map fun m => (strip m.1, strip m.2))
    rw [h] at hperm
    have hstripped : ∀ m ∈ metadata, strip m.1 = m.1 ∧ strip m.2 = m.2 := by grind [strip_strip]
    -- the mapping has as many entries as there are pairs, so no key came twice
    have hlength : (Dict.ofList metadata).entries.length = metadata.length := by
      rw [hperm.length_eq, List.length_map]
    have hkeys : (metadata.map Prod.fst).Nodup := by
      have hsub : (Dict.ofList metadata).keys.Subperm (metadata.map Prod.fst) :=
        List.subperm_of_subset (Dict.ofList metadata).nodup_keys fun k hk => Dict.mem_keys_ofList.mp hk
      have hsame := hsub.perm_of_length_le (by rw [List.length_map, Dict.keys, List.length_map, hlength])
      exact hsame.nodup_iff.mp (Dict.ofList metadata).nodup_keys
    rw [Dict.entries_ofList hkeys, map_stripped hstripped] at h
    refine ⟨?_, hstripped⟩
    rw [← h]
    exact ascending_sortPairs hkeys
  · intro h
    rw [Dict.entries_ofList h.keys, map_stripped h.stripped, sortPairs_of_ascending h.ascending]

/-! ## Events -/

namespace LifecycleAuditEvent

/-- The constructor returns the fields that it is given. Kind: L -/
theorem build_ok {fields : EventFields F} {e : LifecycleAuditEvent host w} :
    build host w fields = .ok e ↔ e.toEventFields = fields := by
  unfold build
  constructor
  · grind
  · rintro rfl
    split
    · rfl
    · next h =>
        rw [e.checked] at h
        cases h

theorem sensitive_free (e : LifecycleAuditEvent host w) :
    ∀ m ∈ e.metadata, isSensitiveKey w m.1 = false := by
  have h := e.checked
  unfold EventFields.postInit at h
  split at h
  · cases h
  · split at h
    · cases h
    · obtain ⟨_, hmetadata, -⟩ := bind_ok h
      exact (sanitizeMetadata_ok.mp hmetadata).1

/-- An event read back from its own document.
Source: `audit.py`, `LifecycleAuditEvent.from_dict`
Kind: L -/
theorem fromDict_toDict_event (e : LifecycleAuditEvent host w) :
    fromDict host w e.toDict = (do
      let metadata ← sanitizeMetadata w (Dict.ofList e.metadata).entries
      build host w
        { e.toEventFields with
          metadata
          eventFingerprint := e.computeEventFingerprint host w e.eventType metadata }) := by
  have hitems : rawItems w (.obj ((Dict.ofList e.metadata).entries.map fun m =>
      (m.1, Json.str (F := F) m.2))) = .ok (Dict.ofList e.metadata).entries := by
    simp [rawItems, Function.comp_def, w.text_str]
  obtain ⟨members, hdict, h1, h2, h3, h4, h5, h6, h7, h8, h9, h10, h11, h12, h13, h14, h15, h16⟩ :=
    RemediationLedger.lookup_toDict_event e
  rw [hdict]
  simp only [fromDict, Json.asObj, Json.getD, Json.require, Json.asStr, h1, h2, h3, h4, h5, h6, h7, h8,
    h9, h10, h11, h12, h13, h14, h15, h16, create, Bind.bind, Except.bind, w.text_str,
    AuditEventType.ofText_value, hitems, Option.getD_some]

/-- An event comes back just if its metadata are canonical.
Source: `audit.py`, `LifecycleAuditEvent.to_dict`, `LifecycleAuditEvent.from_dict`
Kind: P -/
theorem event_roundTrip {e : LifecycleAuditEvent host w} (h : e.eventFingerprint = e.expectedFp host w) :
    fromDict host w e.toDict = .ok e ↔ Canonical e.metadata := by
  rw [fromDict_toDict_event, ← sanitized_iff_canonical]
  constructor
  · intro hload
    obtain ⟨metadata, hmetadata, hbuild⟩ := bind_ok hload
    have hfields : e.metadata = metadata := congrArg EventFields.metadata (build_ok.mp hbuild)
    rw [← (sanitizeMetadata_ok.mp hmetadata).2, ← hfields]
  · intro hcanonical
    have hkeys : ∀ m ∈ (Dict.ofList e.metadata).entries, isSensitiveKey w m.1 = false := by
      intro m hm
      have hkey : m.1 ∈ (Dict.ofList e.metadata).keys := List.mem_map_of_mem hm
      obtain ⟨m', hm', heq⟩ := List.mem_map.mp (Dict.mem_keys_ofList.mp hkey)
      rw [← heq]
      exact e.sensitive_free m' hm'
    rw [sanitizeMetadata_ok.mpr ⟨hkeys, rfl⟩, hcanonical]
    simp only [bind, Except.bind]
    rw [build_ok]
    rw [EventFields.expectedFp] at h
    rw [← h]

end LifecycleAuditEvent

/-! ## Ledgers -/

namespace RemediationLedger

/-- The ledgers that accepted appends build are just the ledgers.
Source: `ledger.py`, `RemediationLedger.append`
Kind: L -/
theorem appended_iff {events : List (LifecycleAuditEvent host w)} {ledger : RemediationLedger host w} :
    events.foldlM append empty = .ok ledger ↔ ledger.events = events := by
  induction events using List.reverseRecOn generalizing ledger with
  | nil =>
    constructor
    · intro h
      cases h
      rfl
    · intro h
      rw [ext_events (a := ledger) (b := empty) h]
      rfl
  | append_singleton events event ih =>
    rw [List.foldlM_append]
    constructor
    · intro h
      obtain ⟨before, hbefore, happend⟩ := bind_ok h
      obtain ⟨after, happend, hlast⟩ := bind_ok happend
      cases hlast
      rw [append_ok_iff.mp happend, ih.mp hbefore]
    · intro h
      have hchain := ledger.chained
      rw [h] at hchain
      have hchecked := validateChain_iff.mpr hchain.of_append
      have hbefore : events.foldlM append empty = .ok ⟨events, hchecked⟩ := ih.mpr rfl
      have happend : append ⟨events, hchecked⟩ event = .ok ledger := append_ok_iff.mpr h
      rw [hbefore]
      simp only [Bind.bind, Except.bind, List.foldlM_cons, List.foldlM_nil, happend]
      rfl

/-- The events of a document of a ledger are read one by one. Kind: L -/
theorem readEvents_document (ledger : RemediationLedger host w) : readEvents host w ledger.toDict =
    (ledger.events.map LifecycleAuditEvent.toDict).mapM (LifecycleAuditEvent.fromDict host w) := by
  simp [readEvents, toDict, Json.getD, Json.iterate, Dict.lookup, Bind.bind, Except.bind]

theorem readEvents_toDict (ledger : RemediationLedger host w) :
    readEvents host w ledger.toDict = .ok ledger.events ↔
      ∀ e ∈ ledger.events, LifecycleAuditEvent.fromDict host w e.toDict = .ok e := by
  rw [readEvents_document, mapM_ok, List.forall₂_map_left_iff, List.forall₂_same]

/-- A ledger built by appends comes back from its document just if the metadata of its events are canonical.
Source: `ledger.py`, `RemediationLedger.to_dict`, `RemediationLedger.from_dict`
Kind: P -/
theorem ledger_roundTrip_iff {events : List (LifecycleAuditEvent host w)} {ledger : RemediationLedger host w}
    (hbuilt : events.foldlM append empty = .ok ledger) :
    fromDict host w ledger.toDict = .ok ledger ↔ ∀ e ∈ events, Canonical e.metadata := by
  rw [fromDict_ok_iff, readEvents_toDict, ← appended_iff.mp hbuilt]
  constructor
  · intro h e he
    exact (LifecycleAuditEvent.event_roundTrip (ledger.chained.computed e he)).mp (h e he)
  · intro h e he
    exact (LifecycleAuditEvent.event_roundTrip (ledger.chained.computed e he)).mpr (h e he)

/-- The document of an event reads as the event with what becomes of its metadata. Kind: L -/
theorem fromDict_created {e : EventBinding F} {evType : AuditEventType} {items out : List (String × String)}
    {event read : LifecycleAuditEvent host w}
    (hfields : event.toEventFields =
      { e with
        eventType := evType, metadata := items
        eventFingerprint := e.computeEventFingerprint host w evType items })
    (hread : read.toEventFields =
      { e with
        eventType := evType, metadata := out
        eventFingerprint := e.computeEventFingerprint host w evType out })
    (hout : sanitizeMetadata w (Dict.ofList items).entries = .ok out) :
    LifecycleAuditEvent.fromDict host w event.toDict = .ok read := by
  rw [LifecycleAuditEvent.fromDict_toDict_event, hfields, hout]
  simp only [bind, Except.bind]
  rw [LifecycleAuditEvent.build_ok, hread]

/-- A note may be recorded. Kind: L -/
theorem isSensitiveKey_note {k : String} (h : strip (lower k) = "note") : isSensitiveKey plainWording k = false := by
  have hfree : (sensitiveKeySubstrings.any fun sens => inStr sens "note") = false := by decide
  change (decide (strip (lower k) ∉ exemptMetadataKeys) && sensitiveKeySubstrings.any fun sens => inStr sens (strip (lower k))) =
    false
  rw [h, hfree, Bool.and_false]

/-- Notes come back stripped and in order. Kind: L -/
theorem sanitizeMetadata_notes {items out : List (String × String)} (h : ∀ m ∈ items, strip (lower m.1) = "note")
    (hout : out = sortPairs (items.map fun m => (strip m.1, strip m.2))) : sanitizeMetadata plainWording items = .ok out :=
  sanitizeMetadata_ok.mpr ⟨fun m hm => isSensitiveKey_note (h m hm), hout⟩

/-- Metadata with one key. Kind: D -/
def plainMetadata : Json Empty := .obj [("note", .str "first")]

/-- Two events, one with such metadata, are a chain. Kind: L -/
theorem exists_plainChain :
    ∃ first second, ∃ ledger : RemediationLedger sampleHost plainWording,
      LifecycleAuditEvent.create sampleHost plainWording firstEvent (.str "FINDING_DETECTED") plainMetadata = .ok first ∧
        LifecycleAuditEvent.create sampleHost plainWording (secondEvent first.eventFingerprint) (.str "EVIDENCE_VERIFIED")
            (.obj []) = .ok second ∧
          ledger.events = [first, second] ∧ ∀ e ∈ [first, second], Canonical e.metadata := by
  obtain ⟨first, hfirst, hfields⟩ := create_clean sampleHost plainWording firstEvent (.str "FINDING_DETECTED") plainMetadata
    .findingDetected [("note", "first")] [("note", "first")] [("note", "first")] (by decide) (by decide) rfl rfl
    (sanitizeMetadata_notes (by decide) (by decide))
    (sanitizeMetadata_notes (by decide) (by decide))
  obtain ⟨second, hsecond, hfields'⟩ := create_clean sampleHost plainWording (secondEvent first.eventFingerprint)
    (.str "EVIDENCE_VERIFIED") (.obj []) .evidenceVerified [] [] [] (show isBlank "evt_2" = false by decide)
    (show isBlank "F-101" = false by decide) rfl rfl rfl rfl
  obtain ⟨ledger, hledger⟩ := exists_pair hfields hfields'
  refine ⟨first, second, ledger, hfirst, hsecond, hledger, List.forall_mem_cons.mpr ⟨?_, List.forall_mem_singleton.mpr ?_⟩⟩
  · rw [hfields]
    exact ⟨List.pairwise_singleton _ _, by decide⟩
  · rw [hfields']
    exact ⟨List.Pairwise.nil, fun _ hm => absurd hm List.not_mem_nil⟩

/-- Such a chain comes back. Source: `ledger.py`, `RemediationLedger.from_dict`. Kind: T -/
theorem plain_ledger_comes_back :
    ∃ first second ledger,
      LifecycleAuditEvent.create sampleHost plainWording firstEvent (.str "FINDING_DETECTED") plainMetadata = .ok first ∧
        LifecycleAuditEvent.create sampleHost plainWording (secondEvent first.eventFingerprint)
            (.str "EVIDENCE_VERIFIED") (.obj []) = .ok second ∧
          [first, second].foldlM append empty = .ok ledger ∧ fromDict sampleHost plainWording ledger.toDict = .ok ledger := by
  obtain ⟨first, second, ledger, hfirst, hsecond, hledger, hcanonical⟩ := exists_plainChain
  have hbuilt : [first, second].foldlM append empty = .ok ledger := appended_iff.mpr hledger
  exact ⟨first, second, ledger, hfirst, hsecond, hbuilt, (ledger_roundTrip_iff hbuilt).mpr hcanonical⟩

/-- The metadata of the events of a ledger. Kind: D -/
def metadataOf (ledger : RemediationLedger host w) : List (List (String × String)) :=
  ledger.events.map fun e => e.metadata

/-- Metadata with two keys that are one key without their white space. Kind: D -/
def collidingMetadata : Json Empty := .obj [("note", .str "first"), (" note", .str "second")]

/-- An event with such metadata is appended, and its ledger comes back with one of the two.
Source: `ledger.py`, `RemediationLedger.from_dict`
Kind: T -/
theorem colliding_key_lost :
    ∃ event ledger loaded,
      LifecycleAuditEvent.create sampleHost plainWording firstEvent (.str "FINDING_DETECTED")
          collidingMetadata = .ok event ∧
        [event].foldlM append empty = .ok ledger ∧
        fromDict sampleHost plainWording ledger.toDict = .ok loaded ∧ loaded ≠ ledger ∧
        metadataOf loaded ≠ metadataOf ledger := by
  obtain ⟨event, hevent, hfields⟩ := create_clean sampleHost plainWording firstEvent (.str "FINDING_DETECTED")
    collidingMetadata .findingDetected [("note", "first"), (" note", "second")] [("note", "first"), ("note", "second")]
    [("note", "first"), ("note", "second")] (by decide) (by decide) rfl rfl
    (sanitizeMetadata_notes (by decide) (by decide))
    (sanitizeMetadata_notes (by decide) (by decide))
  have hclean : sanitizeMetadata plainWording [("note", "second")] = .ok [("note", "second")] :=
    sanitizeMetadata_notes (by decide) (by decide)
  obtain ⟨single, -, hsingle⟩ := create_clean sampleHost plainWording firstEvent (.str "FINDING_DETECTED")
    (.obj [("note", .str "second")]) .findingDetected [("note", "second")] [("note", "second")] [("note", "second")] (by decide)
    (by decide) rfl rfl hclean hclean
  obtain ⟨ledger, hledger⟩ := exists_single hfields rfl rfl
  obtain ⟨loaded, hloaded⟩ := exists_single hsingle rfl rfl
  have hbefore : metadataOf ledger = [[("note", "first"), ("note", "second")]] := by
    rw [metadataOf, hledger, List.map_singleton, hfields]
  have hafter : metadataOf loaded = [[("note", "second")]] := by rw [metadataOf, hloaded, List.map_singleton, hsingle]
  have hdiffer : metadataOf loaded ≠ metadataOf ledger := by
    rw [hbefore, hafter]
    decide
  -- the document has the key once, with its last value
  have hentries : (Dict.ofList [("note", "first"), ("note", "second")]).entries = [("note", "second")] := by decide
  have hread := fromDict_created hfields hsingle (hentries.symm ▸ hclean)
  refine ⟨event, ledger, loaded, hevent, appended_iff.mpr hledger, fromDict_ok_iff.mpr ?_, fun heq => hdiffer (by rw [heq]),
    hdiffer⟩
  rw [readEvents_document, hledger, hloaded, List.map_singleton, List.mapM_cons, hread]
  rfl

end RemediationLedger

end KarsaSec.Remediation
