import KarsaSec.Remediation.ApplierOutcome
import KarsaSec.Remediation.TransactionPackage

/-!
# What an exchange of packages preserves

* `import_export`: a package that is exported is imported again as it was.
* `accepted_iff` says when the validator accepts a package.
* `accepted_eq`: packages that it accepts, with one fingerprint, differ in the spelling of the repository
  identity only, as long as the digest has no collisions.

The first and the last rest on `readPackage_sorted`: a package can be read off the canonical form of its
document.
-/

namespace KarsaSec.Remediation

open KarsaSec.Found

variable {F : Type} {rt : Runtime F}

/-! ## Sorted documents -/

/-- A member is read off a sorted mapping. Kind: L -/
theorem item_sortKeys {members : List (String × Json F)} (hkeys : (members.map Prod.fst).Nodup)
    (key : String) : item key (Json.obj members).sortKeys =
      match Dict.lookup key members with
      | some v => .ok v.sortKeys
      | none => .error (.key key) := by
  rw [Json.sortKeys_obj]
  unfold item
  simp only [Json.lookup_sortMembers hkeys]
  rcases Dict.lookup key members with _ | v <;> rfl

theorem getD_sortMembers {members : List (String × Json F)} (hkeys : (members.map Prod.fst).Nodup)
    (key : String) (default : Json F) : Json.getD key (Json.sortMembers members) default =
      ((Dict.lookup key members).map Json.sortKeys).getD default := by
  unfold Json.getD
  rw [Json.lookup_sortMembers hkeys]

/-! ## Reading the sections -/

theorem readFinding_sorted (c : FindingCommitment String) :
    readFinding rt (c.map .str).toDict.sortKeys = .ok (c.map (.str : String → Json F)) := by
  simp [readFinding, FindingCommitment.toDict, FindingCommitment.map, item_sortKeys, Dict.lookup, intOf,
    raising]
  rfl

theorem readProposal_sorted (c : ProposalCommitment String) :
    readProposal (c.map .str).toDict.sortKeys = .ok (c.map (.str : String → Json F)) := by
  simp [readProposal, ProposalCommitment.toDict, ProposalCommitment.map, item_sortKeys, Dict.lookup,
    Json.iterate, raising]
  rfl

theorem readEvidence_sorted (c : EvidenceCommitment String) :
    readEvidence rt (c.map .str).toDict.sortKeys = .ok (c.map (.str : String → Json F)) := by
  simp [readEvidence, EvidenceCommitment.toDict, EvidenceCommitment.map, item_sortKeys, Dict.lookup,
    intOf, raising]
  rfl

theorem readRootCause_sorted (c : RootCauseCommitment String F) :
    readRootCause rt (c.map .str).toDict.sortKeys = .ok (c.map (.str : String → Json F)) := by
  simp [readRootCause, RootCauseCommitment.toDict, RootCauseCommitment.map, item_sortKeys, Dict.lookup,
    floatOf, raising]
  rfl

theorem readStrategy_sorted (c : StrategyCommitment String) :
    readStrategy (c.map .str).toDict.sortKeys = .ok (c.map (.str : String → Json F)) := by
  simp [readStrategy, StrategyCommitment.toDict, StrategyCommitment.map, item_sortKeys, Dict.lookup]
  rfl

theorem readApproval_sorted (c : ApprovalCommitment String) :
    readApproval (c.map .str).toDict.sortKeys = .ok (c.map (.str : String → Json F)) := by
  simp [readApproval, ApprovalCommitment.toDict, ApprovalCommitment.map, item_sortKeys, Dict.lookup]
  rfl

theorem readApplication_sorted (c : ApplicationCommitment String) :
    readApplication (c.map .str).toDict.sortKeys = .ok (c.map (.str : String → Json F)) := by
  simp [readApplication, ApplicationCommitment.toDict, ApplicationCommitment.map, item_sortKeys, Dict.lookup]
  rfl

theorem readVerification_sorted (c : VerificationCommitment String) :
    readVerification rt (c.map .str).toDict.sortKeys = .ok (c.map (.str : String → Json F)) := by
  simp [readVerification, VerificationCommitment.toDict, VerificationCommitment.map, item_sortKeys, Dict.lookup,
    intOf, raising]
  rfl

/-- A section is read if there is one. Kind: L -/
theorem optionalSection_sorted {α β : Type} {d : List (String × Json F)}
    (hkeys : (d.map Prod.fst).Nodup) {key : String} {toDict : β → Json F}
    {read : Json F → Except Raised β} {f : α → β} {x : Option α}
    (hlookup : Dict.lookup key d = some (optionalDict toDict (x.map f)))
    (hdict : ∀ c, ∃ m rest, toDict c = .obj (m :: rest))
    (hread : ∀ c, read (toDict (f c)).sortKeys = .ok (f c)) :
    optionalSection rt (Json.sortMembers d) key read = .ok (x.map f) := by
  unfold optionalSection
  rw [getD_sortMembers hkeys, hlookup]
  rcases x with _ | c
  · simp [optionalDict, Json.truthy]
  · obtain ⟨m, rest, hc⟩ := hdict (f c)
    have hne : Json.sortMembers (m :: rest) ≠ [] := fun h => by
      have hlength := (Json.sortMembers_perm (m :: rest)).length_eq
      rw [h] at hlength
      cases hlength
    have htruthy : (toDict (f c)).sortKeys.truthy rt.toWording = true := by
      rw [hc, Json.sortKeys_obj]
      simpa [Json.truthy] using hne
    simp only [Option.map_some, Option.getD_some, optionalDict, htruthy, if_true, hread c]
    rfl

theorem nodup_keys_toDict (p : RemediationTransactionPackage (Json F) F) :
    (p.toDict.map Prod.fst).Nodup := by
  simp [RemediationTransactionPackage.toDict, RemediationTransactionPackage.members]

/-- A package is read off the canonical form of its document. Kind: P -/
theorem readPackage_sorted (r : RemediationTransactionPackage String F) :
    readPackage rt (Json.sortMembers r.asJson.toDict) = .ok r.asJson := by
  have hkeys := nodup_keys_toDict r.asJson
  have hitem : ∀ key v, Dict.lookup key r.asJson.toDict = some v →
      item key (.obj (Json.sortMembers r.asJson.toDict)) = .ok v.sortKeys := by
    intro key v hv
    rw [← Json.sortKeys_obj, item_sortKeys hkeys, hv]
  have hget : ∀ key v default, Dict.lookup key r.asJson.toDict = some v →
      Json.getD key (Json.sortMembers r.asJson.toDict) default = v.sortKeys := by
    intro key v default hv
    rw [getD_sortMembers hkeys, hv]
    rfl
  have hevidence : optionalSection rt (Json.sortMembers r.asJson.toDict) "evidence" (readEvidence rt) =
      .ok r.asJson.evidence :=
    optionalSection_sorted hkeys rfl (fun c => ⟨_, _, rfl⟩) readEvidence_sorted
  have hrootCause : optionalSection rt (Json.sortMembers r.asJson.toDict) "root_cause" (readRootCause rt) =
      .ok r.asJson.rootCause :=
    optionalSection_sorted hkeys rfl (fun c => ⟨_, _, rfl⟩) readRootCause_sorted
  have hstrategy : optionalSection rt (Json.sortMembers r.asJson.toDict) "strategy" readStrategy =
      .ok r.asJson.strategy :=
    optionalSection_sorted hkeys rfl (fun c => ⟨_, _, rfl⟩) readStrategy_sorted
  have hproposal : optionalSection rt (Json.sortMembers r.asJson.toDict) "proposal" readProposal =
      .ok r.asJson.proposal :=
    optionalSection_sorted hkeys rfl (fun c => ⟨_, _, rfl⟩) readProposal_sorted
  have happroval : optionalSection rt (Json.sortMembers r.asJson.toDict) "approval" readApproval =
      .ok r.asJson.approval :=
    optionalSection_sorted hkeys rfl (fun c => ⟨_, _, rfl⟩) readApproval_sorted
  have happlication : optionalSection rt (Json.sortMembers r.asJson.toDict) "application" readApplication =
      .ok r.asJson.application :=
    optionalSection_sorted hkeys rfl (fun c => ⟨_, _, rfl⟩) readApplication_sorted
  have hverification : optionalSection rt (Json.sortMembers r.asJson.toDict) "verification"
      (readVerification rt) = .ok r.asJson.verification :=
    optionalSection_sorted hkeys rfl (fun c => ⟨_, _, rfl⟩) readVerification_sorted
  unfold readPackage
  rw [hitem "transaction_id" _ rfl, hitem "repository_identity" _ rfl, hitem "created_at" _ rfl,
    hitem "status" _ rfl, hitem "finding" _ rfl, hitem "provenance" _ rfl, hitem "audit" _ rfl,
    hitem "receipt_fingerprint" _ rfl, hget "schema_name" _ _ rfl, hget "schema_version" _ _ rfl,
    hevidence, hrootCause, hstrategy, hproposal, happroval, happlication, hverification]
  have hfinding : readFinding rt r.asJson.finding.toDict.sortKeys = .ok r.asJson.finding :=
    readFinding_sorted r.finding
  have hprovenance : item "graph_fingerprint" r.asJson.provenance.toDict.sortKeys =
      .ok r.asJson.provenance.graphFingerprint.sortKeys := by
    simp [ProvenanceCommitment.toDict, item_sortKeys, Dict.lookup]
  have haudit : item "ledger_fingerprint" r.asJson.audit.toDict.sortKeys =
      .ok r.asJson.audit.ledgerFingerprint.sortKeys := by
    simp [AuditCommitment.toDict, item_sortKeys, Dict.lookup]
  simp only [bind, Except.bind, hfinding, hprovenance, haudit, pure, Except.pure]
  simp [RemediationTransactionPackage.asJson, RemediationTransactionPackage.map]

/-! ## The keys of a package -/

/-- The keys of each mapping in the document of a package. Kind: D -/
def keyLists : List (List String) :=
  [["schema_name", "schema_version", "transaction_id", "repository_identity", "created_at", "status",
      "finding", "evidence", "root_cause", "strategy", "proposal", "approval", "application",
      "verification", "provenance", "audit", "receipt_fingerprint"],
    ["finding_id", "rule_id", "severity", "cwe", "file_path", "line_number", "finding_fingerprint"],
    ["evidence_count", "evidence_fingerprint"], ["rca_category", "confidence", "rca_fingerprint"],
    ["strategy_type", "target_file", "strategy_fingerprint"],
    ["proposal_id", "risk_level", "target_files", "proposal_fingerprint"],
    ["approval_token_id", "approver", "approval_status", "approval_fingerprint"],
    ["source_snapshot_hash", "post_apply_snapshot_hash", "application_status"],
    ["verification_run_id", "status", "matching_findings_count", "verification_fingerprint"],
    ["graph_fingerprint"], ["ledger_fingerprint"]]

section keys

variable {p : F → Prop} {q : List String → Prop}

theorem forall_optionalDict {α β : Type} {toDict : β → Json F} {f : α → β} {x : Option α}
    (h : ∀ c ∈ x, Json.Forall p q (toDict (f c))) : Json.Forall p q (optionalDict toDict (x.map f)) := by
  rcases x with _ | c
  · trivial
  · exact h c rfl

/-- A property of the floats and the keys of a package is one of its document. Kind: L -/
theorem forall_toDict {r : RemediationTransactionPackage String F} (hq : ∀ ks ∈ keyLists, q ks)
    (hp : ∀ c ∈ r.rootCause, p c.confidence) : Json.Forall p q (.obj r.asJson.toDict) := by
  simp only [keyLists, List.mem_cons, List.not_mem_nil, or_false, forall_eq_or_imp, forall_eq] at hq
  obtain ⟨hpackage, hfinding, hevidence, hrootCause, hstrategy, hproposal, happroval, happlication,
    hverification, hprovenance, haudit⟩ := hq
  have htexts : ∀ l : List String, Json.ForallItems p q (l.map .str) := by
    intro l
    rw [Json.forallItems_iff]
    intro v hv
    obtain ⟨s, -, rfl⟩ := List.mem_map.mp hv
    trivial
  have hfindingDict : Json.Forall p q r.asJson.finding.toDict :=
    ⟨hfinding, trivial, trivial, trivial, trivial, trivial, trivial, trivial, trivial⟩
  refine ⟨hpackage, trivial, trivial, trivial, trivial, trivial, trivial, hfindingDict, ?_, ?_, ?_, ?_,
    ?_, ?_, ?_, ⟨hprovenance, trivial, trivial⟩, ⟨haudit, trivial, trivial⟩, trivial, trivial⟩
  · exact forall_optionalDict fun c _ => ⟨hevidence, trivial, trivial, trivial⟩
  · exact forall_optionalDict fun c hc => ⟨hrootCause, trivial, hp c hc, trivial, trivial⟩
  · exact forall_optionalDict fun c _ => ⟨hstrategy, trivial, trivial, trivial, trivial⟩
  · exact forall_optionalDict fun c _ => ⟨hproposal, trivial, trivial, htexts c.targetFiles, trivial, trivial⟩
  · exact forall_optionalDict fun c _ => ⟨happroval, trivial, trivial, trivial, trivial, trivial⟩
  · exact forall_optionalDict fun c _ => ⟨happlication, trivial, trivial, trivial, trivial⟩
  · exact forall_optionalDict fun c _ => ⟨hverification, trivial, trivial, trivial, trivial, trivial⟩

end keys

/-- Packages whose floats are finite. Kind: D -/
def RemediationTransactionPackage.Finite {V : Type} (rt : Runtime F)
    (p : RemediationTransactionPackage V F) : Prop :=
  ∀ c ∈ p.rootCause, (rt.floats.numeral c.confidence).isSome = true

theorem plain_toDict {r : RemediationTransactionPackage String F} (hr : r.Finite rt) :
    Json.Plain rt.floats (.obj r.asJson.toDict) :=
  forall_toDict (by decide) hr

mutual

/-- Values without a prohibited key. Kind: L -/
theorem containsProhibited_eq_none : {v : Json F} →
    Json.Forall (fun _ => True) (fun ks => ∀ k ∈ ks, isProhibitedKey rt k = false) v →
    containsProhibitedPrivacyData rt v = none
  | .null, _ => by unfold containsProhibitedPrivacyData; rfl
  | .bool _, _ => by unfold containsProhibitedPrivacyData; rfl
  | .int _, _ => by unfold containsProhibitedPrivacyData; rfl
  | .float _, _ => by unfold containsProhibitedPrivacyData; rfl
  | .str _, _ => by unfold containsProhibitedPrivacyData; rfl
  | .arr items, h => by
    unfold containsProhibitedPrivacyData
    exact prohibitedItem_eq_none h
  | .obj members, h => by
    unfold containsProhibitedPrivacyData
    exact prohibitedMember_eq_none h.1 h.2

theorem prohibitedMember_eq_none : {members : List (String × Json F)} →
    (∀ k ∈ members.map Prod.fst, isProhibitedKey rt k = false) →
    Json.ForallMembers (fun _ => True) (fun ks => ∀ k ∈ ks, isProhibitedKey rt k = false) members →
    prohibitedMember rt members = none
  | [], _, _ => by
    unfold prohibitedMember
    rfl
  | (k, v) :: rest, hkeys, h => by
    obtain ⟨hk, hrest⟩ := List.forall_mem_cons.mp hkeys
    unfold prohibitedMember
    rw [hk, if_neg Bool.false_ne_true, containsProhibited_eq_none h.1]
    exact prohibitedMember_eq_none hrest h.2

theorem prohibitedItem_eq_none : {items : List (Json F)} →
    Json.ForallItems (fun _ => True) (fun ks => ∀ k ∈ ks, isProhibitedKey rt k = false) items →
    prohibitedItem rt items = none
  | [], _ => by
    unfold prohibitedItem
    rfl
  | v :: rest, h => by
    unfold prohibitedItem
    rw [containsProhibited_eq_none h.1]
    exact prohibitedItem_eq_none h.2

end

/-- Small letters and underscores are not stripped. Kind: L -/
theorem strip_eq_self_of_isLower {s : String} (h : (s.toList.all fun c => c.isLower || c = '_') = true) : strip s = s := by
  have hspace : ∀ c ∈ s.toList, isSpace c = false := by
    intro c hc
    have hlower := List.all_eq_true.mp h c hc
    rcases Bool.or_eq_true_iff.mp hlower with hlower | hunderscore
    · have hrange : 97 ≤ c.toNat ∧ c.toNat ≤ 122 := by
        obtain ⟨hfirst, hlast⟩ := Bool.and_eq_true_iff.mp hlower
        exact ⟨UInt32.le_iff_toNat_le.mp (of_decide_eq_true hfirst), UInt32.le_iff_toNat_le.mp (of_decide_eq_true hlast)⟩
      refine Bool.eq_false_iff.mpr fun hspace => ?_
      simp [isSpace] at hspace
      omega
    · rw [of_decide_eq_true hunderscore]
      rfl
  unfold strip
  rw [stripList_eq_self (fun hne => hspace _ (List.head_mem hne)) (fun hne => hspace _ (List.getLast_mem hne)),
    String.ofList_toList]

/-- No key of a package is a prohibited one. Kind: L -/
theorem keyLists_allowed : ∀ ks ∈ keyLists, ∀ k ∈ ks, isProhibitedKey rt k = false := by
  have hallowed : ∀ ks ∈ keyLists, ∀ k ∈ ks, (k.toList.all fun c => c.isLower || c = '_') = true ∧
      (prohibitedMetadataKeys.any fun prohib => inStr prohib k) = false := by
    simp only [keyLists, List.forall_mem_cons]
    refine ⟨⟨?_, ?_, ?_, ?_, ?_, ?_, ?_, ?_, ?_, ?_, ?_, ?_, ?_, ?_, ?_, ?_, ?_, ?_⟩, ⟨?_, ?_, ?_, ?_, ?_, ?_, ?_, ?_⟩,
      ⟨?_, ?_, ?_⟩, ⟨?_, ?_, ?_, ?_⟩, ⟨?_, ?_, ?_, ?_⟩, ⟨?_, ?_, ?_, ?_, ?_⟩, ⟨?_, ?_, ?_, ?_, ?_⟩, ⟨?_, ?_, ?_, ?_⟩,
      ⟨?_, ?_, ?_, ?_, ?_⟩, ?_⟩ <;> decide +kernel
  intro ks hks k hk
  obtain ⟨hlower, hclean⟩ := hallowed ks hks k hk
  unfold isProhibitedKey
  rw [rt.lower_lower k hlower, strip_eq_self_of_isLower hlower, hclean]

/-! ## Export and import -/

/-- An exported package is imported as it was.
Source: `serialization.py`, `export_rtp`, `import_rtp`
Kind: P -/
theorem import_export {r : RemediationTransactionPackage String F} (hr : r.Finite rt) :
    ∃ text, exportRtp rt r.asJson = some text ∧ importRtp rt (.text text) = .ok r.asJson := by
  have hplain := (plain_toDict hr).sortKeys
  have hload : Json.loads rt.floats ((Json.obj r.asJson.toDict).sortKeys.dumps rt.floats) =
      some (.obj (Json.sortMembers r.asJson.toDict)) := by
    rw [Json.loads_dumps hplain, Json.sortKeys_obj]
  have hprivate : containsProhibitedPrivacyData rt (.obj (Json.sortMembers r.asJson.toDict)) = none := by
    grind [Json.sortKeys_obj, containsProhibited_eq_none, Json.forall_sortKeys, forall_toDict, keyLists_allowed]
  refine ⟨String.ofList ((Json.obj r.asJson.toDict).sortKeys.dumps rt.floats), ?_, ?_⟩
  · unfold exportRtp canonicalize
    rw [decodeUtf8_encodeUtf8]
    rfl
  · simp_all [importRtp, importText, importDict, readPackage_sorted]

/-! ## Fingerprints -/

/-- A package with its repository identity as it is hashed. Kind: D -/
def RemediationTransactionPackage.normalised (r : RemediationTransactionPackage String F) :
    RemediationTransactionPackage String F :=
  { r with repositoryIdentity := normIdentity r.repositoryIdentity }

/-- The validator accepts the package. Kind: D -/
def Accepted (rt : Runtime F) (host : Host) (r : RemediationTransactionPackage String F) : Prop :=
  ∃ res, RTPValidator.validate rt host r.asJson = .ok res ∧ res.isValid = true

variable {host : Host}

/-- The document that is hashed. Kind: D -/
def payload (r : RemediationTransactionPackage String F) : List (String × Json F) :=
  r.normalised.asJson.members r.normalised.asJson.repositoryIdentity

/-- The package with the fingerprint of what it says. Source: `builder.py`, `build`, `pkg_fp`. Kind: D -/
def RemediationTransactionPackage.signed (rt : Runtime F) (host : Host)
    (r : RemediationTransactionPackage String F) : RemediationTransactionPackage String F :=
  { r with receiptFingerprint := computeCanonicalHash rt host (.obj (payload r)) }

/-- The fingerprint itself is not hashed. Kind: L -/
theorem payload_signed (r : RemediationTransactionPackage String F) :
    payload (r.signed rt host) = (payload r : List (String × Json F)) :=
  rfl

theorem computePackageFingerprint_asJson (r : RemediationTransactionPackage String F) :
    r.asJson.computePackageFingerprint rt host =
      .ok (computeCanonicalHash rt host (.obj (payload r))) := by
  have hidentity : r.asJson.repositoryIdentity.asStr = .ok r.repositoryIdentity := rfl
  have hmembers : payload r = r.asJson.members (.str (normIdentity r.repositoryIdentity)) := by
    simp only [payload, RemediationTransactionPackage.members, RemediationTransactionPackage.normalised,
      RemediationTransactionPackage.asJson, RemediationTransactionPackage.map]
  unfold RemediationTransactionPackage.computePackageFingerprint
  rw [hidentity, hmembers]
  rfl

theorem errorUnless_eq_nil {check : Bool} {message : String} :
    RTPValidator.errorUnless check message = [] ↔ check = true := by
  cases check <;> simp [RTPValidator.errorUnless]

/-- A strategy is for the file of the finding. Kind: D -/
def Bound (r : RemediationTransactionPackage String F) : Prop :=
  ∀ s ∈ r.strategy, r.finding.filePath ≠ "" → normSlashes r.finding.filePath = normSlashes s.targetFile

theorem bindingErrors_asJson (r : RemediationTransactionPackage String F) :
    ∃ errors, RTPValidator.bindingErrors rt r.asJson = .ok errors ∧ (errors = [] ↔ Bound r) := by
  unfold RTPValidator.bindingErrors Bound
  rcases hstrategy : r.strategy with _ | s
  · have hnone : r.asJson.strategy = none := congrArg (Option.map _) hstrategy
    rw [hnone]
    exact ⟨[], rfl, by simp⟩
  · have hsome : r.asJson.strategy = some (s.map .str) := congrArg (Option.map _) hstrategy
    rw [hsome]
    have hpath : r.asJson.finding.filePath = .str r.finding.filePath := rfl
    by_cases hfile : r.finding.filePath = ""
    · simp_all [Json.truthy]
    · have htruthy : (Json.str r.finding.filePath : Json F).truthy rt.toWording = true := by
        simpa [Json.truthy] using hfile
      simp only [hpath, htruthy, if_true]
      refine ⟨_, rfl, errorUnless_eq_nil.trans ?_⟩
      simp [hfile]

/-- When the validator accepts a package.
Source: `validator.py`, `RTPValidator.validate`
Kind: P -/
theorem accepted_iff {r : RemediationTransactionPackage String F} :
    Accepted rt host r ↔ r.schemaName = rtpSchemaName ∧ r.schemaVersion = rtpSchemaVersion ∧
      r.receiptFingerprint = computeCanonicalHash rt host (.obj (payload r)) ∧ Bound r ∧
        r.provenance.graphFingerprint ≠ "" ∧ r.audit.ledgerFingerprint ≠ "" := by
  obtain ⟨binding, hbinding, hbound⟩ := @bindingErrors_asJson F rt r
  have hprivate : containsProhibitedPrivacyData rt (.obj r.asJson.toDict) = none :=
    containsProhibited_eq_none (forall_toDict keyLists_allowed fun _ _ => trivial)
  unfold Accepted RTPValidator.validate
  rw [computePackageFingerprint_asJson, hbinding]
  simp only [bind, Except.bind, pure, Except.pure, Except.ok.injEq, exists_eq_left', List.isEmpty_iff,
    List.append_eq_nil_iff, errorUnless_eq_nil, hbound, RTPValidator.schemaErrors,
    RTPValidator.privacyErrors, hprivate, Json.isText_iff]
  have htruthy : ∀ s : String, (Json.str s : Json F).truthy rt.toWording = true ↔ s ≠ "" := by
    simp [Json.truthy]
  simp only [RemediationTransactionPackage.asJson, RemediationTransactionPackage.map, Json.str.injEq,
    and_true, and_assoc, htruthy]

theorem Accepted.fingerprint {r : RemediationTransactionPackage String F} (h : Accepted rt host r) :
    r.receiptFingerprint = computeCanonicalHash rt host (.obj (payload r)) :=
  (accepted_iff.mp h).2.2.1

theorem readPackage_congr {d d' : List (String × Json F)}
    (h : ∀ key, Dict.lookup key d = Dict.lookup key d') : readPackage rt d = readPackage rt d' := by
  have hitem : ∀ key, item key (.obj d) = item key (.obj d') := by
    intro key
    simp only [item, h]
  have hget : ∀ key default, Json.getD key d default = Json.getD key d' default := by
    intro key default
    simp only [Json.getD, h]
  simp only [readPackage, hitem, optionalSection, hget]

/-- The text in a value. Kind: D -/
def textOf : Json F → String
  | .str s => s
  | _ => ""

theorem map_map_self {α β : Type} {f : α → β} {g : β → α} (h : ∀ a, g (f a) = a) (x : Option α) :
    (x.map f).map g = x := by
  rcases x with _ | a
  · rfl
  · rw [Option.map_some, Option.map_some, h]

/-- Nothing is lost among the values of the language. Kind: L -/
theorem map_asJson (r : RemediationTransactionPackage String F) : r.asJson.map textOf = r := by
  have hproposal : ∀ c : ProposalCommitment String, (c.map (.str : String → Json F)).map textOf = c := by
    intro c
    have htexts : (c.targetFiles.map (.str : String → Json F)).map textOf = c.targetFiles := by
      rw [List.map_map]
      exact List.map_id c.targetFiles
    unfold ProposalCommitment.map
    rw [htexts]
    rfl
  unfold RemediationTransactionPackage.asJson RemediationTransactionPackage.map
  rw [map_map_self (fun _ => rfl), map_map_self (fun _ => rfl), map_map_self (fun _ => rfl),
    map_map_self hproposal, map_map_self (fun _ => rfl), map_map_self (fun _ => rfl),
    map_map_self (fun _ => rfl)]
  rfl

theorem plain_payload {r : RemediationTransactionPackage String F} (hr : r.Finite rt) :
    Json.Plain rt.floats (.obj (payload r)) := by
  have hplain : Json.Plain rt.floats (.obj r.normalised.asJson.toDict) := plain_toDict hr
  obtain ⟨hkeys, hmembers⟩ := hplain
  have htail := List.sublist_append_left (payload r)
    [("receipt_fingerprint", r.normalised.asJson.receiptFingerprint)]
  refine ⟨hkeys.sublist (htail.map Prod.fst), Json.forallMembers_iff.mpr fun m hm => ?_⟩
  exact Json.forallMembers_iff.mp hmembers m (htail.subset hm)

theorem toDict_normalised (r : RemediationTransactionPackage String F) :
    r.normalised.asJson.toDict = payload r ++ [("receipt_fingerprint", .str r.receiptFingerprint)] :=
  rfl

/-- Without collisions, packages of one fingerprint say the same. Kind: L -/
theorem sortMembers_payload_eq (hsha : Function.Injective host.sha256)
    {r₁ r₂ : RemediationTransactionPackage String F} (h₁ : r₁.Finite rt) (h₂ : r₂.Finite rt)
    (h : computeCanonicalHash rt host (.obj (payload r₁)) =
      computeCanonicalHash rt host (.obj (payload r₂))) :
    Json.sortMembers (payload r₁) = Json.sortMembers (payload r₂) := by
  have htext := encodeUtf8_injective (hsha h)
  have hsorted := Json.dumps_injective (plain_payload h₁).sortKeys (plain_payload h₂).sortKeys htext
  rw [Json.sortKeys_obj, Json.sortKeys_obj] at hsorted
  exact Json.obj.inj hsorted

/-- Accepted packages of one fingerprint differ in the spelling of the repository identity only.
Source: `validator.py`, `RTPValidator.validate`; `models.py`, `compute_package_fingerprint`
Kind: P -/
theorem accepted_eq (hsha : Function.Injective host.sha256)
    {r₁ r₂ : RemediationTransactionPackage String F} (h₁ : r₁.Finite rt) (h₂ : r₂.Finite rt)
    (hacc₁ : Accepted rt host r₁) (hacc₂ : Accepted rt host r₂)
    (hfp : r₁.receiptFingerprint = r₂.receiptFingerprint) : r₁.normalised = r₂.normalised := by
  have hpayload : Json.sortMembers (payload r₁) = Json.sortMembers (payload r₂) := by
    refine sortMembers_payload_eq hsha h₁ h₂ ?_
    rw [← hacc₁.fingerprint, ← hacc₂.fingerprint, hfp]
  have hlookup : ∀ key, Dict.lookup key (Json.sortMembers r₁.normalised.asJson.toDict) =
      Dict.lookup key (Json.sortMembers r₂.normalised.asJson.toDict) := by
    intro key
    have hhead := congrArg (Dict.lookup key) hpayload
    rw [Json.lookup_sortMembers (plain_payload h₁).1, Json.lookup_sortMembers (plain_payload h₂).1] at hhead
    rw [Json.lookup_sortMembers (nodup_keys_toDict _), Json.lookup_sortMembers (nodup_keys_toDict _),
      toDict_normalised, toDict_normalised, Dict.lookup_append, Dict.lookup_append, Option.map_or,
      Option.map_or, hhead, hfp]
  have hread₁ : readPackage rt _ = _ := readPackage_sorted r₁.normalised
  rw [readPackage_congr hlookup, readPackage_sorted] at hread₁
  rw [← map_asJson r₁.normalised, ← Except.ok.inj hread₁, map_asJson]

/-- What an exchange preserves: a package that is exported is imported as it was, and without collisions of
the digest, accepted packages of one fingerprint are equal up to the spelling of the repository identity.
Source: `serialization.py`, `export_rtp`, `import_rtp`; `validator.py`, `RTPValidator.validate`
Kind: T -/
theorem exchange_faithful (rt : Runtime F) (host : Host) :
    (∀ r : RemediationTransactionPackage String F, r.Finite rt →
      ∃ text, exportRtp rt r.asJson = some text ∧ importRtp rt (.text text) = .ok r.asJson) ∧
    (Function.Injective host.sha256 → ∀ r₁ r₂ : RemediationTransactionPackage String F,
      r₁.Finite rt → r₂.Finite rt → Accepted rt host r₁ → Accepted rt host r₂ →
        r₁.receiptFingerprint = r₂.receiptFingerprint → r₁.normalised = r₂.normalised) :=
  ⟨fun _ hr => import_export hr, fun hsha _ _ h₁ h₂ hacc₁ hacc₂ hfp =>
    accepted_eq hsha h₁ h₂ hacc₁ hacc₂ hfp⟩

/-! ## A package under two identities -/

/-- The floats without a fraction, and one that is not finite. Kind: D -/
def wholeFloats : Floats (Option ℕ) where
  numeral x := x.map fun n => ⟨false, Nat.toDigits 10 n, some ['0'], none⟩
  ofNumeral n := some (Nat.ofDigitChars 10 n.whole 0)
  name _ := ['N', 'a', 'N']
  nan := none
  infinity := none
  negInfinity := none
  wellFormed x n hn := by
    obtain ⟨m, -, rfl⟩ := Option.map_eq_some_iff.mp hn
    refine ⟨⟨(Numeral.wellFormed_ofInt m).whole, fun ds hds => ?_, by simp⟩, rfl⟩
    obtain rfl := Option.some.inj hds
    exact ⟨by simp, by simp⟩
  ofNumeral_numeral x n hn := by
    obtain ⟨m, rfl, rfl⟩ := Option.map_eq_some_iff.mp hn
    exact congrArg some Nat.ofDigitChars_ten_toDigits

theorem toLower_of_isLower {c : Char} (h : c.isLower = true ∨ c = '_') : c.toLower = c := by
  unfold Char.toLower
  rw [dif_neg]
  rintro ⟨hA, hZ⟩
  rcases h with h | rfl
  · have ha : 'a'.val ≤ c.val := of_decide_eq_true (Bool.and_eq_true_iff.mp h).1
    have hle : 'a'.val ≤ 'Z'.val := UInt32.le_trans ha hZ
    exact absurd hle (by decide)
  · exact absurd hZ (by decide)

/-- The language on these values. Kind: D -/
def sampleRuntime : Runtime (Option ℕ) where
  text
    | .str s => s
    | _ => "?"
  text_str _ := rfl
  isZero x := x = some 0
  lower := lower
  lower_lower s hs := by
    have hmap : s.toList.map Char.toLower = s.toList := by
      refine (List.map_congr_left fun c hc => toLower_of_isLower ?_).trans (List.map_id s.toList)
      simpa using List.all_eq_true.mp hs c hc
    unfold lower
    rw [hmap, String.ofList_toList]
  floats := wholeFloats
  truncate
    | some n => .ok n
    | none => .error "cannot convert float NaN to integer"
  intOfText s := match s.toInt? with
    | some n => .ok n
    | none => .error ("invalid literal for int() with base 10: '" ++ s ++ "'")
  floatOfInt n := .ok (some n.toNat)
  floatOfText s := .error ("could not convert string to float: '" ++ s ++ "'")
  decodeError _ := "Expecting value"
  decodeBytes data := match decodeUtf8 data with
    | some text => .ok (String.ofList text)
    | none => .error "invalid start byte"

/-- A package of a verified fix, without its fingerprint. Kind: D -/
def unsignedPackage (repositoryIdentity : String) : RemediationTransactionPackage String (Option ℕ) where
  schemaName := rtpSchemaName
  schemaVersion := rtpSchemaVersion
  transactionId := "RTP-1"
  repositoryIdentity
  createdAt := "2026-01-01T00:00:00+00:00"
  status := "VERIFIED_FIXED"
  finding := ⟨"F-101", "KS-PY-SQL-001", "HIGH", "CWE-89", "app/db.py", 42, "f1"⟩
  evidence := some ⟨2, "e1"⟩
  rootCause := some ⟨"INJECTION", some 1, "r1"⟩
  strategy := some ⟨"REPLACE_UNSAFE_API", "app\\db.py", "s1"⟩
  proposal := some ⟨"P-1", "LOW", ["app/db.py", "app/\"q\".py"], "p1"⟩
  approval := none
  application := some ⟨"h1", "h2", "APPLIED"⟩
  verification := some ⟨"V-1", "VERIFIED_FIXED", 0, "v1"⟩
  provenance := ⟨"g1"⟩
  audit := ⟨"l1"⟩
  receiptFingerprint := ""

/-- The package with its fingerprint. Kind: D -/
def samplePackage (repositoryIdentity : String) : RemediationTransactionPackage String (Option ℕ) :=
  (unsignedPackage repositoryIdentity).signed sampleRuntime ControlledPatchApplier.sampleHost

theorem samplePackage_finite (repositoryIdentity : String) :
    (samplePackage repositoryIdentity).Finite sampleRuntime := by
  intro c hc
  obtain rfl := Option.some.inj hc
  rfl

theorem samplePackage_accepted (repositoryIdentity : String) :
    Accepted sampleRuntime ControlledPatchApplier.sampleHost (samplePackage repositoryIdentity) := by
  have hgraph : "g1" ≠ "" := by decide
  have hledger : "l1" ≠ "" := by decide
  have hfile : normSlashes "app/db.py" = normSlashes "app\\db.py" := by decide +kernel
  refine accepted_iff.mpr ⟨rfl, rfl, ?_, fun s hs _ => ?_, hgraph, hledger⟩
  · unfold samplePackage
    rw [payload_signed]
    rfl
  · obtain rfl := Option.some.inj hs
    exact hfile

/-- The package is exchanged, and its two spellings are one package. Kind: C -/
theorem sample_exchange :
    (∃ text, exportRtp sampleRuntime (samplePackage "org/app").asJson = some text ∧
      importRtp sampleRuntime (.text text) = .ok (samplePackage "org/app").asJson) ∧
    (samplePackage "org/app").normalised = (samplePackage "org\\app/").normalised := by
  obtain ⟨hexchange, hequal⟩ := exchange_faithful sampleRuntime ControlledPatchApplier.sampleHost
  have hidentity : normIdentity "org/app" = normIdentity "org\\app/" := by
    decide +kernel
  have hpayload : payload (unsignedPackage "org/app") = payload (unsignedPackage "org\\app/") := by
    unfold payload RemediationTransactionPackage.normalised unsignedPackage
    rw [hidentity]
  refine ⟨hexchange _ (samplePackage_finite _), hequal ControlledPatchApplier.sampleHost_injective _ _
    (samplePackage_finite _) (samplePackage_finite _) (samplePackage_accepted _)
    (samplePackage_accepted _) ?_⟩
  unfold samplePackage RemediationTransactionPackage.signed
  rw [hpayload]

end KarsaSec.Remediation
