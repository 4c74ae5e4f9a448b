import KarsaSec.Analysis.ReleaseStateMachine
import KarsaSec.Recovery.CanonicalText

/-!
# The audit ledger of releases

`ReleaseAuditLedger` chains its records by hashes. The hash of a record is over the hash before it and a payload; the identifier
of the record is not in the payload, and `verifyIntegrity` does not compute it again.

* `verifyFrom_append`: what was appended verifies.
* `same_of_last`: two lists that verify, of one length and with one last hash, differ in identifiers only.
* `alteration_noticed_iff`: an alteration is noticed unless it changes only identifiers.
-/

namespace KarsaSec.Analysis

open KarsaSec.Found KarsaSec.Recovery

/-! ## The ledger -/

/-- Source: `e16_audit.py`, `GENESIS_HASH`. Kind: D -/
def genesisHash : String := "E16-AUDIT-GENESIS"

/-- An admission with what the ledger reads besides. Source: `e16_models.py`, `ReleaseAdmission`. Kind: D -/
structure AuditedAdmission extends ReleaseAdmission where
  admissionId : String
  decisionId : String
  policyId : String
  reasonCodes : List String
  schemaVersion : String := "1.0.0"

/-- Source: `e16_audit.py`, `AuditRecord`. Kind: D -/
structure AuditRecord where
  auditId : String
  sequence : ℤ
  previousHash : String
  auditHash : String
  artifactId : String
  decisionId : String
  policyId : String
  admissionId : String
  status : String
  reasonCodes : List String
  policyVersion : String := "1.0.0"
  schemaVersion : String := "1.0.0"
  deriving DecidableEq

namespace AuditRecord

/-- The members of the payload. Source: `e16_audit.py`, `AuditRecord.canonical_payload`. Kind: D -/
def payloadMembers (r : AuditRecord) : List (String × Json Unit) :=
  [("admission_id", .str r.admissionId),
    ("artifact_id", .str r.artifactId),
    ("decision_id", .str r.decisionId),
    ("policy_id", .str r.policyId),
    ("policy_version", .str r.policyVersion),
    ("reason_codes", .arr (r.reasonCodes.map .str)),
    ("sequence", .int r.sequence),
    ("schema_version", .str r.schemaVersion),
    ("status", .str r.status)]

/-- Source: `e16_audit.py`, `AuditRecord.canonical_payload`. Kind: D -/
def canonicalPayload (r : AuditRecord) : Json Unit := .obj r.payloadMembers

/-- Source: `e16_audit.py`, `AuditRecord.compute_hash`. Kind: D -/
def computeHash (sha256 : String → String) (r : AuditRecord) : String :=
  sha256 (r.previousHash ++ canonicalJson r.canonicalPayload)

/-- A record apart from its identifier. Kind: D -/
def withoutId (r : AuditRecord) : AuditRecord := { r with auditId := "" }

end AuditRecord

/-- Source: `e16_models.py`, `deterministic_id`. Kind: D -/
def deterministicId (sha256 : String → String) (ns : String) (payload : Json Unit) : String :=
  sha256 (ns ++ canonicalJson payload)

/-- Source: `e16_audit.py`, `ReleaseAuditLedger`. Kind: D -/
structure ReleaseAuditLedger where
  records : List AuditRecord := []

namespace ReleaseAuditLedger

variable (sha256 : String → String)

/-- Source: `e16_audit.py`, `ReleaseAuditLedger.append`. Kind: D -/
def append (ledger : ReleaseAuditLedger) (admission : AuditedAdmission) (policyVersion : String := "1.0.0") :
    ReleaseAuditLedger :=
  let prevHash := (ledger.records.getLast?.map AuditRecord.auditHash).getD genesisHash
  let record : AuditRecord :=
    { auditId := ""
      sequence := ledger.records.length + 1
      previousHash := prevHash
      auditHash := ""
      artifactId := admission.artifactId
      decisionId := admission.decisionId
      policyId := admission.policyId
      admissionId := admission.admissionId
      status := admission.status.value
      reasonCodes := admission.reasonCodes.insertionSort (· ≤ ·)
      policyVersion := policyVersion
      schemaVersion := admission.schemaVersion }
  let audId := deterministicId sha256 "E16-AUDIT:v1:" record.canonicalPayload
  { records := ledger.records ++ [{ record with auditId := audId, auditHash := record.computeHash sha256 }] }

/-- The loop over the records, from a sequence number on. Source: `e16_audit.py`, `verify_integrity`. Kind: D -/
def verifyFrom : ℤ → String → List AuditRecord → Bool
  | _, _, [] => true
  | i, expectedPrev, record :: rest =>
    if record.sequence ≠ i then false
    else if record.previousHash ≠ expectedPrev then false
    else if record.auditHash ≠ record.computeHash sha256 then false
    else verifyFrom (i + 1) record.auditHash rest

/-- Source: `e16_audit.py`, `ReleaseAuditLedger.verify_integrity`. Kind: D -/
def verifyIntegrity (ledger : ReleaseAuditLedger) : Bool := verifyFrom sha256 1 genesisHash ledger.records

/-- The ledger after some calls of `append`. Kind: D -/
def recorded (calls : List (AuditedAdmission × String)) : ReleaseAuditLedger :=
  calls.foldl (fun ledger call => ledger.append sha256 call.1 call.2) {}

end ReleaseAuditLedger

/-- What is assumed of the hash function: it is free of collisions, and its values are hexadecimal digits. Kind: D -/
structure HexDigest (sha256 : String → String) : Prop where
  injective : Function.Injective sha256
  hexadecimal : ∀ text, ∀ c ∈ (sha256 text).toList, ∃ d < 16, c = hexDigit d

/-- An alteration of the stored records: fields are changed but for the length and the last hash, records other than a suffix are
removed, or records are reordered.
Kind: D -/
inductive Altered (records tampered : List AuditRecord) : Prop
  | changed (hlength : tampered.length = records.length)
      (hlast : tampered.getLast?.map AuditRecord.auditHash = records.getLast?.map AuditRecord.auditHash)
  | removed (hsub : tampered.Sublist records) (hbegins : ¬tampered <+: records)
  | reordered (hperm : tampered.Perm records)

/-! ## What the hash binds -/

section binding

variable {sha256 : String → String} {r r' : AuditRecord}

theorem nodup_payloadKeys (r : AuditRecord) : (r.payloadMembers.map Prod.fst).Nodup := by
  have hkeys : ["admission_id", "artifact_id", "decision_id", "policy_id", "policy_version", "reason_codes", "sequence",
      "schema_version", "status"].Nodup := by decide
  exact hkeys

theorem plain_payload (r : AuditRecord) : Json.Plain noFloats r.canonicalPayload := by
  have htexts : Json.Forall (fun x => (noFloats.numeral x).isSome = true) List.Nodup (.arr (r.reasonCodes.map .str)) := by
    refine Json.forallItems_iff.mpr fun v hv => ?_
    obtain ⟨s, -, rfl⟩ := List.mem_map.mp hv
    trivial
  exact ⟨nodup_payloadKeys r, trivial, trivial, trivial, trivial, trivial, htexts, trivial, trivial, trivial, trivial⟩

/-- The payload has every field but the identifier and the hashes. Kind: L -/
theorem payload_inj (h : canonicalJson r.canonicalPayload = canonicalJson r'.canonicalPayload)
    (hprev : r.previousHash = r'.previousHash) (hhash : r.auditHash = r'.auditHash) : r.withoutId = r'.withoutId := by
  have hsorted := canonicalJson_inj (plain_payload r) (plain_payload r') h
  unfold AuditRecord.canonicalPayload at hsorted
  rw [Json.sortKeys_obj, Json.sortKeys_obj] at hsorted
  have hfield : ∀ key, (Dict.lookup key r.payloadMembers).map Json.sortKeys =
      (Dict.lookup key r'.payloadMembers).map Json.sortKeys := by
    intro key
    rw [← Json.lookup_sortMembers (nodup_payloadKeys r), ← Json.lookup_sortMembers (nodup_payloadKeys r'), Json.obj.inj hsorted]
  have hadmission : r.admissionId = r'.admissionId := by
    simpa [Dict.lookup, AuditRecord.payloadMembers] using hfield "admission_id"
  have hartifact : r.artifactId = r'.artifactId := by
    simpa [Dict.lookup, AuditRecord.payloadMembers] using hfield "artifact_id"
  have hdecision : r.decisionId = r'.decisionId := by
    simpa [Dict.lookup, AuditRecord.payloadMembers] using hfield "decision_id"
  have hpolicy : r.policyId = r'.policyId := by
    simpa [Dict.lookup, AuditRecord.payloadMembers] using hfield "policy_id"
  have hversion : r.policyVersion = r'.policyVersion := by
    simpa [Dict.lookup, AuditRecord.payloadMembers] using hfield "policy_version"
  have hreasons : r.reasonCodes.map (Json.str (F := Unit)) = r'.reasonCodes.map .str := by
    simpa only [Dict.lookup, AuditRecord.payloadMembers, String.reduceEq, if_false, if_true, Option.map_some,
      Json.sortKeys_texts, Option.some_inj, Json.arr.injEq] using hfield "reason_codes"
  have hsequence : r.sequence = r'.sequence := by
    simpa [Dict.lookup, AuditRecord.payloadMembers] using hfield "sequence"
  have hschema : r.schemaVersion = r'.schemaVersion := by
    simpa [Dict.lookup, AuditRecord.payloadMembers] using hfield "schema_version"
  have hstatus : r.status = r'.status := by
    simpa [Dict.lookup, AuditRecord.payloadMembers] using hfield "status"
  have hcodes : r.reasonCodes = r'.reasonCodes := List.map_injective_iff.mpr (fun _ _ heq => Json.str.inj heq) hreasons
  unfold AuditRecord.withoutId
  rw [hadmission, hartifact, hdecision, hpolicy, hversion, hcodes, hsequence, hschema, hstatus, hprev, hhash]

/-- A payload starts with a brace. Kind: L -/
theorem payload_brace (r : AuditRecord) : ∃ t, (canonicalJson r.canonicalPayload).toList = '{' :: t := by
  have hne : Json.sortMembers r.payloadMembers ≠ [] := by
    intro hnil
    have hlength := (Json.sortMembers_perm r.payloadMembers).length_eq
    rw [hnil] at hlength
    cases hlength
  obtain ⟨⟨k, v⟩, rest, hmembers⟩ := List.exists_cons_of_ne_nil hne
  unfold canonicalJson AuditRecord.canonicalPayload
  rw [String.toList_ofList, Json.sortKeys_obj, hmembers, Json.dumps, List.flatMap_cons]
  exact ⟨_, rfl⟩

/-- Records with one hash, after hashes without braces, differ in their identifiers only. Kind: L -/
theorem computeHash_inj (hsha : HexDigest sha256) (hbrace : '{' ∉ r.previousHash.toList)
    (hbrace' : '{' ∉ r'.previousHash.toList) (h : r.computeHash sha256 = r'.computeHash sha256)
    (hhash : r.auditHash = r'.auditHash) : r.withoutId = r'.withoutId := by
  have htext := congrArg String.toList (hsha.injective h)
  rw [String.toList_append, String.toList_append] at htext
  obtain ⟨t, ht⟩ := payload_brace r
  obtain ⟨t', ht'⟩ := payload_brace r'
  rw [ht, ht'] at htext
  obtain ⟨hprev, hrest⟩ := append_sep_inj hbrace hbrace' htext
  refine payload_inj (String.toList_injective ?_) (String.toList_injective hprev) hhash
  rw [ht, ht', hrest]

theorem HexDigest.no_brace (hsha : HexDigest sha256) (text : String) : '{' ∉ (sha256 text).toList := by
  have hdigits : ∀ d < 16, '{' ≠ hexDigit d := by decide
  intro hmem
  obtain ⟨d, hd, heq⟩ := hsha.hexadecimal text _ hmem
  exact hdigits d hd heq

end binding

/-! ## Chains that verify -/

namespace ReleaseAuditLedger

section chains

variable {sha256 : String → String} {i : ℤ} {prev prev' : String} {r : AuditRecord} {l l' : List AuditRecord}

theorem verifyFrom_cons : verifyFrom sha256 i prev (r :: l) = true ↔ r.sequence = i ∧ r.previousHash = prev ∧
    r.auditHash = r.computeHash sha256 ∧ verifyFrom sha256 (i + 1) r.auditHash l = true := by
  rw [verifyFrom]
  split_ifs with hsequence hprev hhash
  · exact ⟨False.elim, fun h => absurd h.1 hsequence⟩
  · exact ⟨False.elim, fun h => absurd h.2.1 hprev⟩
  · exact ⟨False.elim, fun h => absurd h.2.2.1 hhash⟩
  · simp_all

theorem verifyFrom_append (h : verifyFrom sha256 i prev l = true) (hsequence : r.sequence = i + l.length)
    (hprev : r.previousHash = (l.getLast?.map AuditRecord.auditHash).getD prev)
    (hhash : r.auditHash = r.computeHash sha256) : verifyFrom sha256 i prev (l ++ [r]) = true := by
  induction l generalizing i prev with
  | nil => exact verifyFrom_cons.mpr ⟨by simpa using hsequence, hprev, hhash, rfl⟩
  | cons a l ih =>
    obtain ⟨haseq, haprev, hahash, hl⟩ := verifyFrom_cons.mp h
    refine verifyFrom_cons.mpr ⟨haseq, haprev, hahash, ih hl ?_ ?_⟩
    · rw [hsequence, List.length_cons]
      omega
    · rw [hprev, List.getLast?_cons]
      cases l.getLast? <;> rfl

/-- What is appended verifies. Source: `e16_audit.py`, `append`. Kind: L -/
theorem verifyIntegrity_append {ledger : ReleaseAuditLedger} (h : ledger.verifyIntegrity sha256 = true)
    (admission : AuditedAdmission) (policyVersion : String) :
    (ledger.append sha256 admission policyVersion).verifyIntegrity sha256 = true := by
  refine verifyFrom_append h ?_ rfl rfl
  exact Int.add_comm _ _

theorem verifyIntegrity_recorded (calls : List (AuditedAdmission × String)) :
    (recorded sha256 calls).verifyIntegrity sha256 = true := by
  unfold recorded
  induction calls using List.reverseRecOn with
  | nil => rfl
  | append_singleton calls call ih =>
    rw [List.foldl_append]
    exact verifyIntegrity_append ih call.1 call.2

theorem le_sequence (h : verifyFrom sha256 i prev l = true) : ∀ a ∈ l, i ≤ a.sequence := by
  induction l generalizing i prev with
  | nil => exact fun a ha => absurd ha List.not_mem_nil
  | cons b l ih =>
    obtain ⟨hsequence, -, -, hl⟩ := verifyFrom_cons.mp h
    intro a ha
    rcases List.mem_cons.mp ha with rfl | ha
    · exact hsequence.ge
    · exact le_trans (by omega) (ih hl a ha)

/-- Records of a list that verify by themselves are a beginning of it. Kind: L -/
theorem prefix_of_mem (h : verifyFrom sha256 i prev l = true) (h' : verifyFrom sha256 i prev' l' = true)
    (hmem : ∀ a ∈ l', a ∈ l) : l' <+: l := by
  induction l' generalizing i prev prev' l with
  | nil => exact List.nil_prefix
  | cons a l' ih =>
    obtain ⟨hsequence', -, -, hl'⟩ := verifyFrom_cons.mp h'
    rcases l with _ | ⟨b, l⟩
    · exact absurd (hmem a List.mem_cons_self) List.not_mem_nil
    · obtain ⟨hsequence, -, -, hl⟩ := verifyFrom_cons.mp h
      -- the number of a record says where it stands
      have hlater := le_sequence hl
      obtain rfl : a = b := by
        refine (List.mem_cons.mp (hmem a List.mem_cons_self)).resolve_right fun ha => ?_
        have hle := hlater a ha
        omega
      refine List.cons_prefix_cons.mpr ⟨rfl, ih hl hl' fun x hx => ?_⟩
      refine (List.mem_cons.mp (hmem x (List.mem_cons_of_mem _ hx))).resolve_left fun heq => ?_
      have hle := le_sequence hl' x hx
      rw [heq] at hle
      omega

/-- **The last hash fixes the records up to their identifiers.** Source: `e16_audit.py`, `verify_integrity`. Kind: P -/
theorem same_of_last (hsha : HexDigest sha256) (h : verifyFrom sha256 i prev l = true)
    (h' : verifyFrom sha256 i prev' l' = true) (hprev : '{' ∉ prev.toList) (hprev' : '{' ∉ prev'.toList)
    (hlength : l'.length = l.length)
    (hlast : l'.getLast?.map AuditRecord.auditHash = l.getLast?.map AuditRecord.auditHash) :
    l'.map AuditRecord.withoutId = l.map AuditRecord.withoutId := by
  induction l' generalizing i prev prev' l with
  | nil => rw [List.length_eq_zero_iff.mp hlength.symm]
  | cons a' l' ih =>
    rcases l with _ | ⟨a, l⟩
    · cases hlength
    obtain ⟨-, haprev, hahash, hl⟩ := verifyFrom_cons.mp h
    obtain ⟨-, haprev', hahash', hl'⟩ := verifyFrom_cons.mp h'
    have hbrace : '{' ∉ a.auditHash.toList := hahash ▸ hsha.no_brace _
    have hbrace' : '{' ∉ a'.auditHash.toList := hahash' ▸ hsha.no_brace _
    have htail : l'.length = l.length := Nat.succ.inj hlength
    -- the rest fixes the hash of the head: it is the last one, or the one before the next record
    have hheads : l'.map AuditRecord.withoutId = l.map AuditRecord.withoutId ∧ a'.auditHash = a.auditHash := by
      rcases l with _ | ⟨b, l⟩
      · rw [List.length_eq_zero_iff.mp htail] at hlast ⊢
        exact ⟨rfl, Option.some.inj hlast⟩
      · rcases l' with _ | ⟨b', l'⟩
        · cases htail
        have hsame := ih hl hl' hbrace hbrace' htail hlast
        have hlink := (verifyFrom_cons.mp hl).2.1
        have hlink' := (verifyFrom_cons.mp hl').2.1
        refine ⟨hsame, ?_⟩
        have hb := congrArg AuditRecord.previousHash (List.cons.inj hsame).1
        rw [← hlink, ← hlink']
        exact hb
    rw [List.map_cons, List.map_cons, hheads.1]
    congr 1
    refine computeHash_inj hsha (haprev' ▸ hprev') (haprev ▸ hprev) ?_ hheads.2
    rw [← hahash, ← hahash', hheads.2]

/-- Identifiers do not count. Source: `e16_audit.py`, `verify_integrity`. Kind: L -/
theorem verifyFrom_withoutId : verifyFrom sha256 i prev (l.map AuditRecord.withoutId) = verifyFrom sha256 i prev l := by
  induction l generalizing i prev with
  | nil => rfl
  | cons a l ih =>
    rw [List.map_cons, verifyFrom, verifyFrom, ih]
    rfl

end chains

/-- **An alteration is noticed unless it changes only identifiers.**
Source: `e16_audit.py`, `ReleaseAuditLedger.append`, `verify_integrity`
Kind: P -/
theorem alteration_noticed_iff {sha256 : String → String} (hsha : HexDigest sha256)
    (calls : List (AuditedAdmission × String)) :
    (recorded sha256 calls).verifyIntegrity sha256 = true ∧
      ∀ tampered, Altered (recorded sha256 calls).records tampered →
        ((tampered ≠ (recorded sha256 calls).records → (ReleaseAuditLedger.mk tampered).verifyIntegrity sha256 = false) ↔
          (tampered.map AuditRecord.withoutId = (recorded sha256 calls).records.map AuditRecord.withoutId →
            tampered = (recorded sha256 calls).records)) := by
  have hverifies : (recorded sha256 calls).verifyIntegrity sha256 = true := verifyIntegrity_recorded calls
  refine ⟨hverifies, fun tampered haltered => ⟨fun hdetected hsame => ?_, fun honly hne => ?_⟩⟩
  · by_contra hne
    have hfalse := hdetected hne
    unfold verifyIntegrity at hfalse hverifies
    rw [← verifyFrom_withoutId, hsame, verifyFrom_withoutId, hverifies] at hfalse
    cases hfalse
  · by_contra hnot
    have htrue : verifyFrom sha256 1 genesisHash tampered = true := Bool.not_eq_false _ ▸ hnot
    have hgenesis : '{' ∉ genesisHash.toList := by decide
    cases haltered with
    | changed hlength hlast =>
      exact hne (honly (same_of_last hsha hverifies htrue hgenesis hgenesis hlength hlast))
    | removed hsub hbegins => exact hbegins (prefix_of_mem hverifies htrue fun a ha => hsub.subset ha)
    | reordered hperm =>
      have hbeginning := prefix_of_mem hverifies htrue fun a ha => hperm.mem_iff.mp ha
      exact hne (hbeginning.eq_of_length hperm.length_eq)

end ReleaseAuditLedger

/-! ## A digest without collisions -/

/-- The text itself, each character as eight hexadecimal digits. Kind: D -/
def hexText (text : String) : String :=
  String.ofList (text.toList.flatMap fun c => hexFour (c.toNat / 65536) ++ hexFour (c.toNat % 65536))

theorem hexText_hexDigest : HexDigest hexText where
  injective := by
    have hlists : ∀ s t : List Char, (s.flatMap fun c => hexFour (c.toNat / 65536) ++ hexFour (c.toNat % 65536)) =
        (t.flatMap fun c => hexFour (c.toNat / 65536) ++ hexFour (c.toNat % 65536)) → s = t := by
      intro s
      induction s with
      | nil =>
        rintro (_ | ⟨c, t⟩) h
        · rfl
        · cases h
      | cons c s ih =>
        rintro (_ | ⟨c', t⟩) h
        · cases h
        · rw [List.flatMap_cons, List.flatMap_cons, List.append_assoc, List.append_assoc] at h
          have hsmall : ∀ c : Char, c.toNat / 65536 < 0x10000 := by
            intro c
            have hcases : c.toNat < 0xd800 ∨ (0xdfff < c.toNat ∧ c.toNat < 0x110000) := c.valid
            omega
          have hhigh := congrArg scanHex h
          rw [scanHex_hexFour (hsmall c), scanHex_hexFour (hsmall c')] at hhigh
          obtain ⟨hdiv, hrest⟩ := Prod.mk.inj (Option.some.inj hhigh)
          have hlow := congrArg scanHex hrest
          rw [scanHex_hexFour (Nat.mod_lt _ (by decide)), scanHex_hexFour (Nat.mod_lt _ (by decide))] at hlow
          obtain ⟨hmod, htail⟩ := Prod.mk.inj (Option.some.inj hlow)
          have hnat : c.toNat = c'.toNat := by omega
          rw [Char.toNat_inj.mp hnat, ih t htail]
    exact fun s t h => String.toList_injective (hlists _ _ (String.ofList_injective h))
  hexadecimal text c hc := by
    unfold hexText at hc
    rw [String.toList_ofList] at hc
    obtain ⟨x, -, hx⟩ := List.mem_flatMap.mp hc
    have hfour : ∀ n, c ∈ hexFour n → ∃ d < 16, c = hexDigit d := by
      intro n hn
      obtain ⟨place, -, rfl⟩ := List.mem_map.mp hn
      exact ⟨_, Nat.mod_lt _ (by decide), rfl⟩
    rcases List.mem_append.mp hx with hx | hx
    · exact hfour _ hx
    · exact hfour _ hx

/-- A record under another identifier. Kind: D -/
def AuditRecord.forged (r : AuditRecord) : AuditRecord := { r with auditId := r.auditId ++ "0" }

theorem forged_ne {l : List AuditRecord} (h : l ≠ []) : l.map AuditRecord.forged ≠ l := by
  rcases l with _ | ⟨r, l⟩
  · exact absurd rfl h
  · intro heq
    have hid : r.auditId ++ "0" = r.auditId := congrArg AuditRecord.auditId (List.cons.inj heq).1
    have hlength := congrArg (fun s : String => s.toList.length) hid
    rw [String.toList_append, List.length_append] at hlength
    exact Nat.succ_ne_self _ hlength

theorem altered_forged (l : List AuditRecord) : Altered l (l.map AuditRecord.forged) := by
  refine .changed (List.length_map _) ?_
  rw [List.getLast?_map, Option.map_map]
  rfl

namespace ReleaseAuditLedger

/-- Kind: D -/
def blockedAdmission : AuditedAdmission where
  status := .blocked
  artifactId := "art1"
  evaluationId := "eval1"
  admissionId := "adm1"
  decisionId := "dec1"
  policyId := "pol1"
  reasonCodes := ["BLOCKED"]

theorem alteration_noticed_iff_blocked :
    (recorded hexText [(blockedAdmission, "1.0.0")]).verifyIntegrity hexText = true ∧
      ∀ tampered, Altered (recorded hexText [(blockedAdmission, "1.0.0")]).records tampered →
        ((tampered ≠ (recorded hexText [(blockedAdmission, "1.0.0")]).records →
            (ReleaseAuditLedger.mk tampered).verifyIntegrity hexText = false) ↔
          (tampered.map AuditRecord.withoutId =
              (recorded hexText [(blockedAdmission, "1.0.0")]).records.map AuditRecord.withoutId →
            tampered = (recorded hexText [(blockedAdmission, "1.0.0")]).records)) :=
  alteration_noticed_iff hexText_hexDigest _

/-- A record with another identifier, its length and last hash left, verifies. Kind: C -/
theorem identifier_forged : HexDigest hexText ∧
    ∃ tampered, Altered (recorded hexText [(blockedAdmission, "1.0.0")]).records tampered ∧
      tampered ≠ (recorded hexText [(blockedAdmission, "1.0.0")]).records ∧
      (ReleaseAuditLedger.mk tampered).verifyIntegrity hexText = true := by
  have hverifies : (recorded hexText [(blockedAdmission, "1.0.0")]).verifyIntegrity hexText = true :=
    verifyIntegrity_recorded _
  refine ⟨hexText_hexDigest, _, altered_forged _, forged_ne (List.cons_ne_nil _ _), ?_⟩
  unfold verifyIntegrity at hverifies ⊢
  rw [← verifyFrom_withoutId] at hverifies ⊢
  rw [List.map_map]
  exact hverifies

end ReleaseAuditLedger

end KarsaSec.Analysis
