import KarsaSec.Found.Joined
import KarsaSec.Remediation.LedgerRoundTrip
import KarsaSec.Remediation.StateMachine

/-!
# The texts behind the fingerprints

The text that is hashed into a fingerprint, and the fields that it settles.

* `PatchApprovalToken.alone_iff`: no other token has the text of a token just if the token is `Sealed`.
* `LifecycleAuditEvent.alone_of_sealed` is the same condition for audit events; `unbarred_of_alone` is the part of
  it that every such event must meet.
* `LifecycleEvent.never_alone`: the reason of a transition is not in the text at all.
-/

namespace KarsaSec.Remediation

open KarsaSec.Found ControlledPatchApplier

/-! ## Parts -/

theorem normSlashes_append (a b : String) : normSlashes (a ++ b) = normSlashes a ++ normSlashes b := by
  apply String.toList_injective
  simp [normSlashes]

theorem normSlashes_normSlashes (s : String) : normSlashes (normSlashes s) = normSlashes s := by
  grind [normSlashes, String.toList_ofList, List.map_congr_left]

theorem bar_mem_normSlashes {s : String} : '|' ∈ (normSlashes s).toList ↔ '|' ∈ s.toList := by
  simp only [normSlashes, String.toList_ofList, List.mem_map]
  constructor
  · grind
  · intro h
    exact ⟨'|', h, rfl⟩

theorem normSlashes_eq_empty {s : String} : normSlashes s = "" ↔ s = "" := by
  constructor
  · simp [normSlashes]
  · rintro rfl
    rfl

/-- Paths with their slashes in place stay so when they are joined. Kind: L -/
theorem normSlashes_joinStr {l : List String} (h : ∀ s ∈ l, normSlashes s = s) :
    normSlashes (joinStr "|" l) = joinStr "|" l := by
  induction l with
  | nil => rfl
  | cons s rest ih =>
    rcases rest with _ | ⟨t, rest⟩
    · exact h s List.mem_cons_self
    · rw [joinStr, normSlashes_append, normSlashes_append, h s List.mem_cons_self,
        ih fun s hs => h s (List.mem_cons_of_mem _ hs)]
      · rfl
      · exact List.cons_ne_nil _ _

theorem toList_bar : "|".toList = ['|'] := rfl

/-- A text is not its own part before or behind a bar. Kind: L -/
theorem ne_cut (a b : String) : a ≠ a ++ "|" ++ b ∧ b ≠ a ++ "|" ++ b := by
  constructor
  · intro h
    have hlength := congrArg String.length h
    simp only [String.length_append] at hlength
    have hbar : "|".length = 1 := rfl
    omega
  · intro h
    have hlength := congrArg String.length h
    simp only [String.length_append] at hlength
    have hbar : "|".length = 1 := rfl
    omega

/-! ## Approval tokens -/

namespace PatchApprovalToken

/-- The text that is hashed. Source: `approval.py`, `compute_fingerprint`, `raw`. Kind: D -/
def preImage (t : PatchApprovalToken) : String :=
  fingerprintRaw t.tokenId t.findingId t.proposalFingerprint t.sourceSnapshotHash t.targetFiles
    t.repositoryIdentity t.approvedBy t.approvedAt t.expiresAt t.approvalContext

theorem computeFingerprint_eq (host : Host) (t : PatchApprovalToken) :
    t.computeFingerprint host = host.sha256Text t.preImage :=
  rfl

/-- What a token is bound to: the fields that go into the text, files in order and slashes in place.
Source: `approval.py`, `compute_fingerprint`, parameters
Kind: D -/
structure Binding where
  tokenId : String
  findingId : String
  proposalFingerprint : String
  sourceSnapshotHash : String
  sortedFiles : List String
  normRepo : String
  approvedBy : String
  approvedAt : String
  expiresAt : Option String
  approvalContext : String
  deriving DecidableEq

/-- Kind: D -/
def binding (t : PatchApprovalToken) : Binding where
  tokenId := t.tokenId
  findingId := t.findingId
  proposalFingerprint := t.proposalFingerprint
  sourceSnapshotHash := t.sourceSnapshotHash
  sortedFiles := sortStrings (t.targetFiles.map normSlashes)
  normRepo := normSlashes t.repositoryIdentity
  approvedBy := t.approvedBy
  approvedAt := t.approvedAt
  expiresAt := t.expiresAt
  approvalContext := t.approvalContext

/-- A token that differs from no token with the same text in what it is bound to.
Source: `approval.py`, `compute_fingerprint`, "canonical, byte-for-byte"
Kind: C -/
def Alone (t : PatchApprovalToken) : Prop :=
  ∀ t' : PatchApprovalToken, t'.preImage = t.preImage → t'.binding = t.binding

/-- The fields of one text each. Kind: D -/
def texts (t : PatchApprovalToken) : List String :=
  [t.tokenId, t.findingId, t.proposalFingerprint, t.sourceSnapshotHash, t.repositoryIdentity, t.approvedBy,
    t.approvedAt, t.approvalContext]

/-- No bar in a field, one file with a name, and an expiry that is neither empty nor the placeholder. A bar that
is the whole expiry does no harm, since its neighbours cannot take it.
Kind: C -/
structure Sealed (t : PatchApprovalToken) : Prop where
  texts : ∀ s ∈ t.texts, '|' ∉ s.toList
  files : ∃ f, t.targetFiles = [f] ∧ f ≠ "" ∧ '|' ∉ f.toList
  expiry : ∃ e, t.expiresAt = some e ∧ e ≠ "" ∧ e ≠ "NEVER" ∧ ('|' ∉ e.toList ∨ e = "|")

/-- How an expiry is written. Source: `approval.py`, `compute_fingerprint`, `exp_str`. Kind: D -/
def expStr (expiresAt : Option String) : String :=
  if expiresAt.getD "" = "" then "NEVER" else expiresAt.getD ""

theorem expStr_ne_empty (expiresAt : Option String) : expStr expiresAt ≠ "" := by
  unfold expStr
  split
  · decide
  · assumption

theorem expStr_some {e : String} (h : e ≠ "") : expStr (some e) = e := if_neg h

/-- An expiry that is not the placeholder is read from its text. Kind: L -/
theorem expiry_of_expStr {given : Option String} {e : String} (hnever : e ≠ "NEVER")
    (h : expStr given = e) : given = some e := by
  unfold expStr at h
  split at h
  · exact absurd h.symm hnever
  · next hne =>
      rcases given with _ | s
      · exact absurd rfl hne
      · rw [← h]
        rfl

/-- The files in the text. Source: `approval.py`, `compute_fingerprint`, `sorted_files`. Kind: D -/
def sortedFiles (targetFiles : List String) : String := joinStr "|" (sortStrings (targetFiles.map normSlashes))

theorem normSlashes_sortedFiles (files : List String) : normSlashes (sortedFiles files) = sortedFiles files := by
  refine normSlashes_joinStr fun s hs => ?_
  have hs' := (List.perm_insertionSort (· ≤ ·) _).mem_iff.mp hs
  obtain ⟨f, -, rfl⟩ := List.mem_map.mp hs'
  exact normSlashes_normSlashes f

/-- One file is written as it is, with its slashes in place. Kind: L -/
theorem sortedFiles_single (f : String) : sortedFiles [f] = normSlashes f := rfl

/-- The parts of the text before the expiry. Kind: D -/
def front (t : PatchApprovalToken) : List String :=
  [t.tokenId, t.findingId, t.proposalFingerprint, t.sourceSnapshotHash, sortedFiles t.targetFiles,
    normSlashes t.repositoryIdentity, t.approvedBy, t.approvedAt]

theorem preImage_eq (t : PatchApprovalToken) :
    t.preImage = joinStr "|" (t.front ++ [expStr t.expiresAt, t.approvalContext]) :=
  rfl

/-- The parts say what a token is bound to, if one file and the expiry can be read from theirs. Kind: L -/
theorem binding_of_parts {t t' : PatchApprovalToken} (h : t.Sealed) (hfront : t'.front = t.front)
    (hexpiry : expStr t'.expiresAt = expStr t.expiresAt)
    (hcontext : t'.approvalContext = t.approvalContext) : t'.binding = t.binding := by
  obtain ⟨f, hf, hne, hbar⟩ := h.files
  obtain ⟨e, he, hempty, hnever, -⟩ := h.expiry
  simp only [front, List.cons.injEq, and_true] at hfront
  obtain ⟨h1, h2, h3, h4, h5, h6, h7, h8⟩ := hfront
  have hfiles : sortStrings (t'.targetFiles.map normSlashes) = [normSlashes f] := by
    refine eq_singleton_of_joinStr toList_bar (mt bar_mem_normSlashes.mp hbar)
      (mt normSlashes_eq_empty.mp hne) ?_
    rw [hf] at h5
    exact h5
  have hgiven : t'.expiresAt = some e := by
    refine expiry_of_expStr hnever ?_
    rw [hexpiry, he, expStr_some hempty]
  simp only [binding, h1, h2, h3, h4, h6, h7, h8, hcontext, hfiles, hgiven, hf, he]
  rfl

theorem Sealed.front_clean {t : PatchApprovalToken} (h : t.Sealed) :
    (∀ s ∈ t.front, '|' ∉ s.toList) ∧ '|' ∉ t.approvalContext.toList := by
  obtain ⟨f, hf, -, hfbar⟩ := h.files
  have htexts := h.texts
  simp only [PatchApprovalToken.texts, List.forall_mem_cons, List.not_mem_nil, false_imp_iff,
    implies_true, and_true] at htexts
  obtain ⟨h1, h2, h3, h4, h5, h6, h7, h8⟩ := htexts
  have hfiles : '|' ∉ (sortedFiles t.targetFiles).toList := by
    rw [hf, sortedFiles_single]
    exact mt bar_mem_normSlashes.mp hfbar
  simp only [front, List.forall_mem_cons, List.not_mem_nil, false_imp_iff, implies_true, and_true]
  exact ⟨⟨h1, h2, h3, h4, hfiles, mt bar_mem_normSlashes.mp h5, h6, h7⟩, h8⟩

/-- A sealed token is read back from its text. Kind: L -/
theorem alone_of_sealed {t : PatchApprovalToken} (h : t.Sealed) : t.Alone := by
  intro t' htext
  rw [preImage_eq, preImage_eq] at htext
  obtain ⟨hfront, hcontext⟩ := h.front_clean
  obtain ⟨e, he, hempty, -, hbar⟩ := h.expiry
  have hlength : t'.front.length = t.front.length := rfl
  rcases hbar with hbar | rfl
  · have hclean : ∀ s ∈ t.front ++ [expStr t.expiresAt, t.approvalContext], '|' ∉ s.toList := by
      intro s hs
      rcases List.mem_append.mp hs with hs | hs
      · exact hfront s hs
      · grind [expStr_some]
    have hparts := parts_of_joinStr toList_bar (by rw [List.length_append, hlength, List.length_append]; rfl)
      hclean htext
    obtain ⟨hsame, hlast⟩ := List.append_inj hparts hlength
    simp only [List.cons.injEq, and_true] at hlast
    exact binding_of_parts h hsame hlast.1 hlast.2
  · -- the expiry is a bar: what stands in its place in the other token is not empty
    have hchars := congrArg String.toList htext
    rw [toList_joinStr toList_bar, toList_joinStr toList_bar, List.map_append, List.map_append, he,
      expStr_some hempty] at hchars
    have hmap : (t'.front.map String.toList).length = (t.front.map String.toList).length := rfl
    have hne : (expStr t'.expiresAt).toList ≠ [] := mt String.toList_eq_nil_iff.mp (expStr_ne_empty _)
    have hclean : ∀ q ∈ t.front.map String.toList, '|' ∉ q := by simp_all
    obtain ⟨hsame, hbar, hlast⟩ := parts_around_separator hmap hclean hcontext hne hchars
    refine binding_of_parts h ?_ ?_ (String.toList_injective hlast)
    · grind [Function.Injective, String.toList_injective, List.map_injective_iff]
    · rw [he, expStr_some hempty]
      exact String.toList_injective hbar

/-- A field with a bar gives what is before or behind it to its neighbour. Kind: L -/
theorem texts_of_alone {t : PatchApprovalToken} (h : t.Alone) : ∀ s ∈ t.texts, '|' ∉ s.toList := by
  have hcut : ∀ s : String, '|' ∈ s.toList → ∃ a b, s = a ++ "|" ++ b := fun s => exists_cut toList_bar
  simp only [texts, List.forall_mem_cons, List.not_mem_nil, false_imp_iff, implies_true, and_true]
  refine ⟨?_, ?_, ?_, ?_, ?_, ?_, ?_, ?_⟩ <;> intro hbar <;> obtain ⟨a, b, hab⟩ := hcut _ hbar
  · have hother := h { t with tokenId := a, findingId := b ++ "|" ++ t.findingId } (by
      simp [preImage, fingerprintRaw, joinStr, hab, String.append_assoc])
    exact (ne_cut a b).1 ((congrArg Binding.tokenId hother).trans hab)
  · have hother := h { t with findingId := a, proposalFingerprint := b ++ "|" ++ t.proposalFingerprint } (by
      simp [preImage, fingerprintRaw, joinStr, hab, String.append_assoc])
    exact (ne_cut a b).1 ((congrArg Binding.findingId hother).trans hab)
  · have hother := h
      { t with proposalFingerprint := a, sourceSnapshotHash := b ++ "|" ++ t.sourceSnapshotHash } (by
        simp [preImage, fingerprintRaw, joinStr, hab, String.append_assoc])
    exact (ne_cut a b).1 ((congrArg Binding.proposalFingerprint hother).trans hab)
  · -- the files would change a backslash, so this one goes to the left
    have hother := h
      { t with proposalFingerprint := t.proposalFingerprint ++ "|" ++ a, sourceSnapshotHash := b } (by
        simp [preImage, fingerprintRaw, joinStr, hab, String.append_assoc])
    exact (ne_cut a b).2 ((congrArg Binding.sourceSnapshotHash hother).trans hab)
  · have hnorm : normSlashes t.repositoryIdentity = normSlashes a ++ "|" ++ normSlashes b := by
      rw [hab, normSlashes_append, normSlashes_append]
      rfl
    have hfiles : normSlashes (sortedFiles t.targetFiles ++ "|" ++ normSlashes a) =
        sortedFiles t.targetFiles ++ "|" ++ normSlashes a := by
      rw [normSlashes_append, normSlashes_append, normSlashes_sortedFiles, normSlashes_normSlashes]
      rfl
    have hother := h
      { t with
        targetFiles := [sortedFiles t.targetFiles ++ "|" ++ normSlashes a], repositoryIdentity := b } (by
        rw [preImage_eq, preImage_eq, front, sortedFiles_single, hfiles]
        simp [front, joinStr, hnorm, String.append_assoc])
    exact (ne_cut (normSlashes a) (normSlashes b)).2 ((congrArg Binding.normRepo hother).trans hnorm)
  · have hother := h { t with approvedBy := a, approvedAt := b ++ "|" ++ t.approvedAt } (by
      simp [preImage, fingerprintRaw, joinStr, hab, String.append_assoc])
    exact (ne_cut a b).1 ((congrArg Binding.approvedBy hother).trans hab)
  · have hother := h { t with approvedBy := t.approvedBy ++ "|" ++ a, approvedAt := b } (by
      simp [preImage, fingerprintRaw, joinStr, hab, String.append_assoc])
    exact (ne_cut a b).2 ((congrArg Binding.approvedAt hother).trans hab)
  · have hne : expStr t.expiresAt ++ "|" ++ a ≠ "" := by simp
    have hother := h
      { t with expiresAt := some (expStr t.expiresAt ++ "|" ++ a), approvalContext := b } (by
        rw [preImage_eq, preImage_eq, expStr_some hne]
        simp [front, joinStr, hab, String.append_assoc])
    exact (ne_cut a b).2 ((congrArg Binding.approvalContext hother).trans hab)

/-- No file, a file without a name, several files or a bar in a name are the text of other files. Kind: L -/
theorem files_of_alone {t : PatchApprovalToken} (h : t.Alone) :
    ∃ f, t.targetFiles = [f] ∧ f ≠ "" ∧ '|' ∉ f.toList := by
  rcases hfiles : t.targetFiles with _ | ⟨f, _ | ⟨g, rest⟩⟩
  · have hother := h { t with targetFiles := [""] } (by
      simp [preImage, fingerprintRaw, hfiles, joinStr, sortStrings, normSlashes])
    have hsorted := congrArg Binding.sortedFiles hother
    simp [binding, hfiles, sortStrings] at hsorted
  · refine ⟨f, rfl, ?_, fun hbar => ?_⟩
    · rintro rfl
      have hother := h { t with targetFiles := [] } (by
        simp [preImage, fingerprintRaw, hfiles, joinStr, sortStrings, normSlashes])
      have hsorted := congrArg Binding.sortedFiles hother
      simp [binding, hfiles, sortStrings] at hsorted
    · obtain ⟨a, b, hab⟩ := exists_cut toList_bar hbar
      have hnorm : normSlashes f = normSlashes a ++ "|" ++ normSlashes b := by
        rw [hab, normSlashes_append, normSlashes_append]
        rfl
      have hother := h
        { t with
          sourceSnapshotHash := t.sourceSnapshotHash ++ "|" ++ normSlashes a, targetFiles := [b] } (by
          rw [preImage_eq, preImage_eq]
          simp [front, joinStr, hfiles, sortedFiles_single, hnorm, String.append_assoc])
      have hhash : t.sourceSnapshotHash ++ "|" ++ normSlashes a = t.sourceSnapshotHash :=
        congrArg Binding.sourceSnapshotHash hother
      exact (ne_cut t.sourceSnapshotHash (normSlashes a)).1 hhash.symm
  · exfalso
    have hother := h { t with targetFiles := [sortedFiles t.targetFiles] } (by
      rw [preImage_eq, preImage_eq, front, sortedFiles_single, normSlashes_sortedFiles]
      rfl)
    have hsorted := congrArg (fun u => u.sortedFiles.length) hother
    have hlength := (List.perm_insertionSort (· ≤ ·) (t.targetFiles.map normSlashes)).length_eq
    rw [List.length_map, hfiles] at hlength
    have hone : 1 = (sortStrings (t.targetFiles.map normSlashes)).length := hsorted
    rw [sortStrings, hfiles, hlength] at hone
    simp at hone

/-- No expiry, an empty one and the placeholder are one text, and a bar goes to a neighbour. Kind: L -/
theorem expiry_of_alone {t : PatchApprovalToken} (h : t.Alone) :
    ∃ e, t.expiresAt = some e ∧ e ≠ "" ∧ e ≠ "NEVER" ∧ ('|' ∉ e.toList ∨ e = "|") := by
  have hsame : ∀ given, expStr given = expStr t.expiresAt → given = t.expiresAt := by
    intro given hexp
    have hother := h { t with expiresAt := given } (by
      rw [preImage_eq, preImage_eq, hexp]
      rfl)
    exact congrArg Binding.expiresAt hother
  rcases hexpiry : t.expiresAt with _ | e
  · rw [hexpiry] at hsame
    cases hsame (some "") rfl
  · rw [hexpiry] at hsame
    have hempty : e ≠ "" := by
      rintro rfl
      cases hsame none rfl
    have hnever : e ≠ "NEVER" := by
      rintro rfl
      cases hsame none rfl
    refine ⟨e, rfl, hempty, hnever, ?_⟩
    by_cases hbar : '|' ∈ e.toList
    · right
      obtain ⟨a, b, hab⟩ := exists_cut toList_bar hbar
      have hb : b = "" := by
        by_contra hb
        have hother := h { t with approvedAt := t.approvedAt ++ "|" ++ a, expiresAt := some b } (by
          rw [preImage_eq, preImage_eq, hexpiry, expStr_some hempty, expStr_some hb]
          simp [front, joinStr, hab, String.append_assoc])
        exact (ne_cut t.approvedAt a).1 (congrArg Binding.approvedAt hother).symm
      have ha : a = "" := by
        by_contra ha
        have hother := h { t with expiresAt := some a, approvalContext := b ++ "|" ++ t.approvalContext } (by
          rw [preImage_eq, preImage_eq, hexpiry, expStr_some hempty, expStr_some ha]
          simp [front, joinStr, hab, String.append_assoc])
        exact (ne_cut b t.approvalContext).2 (congrArg Binding.approvalContext hother).symm
      rw [hab, ha, hb]
      rfl
    · exact Or.inl hbar

/-- The text of a token is its own just if the token is sealed.
Source: `approval.py`, `PatchApprovalToken.compute_fingerprint`
Kind: P -/
theorem alone_iff (t : PatchApprovalToken) : t.Alone ↔ t.Sealed :=
  ⟨fun h => ⟨texts_of_alone h, files_of_alone h, expiry_of_alone h⟩, alone_of_sealed⟩

end PatchApprovalToken

/-! ## Audit events -/

section events

variable {F : Type} {host : Host} {w : Wording F}

namespace EventFields

/-- The optional fields. Kind: D -/
def options (e : EventFields F) : List (Json F) :=
  [e.predecessorEventId, e.predecessorEventFingerprint, e.proposalFingerprint, e.sourceSnapshotHash,
    e.postApplySnapshotHash, e.verificationRunId, e.verificationFingerprint, e.provenanceFingerprint]

/-- The parts of the text before the optional fields. Kind: D -/
def front (w : Wording F) (e : EventFields F) : List String :=
  [e.eventId, e.eventType.value, e.findingId, w.text e.lifecycleState, w.text e.actor, w.text e.timestamp,
    rstripChar '/' (normSlashes e.repositoryIdentity)]

/-- How metadata are written. Source: `audit.py`, `compute_event_fingerprint`, `sorted_meta_str`. Kind: D -/
def metaStr (metadata : List (String × String)) : String :=
  joinStr "|" ((sortPairs metadata).map fun m => m.1 ++ ":" ++ m.2)

/-- The text that is hashed. Source: `audit.py`, `compute_event_fingerprint`, `raw`. Kind: D -/
def preImage (w : Wording F) (e : EventFields F) : String :=
  joinStr "|" (e.front w ++ e.options.map (orNone w) ++ [metaStr e.metadata])

/-- What an event is bound to: the fields that go into the text, the repository in its normal form and the
metadata in order.
Source: `audit.py`, `compute_event_fingerprint`, parameters
Kind: D -/
structure Binding (F : Type) where
  eventId : String
  eventType : AuditEventType
  findingId : String
  lifecycleState : Json F
  actor : Json F
  timestamp : Json F
  normRepo : String
  options : List (Json F)
  sortedMetadata : List (String × String)

/-- Kind: D -/
def binding (e : EventFields F) : Binding F where
  eventId := e.eventId
  eventType := e.eventType
  findingId := e.findingId
  lifecycleState := e.lifecycleState
  actor := e.actor
  timestamp := e.timestamp
  normRepo := rstripChar '/' (normSlashes e.repositoryIdentity)
  options := e.options
  sortedMetadata := sortPairs e.metadata

/-- Fields of the types that the source names: texts, and texts or nothing.
Source: `audit.py`, annotations of `LifecycleAuditEvent`
Kind: D -/
structure WellTyped (e : EventFields F) : Prop where
  texts : ∀ v ∈ [e.lifecycleState, e.actor, e.timestamp], ∃ s, v = .str s
  options : ∀ v ∈ e.options, v = .null ∨ ∃ s, v = .str s

/-- No bar in a field, each optional field given and not the placeholder, and at most one item of metadata,
with no colon of its own.
Kind: C -/
structure Sealed (w : Wording F) (e : EventFields F) : Prop where
  front : ∀ s ∈ e.front w, '|' ∉ s.toList
  options : ∀ v ∈ e.options, ∃ s, v = .str s ∧ s ≠ "" ∧ s ≠ "NONE" ∧ '|' ∉ s.toList
  metadata : e.metadata = [] ∨ ∃ k v, e.metadata = [(k, v)] ∧
    ('|' ∉ k.toList ∧ ':' ∉ k.toList) ∧ '|' ∉ v.toList ∧ ':' ∉ v.toList

/-- An optional field that is neither empty nor the placeholder is read from its text. Kind: L -/
theorem eq_of_orNone {v : Json F} {s : String} (hv : v = .null ∨ ∃ s, v = .str s) (hne : s ≠ "")
    (hnone : s ≠ "NONE") (h : orNone w v = orNone w (.str s)) : v = .str s := by
  have hright : orNone w (.str s) = s := by simp [orNone, Json.truthy, hne, w.text_str]
  rw [hright] at h
  rcases hv with rfl | ⟨s', rfl⟩
  · exact absurd h.symm hnone
  · by_cases hempty : s' = ""
    · subst hempty
      exact absurd h.symm hnone
    · rw [← h]
      simp [orNone, Json.truthy, hempty, w.text_str]

theorem options_of_parts {vs vs' : List (Json F)} (hvs' : ∀ v ∈ vs', v = .null ∨ ∃ s, v = .str s)
    (hvs : ∀ v ∈ vs, ∃ s, v = .str s ∧ s ≠ "" ∧ s ≠ "NONE" ∧ '|' ∉ s.toList)
    (h : vs'.map (orNone w) = vs.map (orNone w)) : vs' = vs := by
  induction vs generalizing vs' with
  | nil => exact List.map_eq_nil_iff.mp h
  | cons v rest ih =>
    rcases vs' with _ | ⟨v', rest'⟩
    · cases h
    · obtain ⟨hhead, htail⟩ := List.cons.inj h
      rw [List.forall_mem_cons] at hvs hvs'
      obtain ⟨s, rfl, hne, hnone, -⟩ := hvs.1
      rw [eq_of_orNone hvs'.1 hne hnone hhead, ih hvs'.2 hvs.2 htail]

/-- One item of metadata without separators is read from its text. Kind: L -/
theorem sortedMetadata_of_text {metadata metadata' : List (String × String)}
    (h : metadata = [] ∨ ∃ k v, metadata = [(k, v)] ∧
      ('|' ∉ k.toList ∧ ':' ∉ k.toList) ∧ '|' ∉ v.toList ∧ ':' ∉ v.toList)
    (htext : metaStr metadata' = metaStr metadata) : sortPairs metadata' = sortPairs metadata := by
  have hcolon : ":".toList = [':'] := rfl
  unfold metaStr at htext
  rcases h with rfl | ⟨k, v, rfl, ⟨hkbar, hkcolon⟩, hvbar, hvcolon⟩
  · rcases hsorted : sortPairs metadata' with _ | ⟨m, rest⟩
    · rfl
    · exfalso
      rw [hsorted] at htext
      have hmem : ':' ∈ (joinStr "|" ((m :: rest).map fun m => m.1 ++ ":" ++ m.2)).toList := by
        rw [toList_joinStr toList_bar]
        rcases rest with _ | ⟨m', rest⟩
        · simp
        · simp [List.intercalate_cons_cons]
      rw [htext] at hmem
      exact List.not_mem_nil hmem
  · have hbar : '|' ∉ (k ++ ":" ++ v).toList := by simp [hkbar, hvbar]
    have hne : k ++ ":" ++ v ≠ "" := by simp
    have hone := eq_singleton_of_joinStr toList_bar hbar hne htext
    obtain ⟨m, hm, hitem⟩ := List.map_eq_singleton_iff.mp hone
    have hclean : ∀ s ∈ [k, v], ':' ∉ s.toList := by simp [hkcolon, hvcolon]
    have hparts : [m.1, m.2] = [k, v] := parts_of_joinStr hcolon rfl hclean hitem
    obtain ⟨hk, hv⟩ := List.cons.inj hparts
    rw [hm]
    change [(m.1, m.2)] = [(k, v)]
    rw [hk, (List.cons.inj hv).1]

theorem eventType_value_inj {a b : AuditEventType} (h : a.value = b.value) : a = b := by
  have htext := congrArg AuditEventType.ofText h
  rw [AuditEventType.ofText_value, AuditEventType.ofText_value] at htext
  exact Except.ok.inj htext

/-- A sealed event is read back from its text. Kind: L -/
theorem binding_of_preImage {e e' : EventFields F} (hsealed : e.Sealed w) (he : e.WellTyped)
    (he' : e'.WellTyped) (h : e'.preImage w = e.preImage w) : e'.binding = e.binding := by
  have hclean : ∀ s ∈ e.front w ++ e.options.map (orNone w) ++ [metaStr e.metadata], '|' ∉ s.toList := by
    simp only [List.forall_mem_append, List.forall_mem_singleton]
    refine ⟨⟨hsealed.front, fun s hs => ?_⟩, ?_⟩
    · obtain ⟨v, hv, rfl⟩ := List.mem_map.mp hs
      obtain ⟨s, rfl, hne, -, hbar⟩ := hsealed.options v hv
      simpa [orNone, Json.truthy, hne, w.text_str] using hbar
    · rcases hsealed.metadata with hnil | ⟨k, v, hone, ⟨hk, -⟩, hv, -⟩
      · rw [hnil]
        exact List.not_mem_nil
      · rw [hone]
        change '|' ∉ (k ++ ":" ++ v).toList
        simp [hk, hv]
  have hlength : ∀ u : EventFields F,
      (u.front w ++ u.options.map (orNone w) ++ [metaStr u.metadata]).length = 16 := fun _ => rfl
  have hparts := parts_of_joinStr toList_bar ((hlength e').trans (hlength e).symm) hclean h
  obtain ⟨hparts, hmeta⟩ := List.append_inj' hparts (by rw [List.length_singleton, List.length_singleton])
  have hfronts : ∀ u : EventFields F, (u.front w).length = 7 := fun _ => rfl
  obtain ⟨hfront, hoptions⟩ := List.append_inj hparts ((hfronts e').trans (hfronts e).symm)
  have hvalues := options_of_parts he'.options hsealed.options hoptions
  have hsorted := sortedMetadata_of_text hsealed.metadata (List.cons.inj hmeta).1
  have htexts : ∀ {v v' : Json F}, (∃ s, v = .str s) → (∃ s, v' = .str s) → w.text v' = w.text v → v' = v := by
    rintro _ _ ⟨s, rfl⟩ ⟨s', rfl⟩ htext
    rw [w.text_str, w.text_str] at htext
    rw [htext]
  simp only [front, List.cons.injEq, and_true] at hfront
  obtain ⟨hid, htype, hfinding, hstate, hactor, htime, hrepo⟩ := hfront
  have hstate' := htexts (he.texts _ (by simp)) (he'.texts _ (by simp)) hstate
  have hactor' := htexts (he.texts _ (by simp)) (he'.texts _ (by simp)) hactor
  have htime' := htexts (he.texts _ (by simp)) (he'.texts _ (by simp)) htime
  simp only [binding, hid, eventType_value_inj htype, hfinding, hstate', hactor', htime', hrepo, hvalues,
    hsorted]

/-! ### Other events with the same text -/

/-- The same event with other optional fields and metadata, and no fingerprint yet. Kind: L -/
theorem exists_withOptions (e : EventFields F) (metadata : List (String × String)) {vs : List (Json F)}
    (h : vs.length = 8) :
    ∃ e' : EventFields F, e'.options = vs ∧ e'.metadata = metadata ∧ e'.front w = e.front w ∧
      e'.eventFingerprint = "" ∧ e'.eventId = e.eventId ∧ e'.findingId = e.findingId ∧
      [e'.lifecycleState, e'.actor, e'.timestamp] = [e.lifecycleState, e.actor, e.timestamp] := by
  obtain ⟨v₁, v₂, v₃, v₄, v₅, v₆, v₇, v₈, rfl⟩ : ∃ v₁ v₂ v₃ v₄ v₅ v₆ v₇ v₈,
      vs = [v₁, v₂, v₃, v₄, v₅, v₆, v₇, v₈] := by
    match vs, h with
    | [v₁, v₂, v₃, v₄, v₅, v₆, v₇, v₈], _ => exact ⟨v₁, v₂, v₃, v₄, v₅, v₆, v₇, v₈, rfl⟩
  refine ⟨{ e with
    predecessorEventId := v₁, predecessorEventFingerprint := v₂, proposalFingerprint := v₃
    sourceSnapshotHash := v₄, postApplySnapshotHash := v₅, verificationRunId := v₆
    verificationFingerprint := v₇, provenanceFingerprint := v₈, metadata, eventFingerprint := "" },
    rfl, rfl, rfl, rfl, rfl, rfl, rfl⟩

end EventFields

namespace LifecycleAuditEvent

/-- An event that differs from no event with the same text in what it is bound to.
Source: `audit.py`, `compute_event_fingerprint`, "canonical"
Kind: C -/
def Alone (e : LifecycleAuditEvent host w) : Prop :=
  ∀ e' : LifecycleAuditEvent host w, e'.WellTyped → e'.preImage w = e.preImage w → e'.binding = e.binding

/-- Fields with the names and with metadata of an event are those of an event. Kind: L -/
theorem exists_event (e : LifecycleAuditEvent host w) (fields : EventFields F)
    (hid : fields.eventId = e.eventId) (hfinding : fields.findingId = e.findingId)
    (hmetadata : ∀ m ∈ fields.metadata, m ∈ e.metadata) (hfp : fields.eventFingerprint = "") :
    ∃ e' : LifecycleAuditEvent host w, e'.toEventFields = fields := by
  have hkeys : ∀ m ∈ fields.metadata, isSensitiveKey w m.1 = false := fun m hm =>
    e.sensitive_free m (hmetadata m hm)
  have hchecked := e.checked
  unfold EventFields.postInit at hchecked
  have hpass : fields.postInit host w = .ok () := by
    unfold EventFields.postInit
    rw [hid, hfinding, sanitizeMetadata_ok.mpr ⟨hkeys, rfl⟩]
    split at hchecked
    · cases hchecked
    · next hblank =>
        split at hchecked
        · cases hchecked
        · simp_all [Bind.bind, Except.bind]
  exact ⟨⟨fields, hpass⟩, rfl⟩

/-- What a sealed event must have: every optional field is given and is not the placeholder, there is one item of
metadata at most, and no bar in the fields from the state to the repository.
Kind: C -/
structure Unbarred (e : LifecycleAuditEvent host w) : Prop where
  options : ∀ v ∈ e.options, ∃ s, v = .str s ∧ s ≠ "" ∧ s ≠ "NONE"
  metadata : e.metadata.length ≤ 1
  texts : ∀ s, .str s ∈ [e.lifecycleState, e.actor, e.timestamp] → '|' ∉ s.toList
  repository : '|' ∉ e.repositoryIdentity.toList

theorem rstripChar_append (x y : String) : rstripChar '/' (x ++ "|" ++ y) = x ++ "|" ++ rstripChar '/' y := by
  apply String.toList_injective
  simp only [rstripChar, String.toList_append, String.toList_ofList, List.reverse_append, toList_bar,
    List.dropWhile_append]
  split
  · next hempty =>
      rw [List.isEmpty_iff.mp hempty]
      simp
  · simp

/-- Other optional fields and fewer metadata with the same text are the same. Kind: L -/
theorem Alone.options {e : LifecycleAuditEvent host w} (h : e.Alone) (he : e.WellTyped)
    (metadata : List (String × String)) (vs : List (Json F)) (hlength : vs.length = 8)
    (hvs : ∀ v ∈ vs, v = .null ∨ ∃ s, v = .str s) (hmetadata : ∀ m ∈ metadata, m ∈ e.metadata)
    (htext : joinStr "|" (e.front w ++ vs.map (orNone w) ++ [EventFields.metaStr metadata]) = e.preImage w) :
    vs = e.options := by
  obtain ⟨fields, hoptions, hmeta, hfront, hfp, hid, hfinding, htexts⟩ :=
    e.toEventFields.exists_withOptions (w := w) metadata hlength
  obtain ⟨e', rfl⟩ := e.exists_event _ hid hfinding (hmeta ▸ hmetadata) hfp
  have htyped : e'.WellTyped := ⟨htexts ▸ he.texts, hoptions ▸ hvs⟩
  have hsame : e'.preImage w = e.preImage w := by
    rw [← htext, EventFields.preImage, hfront, hoptions, hmeta]
  have hbound := congrArg EventFields.Binding.options (h e' htyped hsame)
  rw [← hoptions]
  exact hbound

/-- A missing field, an empty one and the placeholder are one text. Kind: L -/
theorem options_of_alone {e : LifecycleAuditEvent host w} (h : e.Alone) (he : e.WellTyped) :
    ∀ v ∈ e.options, ∃ s, v = .str s ∧ s ≠ "" ∧ s ≠ "NONE" := by
  intro v hv
  have hsame : ∀ v', (v' = .null ∨ ∃ s, v' = .str s) → orNone w v' = orNone w v → v' = v := by
    intro v' htyped htext
    obtain ⟨i, hi, rfl⟩ := List.getElem_of_mem hv
    have hset := h.options he e.metadata (e.options.set i v')
      (by rw [List.length_set]; rfl) (fun u hu => ?_) (fun _ hm => hm) ?_
    · grind
    · rcases List.mem_or_eq_of_mem_set hu with hu | rfl
      · exact he.options u hu
      · exact htyped
    · rw [List.map_set, htext, EventFields.preImage, ← List.map_set, List.set_getElem_self]
  rcases he.options v hv with rfl | ⟨s, rfl⟩
  · have hnone := hsame (.str "NONE") (Or.inr ⟨_, rfl⟩) (by simp [orNone, Json.truthy, w.text_str])
    cases hnone
  · refine ⟨s, rfl, ?_, ?_⟩
    · rintro rfl
      cases hsame .null (Or.inl rfl) (by simp [orNone, Json.truthy])
    · rintro rfl
      cases hsame .null (Or.inl rfl) (by simp [orNone, Json.truthy, w.text_str])

/-- The last optional field takes the first of several items. Kind: L -/
theorem metadata_of_alone {e : LifecycleAuditEvent host w} (h : e.Alone) (he : e.WellTyped) :
    e.metadata.length ≤ 1 := by
  by_contra hlong
  have hperm := sortPairs_perm e.metadata
  rcases hsorted : sortPairs e.metadata with _ | ⟨m, _ | ⟨m', rest⟩⟩
  · simp_all
  · rw [hsorted] at hperm
    have hlength := hperm.length_eq
    rw [List.length_singleton] at hlength
    omega
  · obtain ⟨s, hs, hne, -⟩ := options_of_alone h he e.provenanceFingerprint (by simp [EventFields.options])
    let item := m.1 ++ ":" ++ m.2
    have htail : sortPairs (m' :: rest) = m' :: rest := by
      grind [sortPairs, sortPairs_sorted, List.Pairwise.insertionSort_eq]
    have hbar : s ++ "|" ++ item ≠ "" := by simp
    have hset := h.options he (m' :: rest) (e.options.set 7 (.str (s ++ "|" ++ item)))
      (by rw [List.length_set]; rfl) (fun u hu => ?_) (fun u hu => ?_) ?_
    · have hget := congrArg (fun vs => vs[7]?) hset
      simp only [EventFields.options, List.set_cons_succ, List.set_cons_zero, hs] at hget
      simp only [List.getElem?_cons_succ, List.getElem?_cons_zero, Option.some.injEq, Json.str.injEq] at hget
      exact (ne_cut s item).1 hget.symm
    · rcases List.mem_or_eq_of_mem_set hu with hu | rfl
      · exact he.options u hu
      · exact Or.inr ⟨_, rfl⟩
    · grind
    · have hmeta : EventFields.metaStr e.metadata = item ++ "|" ++ EventFields.metaStr (m' :: rest) := by
        rw [EventFields.metaStr, EventFields.metaStr, hsorted, htail]
        rfl
      have hgiven : orNone w (.str (s ++ "|" ++ item)) = s ++ "|" ++ item := by
        simp [orNone, Json.truthy, hbar, w.text_str]
      have hlast : orNone w e.provenanceFingerprint = s := by
        simp [hs, orNone, Json.truthy, hne, w.text_str]
      have hshift := joinStr_shift "|" (e.front w ++ (e.options.take 7).map (orNone w)) s item
        (EventFields.metaStr (m' :: rest)) []
      rw [EventFields.preImage, hmeta]
      simp only [EventFields.options, List.set_cons_succ, List.set_cons_zero, List.map_cons, List.map_nil,
        hgiven, hlast, List.append_assoc, List.cons_append, List.nil_append]
      simpa [EventFields.options, List.append_assoc] using hshift

/-- A field with a bar gives what is before or behind it to its neighbour. Kind: L -/
theorem texts_of_alone {e : LifecycleAuditEvent host w} (h : e.Alone) (he : e.WellTyped) :
    (∀ s, .str s ∈ [e.lifecycleState, e.actor, e.timestamp] → '|' ∉ s.toList) ∧
      '|' ∉ e.repositoryIdentity.toList := by
  obtain ⟨state, hstate⟩ := he.texts e.lifecycleState (by simp)
  obtain ⟨actor, hactor⟩ := he.texts e.actor (by simp)
  obtain ⟨time, htime⟩ := he.texts e.timestamp (by simp)
  -- other texts in these four fields, with the same text of the event
  have hother : ∀ state' actor' time' repository', joinStr "|" [state', actor', time',
        rstripChar '/' (normSlashes repository')] = joinStr "|" [state, actor, time,
          rstripChar '/' (normSlashes e.repositoryIdentity)] →
      state' = state ∧ actor' = actor ∧ time' = time ∧
        rstripChar '/' (normSlashes repository') = rstripChar '/' (normSlashes e.repositoryIdentity) := by
    intro state' actor' time' repository' hjoin
    obtain ⟨e', hfields⟩ := e.exists_event ({ e.toEventFields with
        lifecycleState := .str state', actor := .str actor', timestamp := .str time'
        repositoryIdentity := repository', eventFingerprint := "" }) rfl rfl (fun _ hm => hm) rfl
    have htyped : e'.WellTyped := by
      rw [hfields]
      refine ⟨?_, he.options⟩
      simp
    have hsame : e'.preImage w = e.preImage w := by
      simp only [joinStr] at hjoin
      have htail := congrArg (fun s => e.eventId ++ "|" ++ (e.eventType.value ++ "|" ++ (e.findingId ++ "|" ++
        (s ++ "|" ++ joinStr "|" (e.options.map (orNone w) ++ [EventFields.metaStr e.metadata]))))) hjoin
      rw [hfields]
      simpa [EventFields.preImage, EventFields.front, EventFields.options, hstate, hactor, htime, w.text_str,
        joinStr, String.append_assoc] using htail
    have hbound := h e' htyped hsame
    rw [hfields] at hbound
    have hstate' := congrArg EventFields.Binding.lifecycleState hbound
    have hactor' := congrArg EventFields.Binding.actor hbound
    have htime' := congrArg EventFields.Binding.timestamp hbound
    have hrepo' := congrArg EventFields.Binding.normRepo hbound
    simp only [EventFields.binding, hstate, hactor, htime, Json.str.injEq] at hstate' hactor' htime' hrepo'
    exact ⟨hstate', hactor', htime', hrepo'⟩
  have hshift := joinStr_shift "|"
  constructor
  · simp only [hstate, hactor, htime, List.mem_cons, List.not_mem_nil, or_false, Json.str.injEq]
    rintro s (rfl | rfl | rfl) hbar <;> obtain ⟨a, b, rfl⟩ := exists_cut toList_bar hbar
    · exact (ne_cut a b).1 (hother a (b ++ "|" ++ actor) time _ (hshift [] a b actor _).symm).1
    · exact (ne_cut a b).1 (hother state a (b ++ "|" ++ time) _ (hshift [state] a b time _).symm).2.1
    · exact (ne_cut a b).2 (hother state (actor ++ "|" ++ a) b _ (hshift [state] actor a b _)).2.2.1
  · intro hbar
    obtain ⟨a, b, hab⟩ := exists_cut toList_bar hbar
    have hnorm : rstripChar '/' (normSlashes e.repositoryIdentity) =
        normSlashes a ++ "|" ++ rstripChar '/' (normSlashes b) := by
      rw [hab, normSlashes_append, normSlashes_append, ← rstripChar_append]
      rfl
    have hsame := hother state actor (time ++ "|" ++ normSlashes a) b (by
      rw [hnorm]
      exact hshift [state, actor] time (normSlashes a) (rstripChar '/' (normSlashes b)) [])
    rw [hnorm] at hsame
    exact (ne_cut _ _).2 hsame.2.2.2

theorem unbarred_of_alone {e : LifecycleAuditEvent host w} (h : e.Alone) (he : e.WellTyped) : e.Unbarred :=
  ⟨options_of_alone h he, metadata_of_alone h he, (texts_of_alone h he).1, (texts_of_alone h he).2⟩

/-- A sealed event is read back from its text. Kind: L -/
theorem alone_of_sealed {e : LifecycleAuditEvent host w} (he : e.WellTyped) (h : e.Sealed w) : e.Alone :=
  fun _ he' hsame => EventFields.binding_of_preImage h he he' hsame

end LifecycleAuditEvent

end events

/-! ## Transition records -/

namespace LifecycleEvent

/-- The text that is hashed. Source: `state_machine.py`, `LifecycleEvent.compute_fingerprint`, `raw`. Kind: D -/
def preImage (r : LifecycleEvent) : String :=
  joinStr "|" [r.eventId, r.findingId, r.previousState.value, r.newState.value, r.actor, r.timestamp,
    joinStr "|" (sortStrings r.evidenceReferences)]

theorem computeFingerprint_eq (host : Host) (r : LifecycleEvent) :
    LifecycleEvent.computeFingerprint host r.eventId r.findingId r.previousState r.newState r.actor r.timestamp
      r.evidenceReferences = host.sha256Text r.preImage :=
  rfl

/-- What a record says about its transition: all but its fingerprint.
Source: `state_machine.py`, `LifecycleEvent`
Kind: D -/
def binding (r : LifecycleEvent) : LifecycleEvent :=
  { r with evidenceReferences := sortStrings r.evidenceReferences, eventFingerprint := "" }

/-- A record that differs from no record with the same text in what it says. Kind: C -/
def Alone (r : LifecycleEvent) : Prop :=
  ∀ r' : LifecycleEvent, r'.preImage = r.preImage → r'.binding = r.binding

/-- The reason of a transition is not in the text. Kind: L -/
theorem never_alone (r : LifecycleEvent) : ¬r.Alone := by
  intro h
  have hother := h { r with reason := r.reason ++ "|" ++ "" } rfl
  exact (ne_cut r.reason "").1 (congrArg LifecycleEvent.reason hother).symm

end LifecycleEvent

/-! ## The three texts -/

/-- The text of a token settles what the token is bound to just if the token is sealed; that of an audit event if
the event is sealed, and only if it is unbarred; that of a transition record never.
Source: `approval.py`, `audit.py`, `state_machine.py`
Kind: P -/
theorem texts_settle {F : Type} (host : Host) (w : Wording F) :
    (∀ t : PatchApprovalToken, t.Alone ↔ t.Sealed) ∧
      (∀ e : LifecycleAuditEvent host w, e.WellTyped → (e.Sealed w → e.Alone) ∧ (e.Alone → e.Unbarred)) ∧
      ∀ r : LifecycleEvent, ¬r.Alone :=
  ⟨PatchApprovalToken.alone_iff,
    fun _ he => ⟨LifecycleAuditEvent.alone_of_sealed he, fun h => LifecycleAuditEvent.unbarred_of_alone h he⟩,
    LifecycleEvent.never_alone⟩

/-- The first event, with an actor who has a bar in the name. Kind: D -/
def barredActor : EventBinding Empty :=
  { RemediationLedger.firstEvent with actor := .str "alice|bob", timestamp := .str "2026-01-01" }

/-- The same event, with the bar as the separator. Kind: D -/
def shiftedActor : EventBinding Empty :=
  { RemediationLedger.firstEvent with actor := .str "alice", timestamp := .str "bob|2026-01-01" }

/-- A token without an expiry. Kind: D -/
def lastingToken : PatchApprovalToken :=
  PatchApprovalToken.create sampleHost "F-101" "proposal" "snapshot" ["a.php"] "/repo" "reviewer" none
    "HUMAN_APPROVED" "tok_1" "2026-01-01"

/-- The record of a first transition. Kind: D -/
def firstRecord : LifecycleEvent where
  eventId := "evt_1"
  findingId := "F-101"
  previousState := .detected
  newState := .evidenceVerified
  actor := "system"
  timestamp := "2026-01-01"
  reason := "verified"
  evidenceReferences := []
  eventFingerprint := ""

theorem LifecycleAuditEvent.create_fields {F : Type} {host : Host} {w : Wording F} {bound : EventBinding F}
    {eventType metadata : Json F} {e : LifecycleAuditEvent host w}
    (h : LifecycleAuditEvent.create host w bound eventType metadata = .ok e) : e.toEventBinding = bound := by
  obtain ⟨_, -, h⟩ := bind_ok h
  obtain ⟨_, -, h⟩ := bind_ok h
  obtain ⟨_, -, h⟩ := bind_ok h
  rw [LifecycleAuditEvent.build_ok.mp h]

/-- Two events with different actors, two tokens of which one names the placeholder, and two records with
different reasons: each pair has one text, and so one fingerprint under any digest.
Source: `audit.py`, `approval.py`, `state_machine.py`
Kind: T -/
theorem texts_collide :
    (∃ a b : LifecycleAuditEvent sampleHost plainWording,
      LifecycleAuditEvent.create sampleHost plainWording barredActor (.str "FINDING_DETECTED") (.obj []) = .ok a ∧
        LifecycleAuditEvent.create sampleHost plainWording shiftedActor (.str "FINDING_DETECTED") (.obj []) = .ok b ∧
        a.WellTyped ∧ b.WellTyped ∧ a.preImage plainWording = b.preImage plainWording ∧ a.actor ≠ b.actor) ∧
      (∃ t t' : PatchApprovalToken, t.preImage = t'.preImage ∧ t.expiresAt ≠ t'.expiresAt) ∧
      ∃ r r' : LifecycleEvent, r.preImage = r'.preImage ∧ r.reason ≠ r'.reason := by
  have hrun : (do
      let a ← LifecycleAuditEvent.create sampleHost plainWording barredActor (.str "FINDING_DETECTED") (.obj [])
      let b ← LifecycleAuditEvent.create sampleHost plainWording shiftedActor (.str "FINDING_DETECTED") (.obj [])
      Except.ok (decide (a.preImage plainWording = b.preImage plainWording))) = .ok true := by
    decide +kernel
  obtain ⟨a, ha, hrun⟩ := bind_ok hrun
  obtain ⟨b, hb, hrun⟩ := bind_ok hrun
  have hsame := of_decide_eq_true (Except.ok.inj hrun)
  have hfields := LifecycleAuditEvent.create_fields ha
  have hfields' := LifecycleAuditEvent.create_fields hb
  have htyped : ∀ {e : EventFields Empty} {bound : EventBinding Empty}, e.toEventBinding = bound →
      bound = barredActor ∨ bound = shiftedActor → e.WellTyped := by
    rintro e bound heq (rfl | rfl)
    · refine ⟨?_, ?_⟩
      · rw [heq]
        simp [barredActor, RemediationLedger.firstEvent]
      · unfold EventFields.options
        rw [heq]
        simp [barredActor, RemediationLedger.firstEvent]
    · refine ⟨?_, ?_⟩
      · rw [heq]
        simp [shiftedActor, RemediationLedger.firstEvent]
      · unfold EventFields.options
        rw [heq]
        simp [shiftedActor, RemediationLedger.firstEvent]
  refine ⟨⟨a, b, ha, hb, htyped hfields (Or.inl rfl), htyped hfields' (Or.inr rfl), hsame, ?_⟩, ?_, ?_⟩
  · rw [hfields, hfields']
    simp [barredActor, shiftedActor]
  · exact ⟨lastingToken, { lastingToken with expiresAt := some "NEVER" }, by decide +kernel, by decide⟩
  · exact ⟨firstRecord, { firstRecord with reason := "forged" }, rfl, by decide⟩

end KarsaSec.Remediation
