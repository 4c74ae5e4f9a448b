import KarsaSec.Correlation.SecurityProof
import KarsaSec.Found.Dict

/-!
# Decisions

`SecurityDecisionEngine._run_25_step_pipeline`: proofs and raw findings become candidates, and the candidates of one root
cause one finding.

* `consolidate` is the finding of a group, with the root cause of its first candidate.
* `decision_sound_iff`: a safe finding has proofs and findings with a safe resolution only, and no order matters, exactly
  when `Attributed` holds.
* `engines_sound_iff` is about the three engines, each on inputs of its own and in a run of all three.
-/

namespace KarsaSec.Correlation

open KarsaSec.Found

/-! ## Records -/

/-- The same four members. Source: `decision/models.py`, `DecisionResolution`. Kind: D -/
abbrev DecisionResolution := SecurityPropertyResolution

/-- Source: `decision/models.py`, `RiskSeverity`, `BusinessRisk`. Kind: D -/
inductive RiskLevel
  | critical | high | medium | low | unknown
  deriving DecidableEq

/-- The levels that the engine gives. Source: `decision/models.py`, `ExploitabilityLevel`. Kind: D -/
inductive ExploitabilityLevel
  | high | none | unknown

/-- The levels that the engine gives. Source: `decision/models.py`, `ConfidenceLevel`. Kind: D -/
inductive ConfidenceLevel
  | proven | high | low | unknown

/-- The scopes that the engine gives. Source: `decision/models.py`, `BlastRadiusScope`. Kind: D -/
inductive BlastRadiusScope
  | global | multiTenant | service
  deriving DecidableEq

/-- Source: `decision/models.py`, `RemediationPriority`. Kind: D -/
inductive RemediationPriority
  | p0 | p1 | p2 | p3 | p4

/-- Source: `decision/models.py`, `FindingRootCause`. Kind: D -/
structure FindingRootCause where
  nodeId : String
  component : String
  description : String
  sourceBatch : EvidenceSource
  filePath : String := ""
  lineNumber : ℕ := 0

/-- Source: `decision/models.py`, `FindingEvidence`. Kind: D -/
structure FindingEvidence where
  evidenceId : String
  sourceBatch : EvidenceSource
  description : String
  details : List String

/-- Source: `decision/models.py`, `FindingImpact`. Kind: D -/
structure FindingImpact where
  securityProperties : List SecurityProperty
  blastRadius : BlastRadiusScope
  affectedServices : List String
  affectedTenants : List String

/-- Source: `decision/models.py`, `FindingRisk`. Kind: D -/
structure FindingRisk where
  severity : RiskLevel
  businessRisk : RiskLevel
  exploitability : ExploitabilityLevel
  confidence : ConfidenceLevel
  remediationPriority : RemediationPriority

/-- Source: `decision/models.py`, `FindingProvenance`. Kind: D -/
structure FindingProvenance where
  proofIds : List String
  exploitChainIds : List String
  evidenceSources : List EvidenceSource

/-- Source: `decision/models.py`, `FindingDecision`. Kind: D -/
structure FindingDecision where
  resolution : DecisionResolution
  explanation : String
  invariantsEvaluated : List String

/-- Source: `decision/models.py`, `SecurityFinding`. Kind: D -/
structure SecurityFinding where
  findingId : String
  resolution : DecisionResolution
  rootCause : FindingRootCause
  impact : FindingImpact
  risk : FindingRisk
  provenance : FindingProvenance
  decision : FindingDecision
  evidence : List FindingEvidence

/-- Source: `decision/engine.py`, `candidates`. Kind: D -/
structure Candidate where
  targetProperty : SecurityProperty
  resolution : SecurityPropertyResolution
  rootCause : FindingRootCause
  proofId : String

/-! ## Candidates -/

/-- A root cause of a proof has no component and no description of its own.
Source: `decision/engine.py`, loop over `proof_graph.proofs`
Kind: D -/
def proofCandidate (proof : SecurityProof) : Candidate where
  targetProperty := proof.property
  resolution := proof.resolution
  rootCause :=
    { nodeId := proof.rootCause.nodeId
      component := proof.rootCause.nodeId
      description := proof.rootCause.rationale
      sourceBatch := .d5 }
  proofId := proof.proofId

/-- Source: `decision/engine.py`, `sec_prop`. Kind: D -/
def rawProperty (rf : RawFinding) : SecurityProperty :=
  (SecurityProperty.ofText? (rf.securityProperty.getD "UNKNOWN")).getD .secretAccess

/-- Source: `decision/engine.py`, `res` of a raw finding. Kind: D -/
def rawResolution (rf : RawFinding) : SecurityPropertyResolution :=
  let hasAuthz := rf.authzPresent || rf.authorized || rf.authzContext
  if rf.conflictPresent ∨ rf.resolutionText = "CONFLICT" then .conflict
  else if rf.resolutionText = "SAFE" then .safe
  else if rf.resolutionText = "VULNERABLE" then
    if rf.lacksEvidence then .unknown
    else if hasAuthz && !rf.authzScopeMismatch then .safe
    else if hasAuthz && rf.authzScopeMismatch then .unknown
    else .vulnerable
  else .unknown

/-- `rf.get("root_cause_id") or f"RC_{..}"`. Source: `decision/engine.py`, `rc_node_id`. Kind: D -/
def rawCauseId (rf : RawFinding) : String :=
  if rf.rootCauseId.getD "" = "" then "RC_" ++ (rawProperty rf).value else rf.rootCauseId.getD ""

/-- Source: `decision/engine.py`, loop over `raw_findings`. Kind: D -/
def rawCandidate (rf : RawFinding) : Candidate where
  targetProperty := rawProperty rf
  resolution := rawResolution rf
  rootCause :=
    { nodeId := rawCauseId rf
      component := rf.component.getD "app_service"
      description := rf.description.getD ("Root cause for " ++ (rawProperty rf).value)
      sourceBatch := .d5 }
  proofId := rf.proofId.getD ("PROOF_" ++ (rawProperty rf).value)

/-- Source: `decision/engine.py`, `candidates`. Kind: D -/
def candidates (proofs : List SecurityProof) (rawFindings : List RawFinding) : List Candidate :=
  proofs.map proofCandidate ++ rawFindings.map rawCandidate

/-! ## The finding of a root cause -/

/-- Source: `decision/engine.py`, `_compute_business_risk`. Kind: D -/
def computeBusinessRisk (props : List SecurityProperty) (blastRadius : BlastRadiusScope) (resolution : DecisionResolution) :
    RiskLevel :=
  let wide := blastRadius = .global ∨ blastRadius = .multiTenant
  let hasBusinessCritical := ∃ p ∈ props, p ∈ [.paymentModification, .tenantEscape, .dataExfiltration]
  let hasInfraCritical := ∃ p ∈ props, p ∈ [.cloudAdmin, .rootAccess, .codeExecution]
  if resolution = .unknown ∨ resolution = .conflict then .unknown
  else if resolution = .safe then .low
  else if hasBusinessCritical ∧ wide then .critical
  else if hasBusinessCritical then .high
  else if hasInfraCritical ∧ wide then .high
  else if hasInfraCritical then .medium
  else if wide then .high
  else .medium

/-- Source: `decision/engine.py`, "STEP 16 - STEP 21: Risk Composition". Kind: D -/
def composeRisk (props : List SecurityProperty) (businessRisk : RiskLevel) : DecisionResolution → FindingRisk
  | .vulnerable =>
    if ∃ p ∈ props, p = .rootAccess ∨ p = .cloudAdmin then ⟨.critical, businessRisk, .high, .high, .p0⟩
    else ⟨.high, businessRisk, .high, .high, .p1⟩
  | .safe => ⟨.low, businessRisk, .none, .proven, .p4⟩
  | .conflict => ⟨.medium, businessRisk, .unknown, .low, .p2⟩
  | .unknown => ⟨.unknown, businessRisk, .unknown, .unknown, .p3⟩

/-- Source: `decision/engine.py`, "Blast Radius Calculation". Kind: D -/
def blastRadiusOf (props : List SecurityProperty) : BlastRadiusScope :=
  if .tenantEscape ∈ props then .multiTenant else if .cloudAdmin ∈ props then .global else .service

/-- Source: `decision/engine.py`, `final_res`. Kind: D -/
def finalResolution (group : List Candidate) : DecisionResolution :=
  let resolutions := group.map Candidate.resolution
  dominant (.conflict ∈ resolutions) (.vulnerable ∈ resolutions) (.safe ∈ resolutions)

/-- Source: `decision/engine.py`, `props`. Kind: D -/
def impactedProperties (group : List Candidate) : List SecurityProperty :=
  sortBy SecurityProperty.value (group.map Candidate.targetProperty).dedup

/-- Source: `decision/engine.py`, `proof_ids`. Kind: D -/
def groupProofIds (group : List Candidate) : List String := sortBy id (group.map Candidate.proofId).dedup

/-- Source: `decision/models.py`, `compute_canonical_finding_id`. Kind: D -/
def computeCanonicalFindingId (sha256 : Json Empty → String) (rootCauseId : String) (props : List SecurityProperty)
    (resolution : DecisionResolution) (proofIds : List String) : String :=
  let canonicalData : Json Empty := .obj [("resolution", .str resolution.value), ("root_cause_id", .str rootCauseId),
    ("security_properties", .arr ((sortBy id (props.map SecurityProperty.value)).map .str)),
    ("proof_ids", .arr ((sortBy id proofIds).map .str))]
  "FINDING_" ++ upper (String.ofList ((sha256 canonicalData.sortKeys).toList.take 16))

/-- The finding of what a group has in common. Source: `decision/engine.py`, loop over `rc_groups`. Kind: D -/
def findingOf (sha256 : Json Empty → String) (rcId : String) (rootCause : FindingRootCause) (finalRes : DecisionResolution)
    (props : List SecurityProperty) (proofIds : List String) : SecurityFinding :=
  let blastRadius := blastRadiusOf props
  { findingId := computeCanonicalFindingId sha256 rcId props finalRes proofIds
    resolution := finalRes
    rootCause := rootCause
    impact := ⟨props, blastRadius, ["default_service"], ["default_tenant"]⟩
    risk := composeRisk props (computeBusinessRisk props blastRadius finalRes) finalRes
    provenance := ⟨proofIds, ["CHAIN_D4_01"], [.d5, .d4]⟩
    decision :=
      { resolution := finalRes
        explanation := s!"Consolidated decision for root cause {rcId} affecting {props.length} security properties."
        invariantsEvaluated := ["INV-D6-01", "INV-D6-05", "INV-D6-06", "INV-D6-13", "INV-D6-23"] }
    evidence :=
      [{ evidenceId := "EV_" ++ rcId
         sourceBatch := .d5
         description := "Evidence for root cause " ++ rcId
         details := proofIds.map fun pid => "Proof ID: " ++ pid }] }

/-- The finding of a group, under the root cause of its first candidate.
Source: `decision/engine.py`, loop over `rc_groups`
Kind: D -/
def consolidate (sha256 : Json Empty → String) (rcId : String) (group : List Candidate) : Option SecurityFinding :=
  (group.head?.map Candidate.rootCause).map fun rootCause =>
    findingOf sha256 rcId rootCause (finalResolution group) (impactedProperties group) (groupProofIds group)

/-- Source: `decision/engine.py`, `_run_25_step_pipeline`. Kind: D -/
def runPipeline (sha256 : Json Empty → String) (proofs : List SecurityProof) (rawFindings : List RawFinding) :
    List SecurityFinding :=
  (Dict.groupBy (fun c : Candidate => c.rootCause.nodeId) (candidates proofs rawFindings)).entries.filterMap fun entry =>
    consolidate sha256 entry.1 entry.2

/-! ## Groups -/

section groups

variable {sha256 : Json Empty → String} {proofs proofs' : List SecurityProof} {raws raws' : List RawFinding} {rcId : String}
  {group group' : List Candidate} {F : SecurityFinding}

/-- The candidates of a root cause. Kind: D -/
def causeGroup (rcId : String) (cs : List Candidate) : List Candidate := cs.filter fun c => c.rootCause.nodeId = rcId

/-- The root cause of a candidate, where it is the one asked for. Kind: D -/
def causeIn (rcId : String) (c : Candidate) : Option FindingRootCause :=
  if c.rootCause.nodeId = rcId then some c.rootCause else none

theorem consolidate_rootCause (sha256 : Json Empty → String) (rcId : String) (group : List Candidate) :
    (consolidate sha256 rcId group).map SecurityFinding.rootCause = group.head?.map Candidate.rootCause := by
  unfold consolidate
  rw [Option.map_map]
  exact Option.map_id'

theorem consolidate_congr (h : group'.Perm group) :
    consolidate sha256 rcId group' = consolidate sha256 rcId group ↔
      group'.head?.map Candidate.rootCause = group.head?.map Candidate.rootCause := by
  constructor
  · grind [consolidate_rootCause]
  · intro heq
    have hres : finalResolution group' = finalResolution group := by
      unfold finalResolution
      simp only [(h.map Candidate.resolution).mem_iff]
    have hprops : impactedProperties group' = impactedProperties group :=
      sortBy_dedup_congr SecurityProperty.value_injective fun _ => (h.map _).mem_iff
    have hids : groupProofIds group' = groupProofIds group :=
      sortBy_dedup_congr Function.injective_id fun _ => (h.map _).mem_iff
    unfold consolidate
    rw [heq, hres, hprops, hids]

theorem nodeId_of_consolidate {cs : List Candidate} (h : consolidate sha256 rcId (causeGroup rcId cs) = some F) :
    F.rootCause.nodeId = rcId := by
  have hcause := consolidate_rootCause sha256 rcId (causeGroup rcId cs)
  rw [h, Option.map_some] at hcause
  obtain ⟨c, hc, heq⟩ := Option.map_eq_some_iff.mp hcause.symm
  rw [← heq]
  exact of_decide_eq_true (List.mem_filter.mp (List.mem_of_mem_head? hc)).2

/-- What is reported are the findings of the root causes. Source: `decision/engine.py`, `rc_groups`. Kind: L -/
theorem mem_runPipeline : F ∈ runPipeline sha256 proofs raws ↔
    ∃ rcId, consolidate sha256 rcId (causeGroup rcId (candidates proofs raws)) = some F := by
  unfold runPipeline
  rw [List.mem_filterMap]
  constructor
  · rintro ⟨⟨rcId, group⟩, hentry, hF⟩
    obtain ⟨-, rfl⟩ := Dict.mem_entries_groupBy.mp hentry
    exact ⟨rcId, hF⟩
  · rintro ⟨rcId, hF⟩
    refine ⟨(rcId, causeGroup rcId (candidates proofs raws)), Dict.mem_entries_groupBy.mpr ⟨?_, rfl⟩, hF⟩
    rcases hgroup : causeGroup rcId (candidates proofs raws) with _ | ⟨c, rest⟩
    · rw [hgroup] at hF
      cases hF
    · have hc : c ∈ causeGroup rcId (candidates proofs raws) := hgroup ▸ List.mem_cons_self
      obtain ⟨hmem, hid⟩ := List.mem_filter.mp hc
      exact ⟨c, hmem, of_decide_eq_true hid⟩

theorem nodup_runPipeline : (runPipeline sha256 proofs raws).Nodup := by
  unfold runPipeline
  refine List.pairwise_filterMap.mpr ?_
  have hkeys := List.pairwise_map.mp (Dict.groupBy (fun c : Candidate => c.rootCause.nodeId) (candidates proofs raws)).nodup
  refine hkeys.imp_of_mem ?_
  rintro ⟨k, g⟩ ⟨k', g'⟩ hg hg' hne F hF F' hF' rfl
  obtain ⟨-, rfl⟩ := Dict.mem_entries_groupBy.mp hg
  obtain ⟨-, rfl⟩ := Dict.mem_entries_groupBy.mp hg'
  exact hne ((nodeId_of_consolidate hF).symm.trans (nodeId_of_consolidate hF'))

theorem perm_runPipeline_iff : (runPipeline sha256 proofs' raws').Perm (runPipeline sha256 proofs raws) ↔
    ∀ rcId, consolidate sha256 rcId (causeGroup rcId (candidates proofs' raws')) =
      consolidate sha256 rcId (causeGroup rcId (candidates proofs raws)) := by
  rw [List.perm_ext_iff_of_nodup nodup_runPipeline nodup_runPipeline]
  constructor
  · intro h rcId
    refine Option.ext fun F => ?_
    have hside : ∀ {ps qs : List SecurityProof} {rs ss : List RawFinding},
        (∀ F, F ∈ runPipeline sha256 ps rs → F ∈ runPipeline sha256 qs ss) →
        consolidate sha256 rcId (causeGroup rcId (candidates ps rs)) = some F →
        consolidate sha256 rcId (causeGroup rcId (candidates qs ss)) = some F := by
      intro ps qs rs ss hsub hF
      obtain ⟨k, hk⟩ := mem_runPipeline.mp (hsub F (mem_runPipeline.mpr ⟨rcId, hF⟩))
      obtain rfl := (nodeId_of_consolidate hk).symm.trans (nodeId_of_consolidate hF)
      exact hk
    exact ⟨hside fun F => (h F).mp, hside fun F => (h F).mpr⟩
  · intro h F
    simp only [mem_runPipeline, h]

theorem candidates_perm (hp : proofs'.Perm proofs) (hr : raws'.Perm raws) :
    (candidates proofs' raws').Perm (candidates proofs raws) := (hp.map _).append (hr.map _)

theorem head?_causeGroup : (causeGroup rcId (candidates proofs raws)).head?.map Candidate.rootCause =
    firstOf (fun p => causeIn rcId (proofCandidate p)) (fun rf => causeIn rcId (rawCandidate rf)) proofs raws := by
  unfold causeGroup firstOf candidates
  rw [map_head?_filter, List.findSome?_append, List.findSome?_map, List.findSome?_map]
  rfl

end groups

/-! ## Orders -/

/-- The proofs and raw findings of a root cause have a safe resolution. Kind: D -/
def SourcesSafe (proofs : List SecurityProof) (raws : List RawFinding) (rcId : String) : Prop :=
  (∀ p ∈ proofs, p.rootCause.nodeId = rcId → p.resolution = .safe) ∧
    ∀ rf ∈ raws, rawCauseId rf = rcId → rf.resolutionText = "SAFE"

/-- The decision engine does what it promises: a safe finding has proofs and raw findings with a safe resolution only, and
no order of them changes what is reported. Kind: D -/
structure DecisionSound (sha256 : Json Empty → String) (proofs : List SecurityProof) (raws : List RawFinding) : Prop where
  safe_only : ∀ F ∈ runPipeline sha256 proofs raws, F.resolution = .safe → SourcesSafe proofs raws F.rootCause.nodeId
  free : ∀ proofs' raws', proofs'.Perm proofs → raws'.Perm raws →
    (runPipeline sha256 proofs' raws').Perm (runPipeline sha256 proofs raws)

/-- Where a candidate is safe, all that its root cause comes from has a safe resolution, unless another candidate of it is
vulnerable or conflicting. Proofs with one root cause say the same of it, and so do raw findings where no proof has it.
Kind: D -/
structure Attributed (proofs : List SecurityProof) (raws : List RawFinding) : Prop where
  safe_alone : ∀ a ∈ candidates proofs raws, a.resolution = .safe →
    (∀ c ∈ candidates proofs raws, c.rootCause.nodeId = a.rootCause.nodeId →
      c.resolution ≠ .conflict ∧ c.resolution ≠ .vulnerable) → SourcesSafe proofs raws a.rootCause.nodeId
  proofs_agree : ∀ p ∈ proofs, ∀ q ∈ proofs, p.rootCause.nodeId = q.rootCause.nodeId →
    p.rootCause.rationale = q.rootCause.rationale
  raws_agree : ∀ f ∈ raws, ∀ g ∈ raws, rawCauseId f = rawCauseId g → (∀ p ∈ proofs, p.rootCause.nodeId ≠ rawCauseId f) →
    (rawCandidate f).rootCause = (rawCandidate g).rootCause

section orders

variable {sha256 : Json Empty → String} {proofs : List SecurityProof} {raws : List RawFinding}

theorem runPipeline_free_iff : (∀ proofs' raws', proofs'.Perm proofs → raws'.Perm raws →
      (runPipeline sha256 proofs' raws').Perm (runPipeline sha256 proofs raws)) ↔
    ∀ rcId, Agree (fun p => causeIn rcId (proofCandidate p)) proofs ∧
      ((∀ p ∈ proofs, causeIn rcId (proofCandidate p) = none) → Agree (fun rf => causeIn rcId (rawCandidate rf)) raws) := by
  simp only [← firstOf_free_iff, perm_runPipeline_iff]
  constructor
  · intro h rcId proofs' raws' hp hr
    have heq := (consolidate_congr ((candidates_perm hp hr).filter _)).mp (h proofs' raws' hp hr rcId)
    rwa [← causeGroup, ← causeGroup, head?_causeGroup, head?_causeGroup] at heq
  · intro h proofs' raws' hp hr rcId
    refine (consolidate_congr ((candidates_perm hp hr).filter _)).mpr ?_
    rw [← causeGroup, ← causeGroup, head?_causeGroup, head?_causeGroup]
    exact h rcId proofs' raws' hp hr

theorem finalResolution_eq_safe_iff {group : List Candidate} : finalResolution group = .safe ↔
    (∀ c ∈ group, c.resolution ≠ .conflict) ∧ (∀ c ∈ group, c.resolution ≠ .vulnerable) ∧
      ∃ c ∈ group, c.resolution = .safe := by
  unfold finalResolution
  rw [dominant_eq_safe_iff, decide_eq_false_iff_not, decide_eq_false_iff_not, decide_eq_true_iff]
  simp only [List.mem_map, not_exists, not_and, ne_eq]

/-- The finding of a root cause that has candidates. Kind: L -/
theorem exists_finding (sha256 : Json Empty → String) {c : Candidate} (hc : c ∈ candidates proofs raws) :
    ∃ F ∈ runPipeline sha256 proofs raws, F.rootCause.nodeId = c.rootCause.nodeId ∧
      F.resolution = finalResolution (causeGroup c.rootCause.nodeId (candidates proofs raws)) := by
  have hin : c ∈ causeGroup c.rootCause.nodeId (candidates proofs raws) :=
    List.mem_filter.mpr ⟨hc, decide_eq_true rfl⟩
  obtain ⟨first, rest, hgroup⟩ := List.exists_cons_of_ne_nil (List.ne_nil_of_mem hin)
  have hF : ∃ F, consolidate sha256 c.rootCause.nodeId (causeGroup c.rootCause.nodeId (candidates proofs raws)) = some F ∧
      F.resolution = finalResolution (causeGroup c.rootCause.nodeId (candidates proofs raws)) := by
    rw [hgroup]
    exact ⟨_, rfl, rfl⟩
  obtain ⟨F, hsome, hres⟩ := hF
  exact ⟨F, mem_runPipeline.mpr ⟨_, hsome⟩, nodeId_of_consolidate hsome, hres⟩

/-- **A safe finding has sources with a safe resolution only, and no order matters, exactly when the inputs are attributed.**
Source: `decision/engine.py`, `_run_25_step_pipeline`
Kind: L -/
theorem decision_sound_iff : DecisionSound sha256 proofs raws ↔ Attributed proofs raws := by
  constructor
  · intro h
    have hfree := runPipeline_free_iff.mp h.free
    refine ⟨fun a ha hsafe hothers => ?_, fun p hp q hq hsame => ?_, fun f hf g hg hsame hnone => ?_⟩
    · obtain ⟨F, hF, hid, hres⟩ := exists_finding sha256 ha
      have hgroup : ∀ c ∈ causeGroup a.rootCause.nodeId (candidates proofs raws),
          c ∈ candidates proofs raws ∧ c.rootCause.nodeId = a.rootCause.nodeId := fun c hc =>
        (List.mem_filter.mp hc).imp_right of_decide_eq_true
      have hfinal : F.resolution = .safe := by
        rw [hres, finalResolution_eq_safe_iff]
        refine ⟨fun c hc => (hothers c (hgroup c hc).1 (hgroup c hc).2).1,
          fun c hc => (hothers c (hgroup c hc).1 (hgroup c hc).2).2, a, ?_, hsafe⟩
        exact List.mem_filter.mpr ⟨ha, decide_eq_true rfl⟩
      exact hid ▸ h.safe_only F hF hfinal
    · have hcause := (hfree p.rootCause.nodeId).1 p hp q hq (proofCandidate p).rootCause (if_pos rfl)
        (proofCandidate q).rootCause (if_pos hsame.symm)
      exact congrArg FindingRootCause.description hcause
    · exact (hfree (rawCauseId f)).2 (fun p hp => if_neg (hnone p hp)) f hf g hg (rawCandidate f).rootCause (if_pos rfl)
        (rawCandidate g).rootCause (if_pos hsame.symm)
  · intro h
    refine ⟨fun F hF hsafe => ?_, runPipeline_free_iff.mpr fun rcId => ⟨?_, fun hnone => ?_⟩⟩
    · obtain ⟨rcId, hsome⟩ := mem_runPipeline.mp hF
      obtain rfl := nodeId_of_consolidate hsome
      obtain ⟨_, -, heq⟩ := Option.map_eq_some_iff.mp hsome
      have hfinal := (congrArg SecurityFinding.resolution heq).trans hsafe
      obtain ⟨hconflict, hvulnerable, a, ha, hasafe⟩ := finalResolution_eq_safe_iff.mp hfinal
      obtain ⟨hamem, haid⟩ := List.mem_filter.mp ha
      have haid := of_decide_eq_true haid
      refine haid ▸ h.safe_alone a hamem hasafe fun d hd hdid => ?_
      have hdin : d ∈ causeGroup F.rootCause.nodeId (candidates proofs raws) :=
        List.mem_filter.mpr ⟨hd, decide_eq_true (hdid.trans haid)⟩
      exact ⟨hconflict d hdin, hvulnerable d hdin⟩
    · refine (agree_ite_iff _ _).mpr fun p hp q hq hpid hqid => ?_
      have hid : p.rootCause.nodeId = q.rootCause.nodeId := hpid.trans hqid.symm
      unfold proofCandidate
      rw [hid, h.proofs_agree p hp q hq hid]
    · refine (agree_ite_iff _ _).mpr fun f hf g hg hfid hgid => ?_
      refine h.raws_agree f hf g hg (hfid.trans hgid.symm) fun p hp heq => ?_
      have hsome : causeIn rcId (proofCandidate p) = some (proofCandidate p).rootCause := if_pos (heq.trans hfid)
      rw [hnone p hp] at hsome
      cases hsome

/-! ## The three engines -/

/-- A run of the three engines does what it promises: each of them does on what it is handed, and no order of nodes, edges
or findings changes the chains, the proofs or what is reported in the end. Kind: D -/
structure RunSound (sha256 : Json Empty → String) (targets : List SecurityProperty) (nodes : List CrossBatchNode)
    (edges : List CrossBatchEdge) (findings : List RawFinding) : Prop where
  correlation : CorrelationSound sha256 nodes edges findings
  proofs : ∀ target ∈ targets, ProofSound sha256 target (constructExploitChains sha256 nodes edges findings) findings
  decision : DecisionSound sha256
    (evaluateProperties sha256 targets (constructExploitChains sha256 nodes edges findings) findings) findings
  free : ∀ nodes' edges' findings', nodes'.Perm nodes → edges'.Perm edges → findings'.Perm findings →
    constructExploitChains sha256 nodes' edges' findings' = constructExploitChains sha256 nodes edges findings ∧
    evaluateProperties sha256 targets (constructExploitChains sha256 nodes' edges' findings') findings' =
      evaluateProperties sha256 targets (constructExploitChains sha256 nodes edges findings) findings ∧
    (runPipeline sha256 (evaluateProperties sha256 targets (constructExploitChains sha256 nodes' edges' findings') findings')
      findings').Perm
      (runPipeline sha256 (evaluateProperties sha256 targets (constructExploitChains sha256 nodes edges findings) findings)
        findings)

/-- A run keeps its promises if each engine does: an order is forgotten at the first one. Kind: L -/
theorem runSound_of_engines {targets : List SecurityProperty} {nodes : List CrossBatchNode} {edges : List CrossBatchEdge}
    {findings : List RawFinding} (hcorrelation : CorrelationSound sha256 nodes edges findings)
    (hproofs : ∀ target ∈ targets, ProofSound sha256 target (constructExploitChains sha256 nodes edges findings) findings)
    (hdecision : DecisionSound sha256
      (evaluateProperties sha256 targets (constructExploitChains sha256 nodes edges findings) findings) findings) :
    RunSound sha256 targets nodes edges findings := by
  refine ⟨hcorrelation, hproofs, hdecision, fun nodes' edges' findings' hn he hf => ?_⟩
  have hchains := hcorrelation.chain_free nodes' edges' findings' hn he hf
  have hsame : evaluateProperties sha256 targets (constructExploitChains sha256 nodes' edges' findings') findings' =
      evaluateProperties sha256 targets (constructExploitChains sha256 nodes edges findings) findings := by
    unfold evaluateProperties
    rw [hchains]
    exact congrArg _ (List.map_congr_left fun target ht => (hproofs target ht).free _ findings' (.refl _) hf)
  refine ⟨hchains, hsame, ?_⟩
  rw [hsame]
  exact hdecision.free _ findings' (.refl _) hf

/-- An unresolved finding is not safe at the end of a run: neither its property nor its root cause is. Kind: P -/
theorem RunSound.open_kept {targets : List SecurityProperty} {nodes : List CrossBatchNode} {edges : List CrossBatchEdge}
    {findings : List RawFinding} (h : RunSound sha256 targets nodes edges findings) {f : RawFinding} (hf : f ∈ findings)
    (hopen : f.resolutionText ≠ "SAFE") :
    (∀ target ∈ targets, f.securityProperty = some target.value →
      (evaluateProperty sha256 target (constructExploitChains sha256 nodes edges findings) findings).resolution ≠ .safe) ∧
    ∀ F ∈ runPipeline sha256
        (evaluateProperties sha256 targets (constructExploitChains sha256 nodes edges findings) findings) findings,
      F.rootCause.nodeId = rawCauseId f → F.resolution ≠ .safe := by
  refine ⟨fun target ht hproperty hsafe => hopen ?_, fun F hF hid hsafe => hopen ?_⟩
  · exact ((h.proofs target ht).safe_only hsafe).1 f (List.mem_filter.mpr ⟨hf, decide_eq_true hproperty⟩)
  · exact (h.decision.safe_only F hF hsafe).2 f hf hid.symm

/-- **Along the three engines an open finding never ends up safe, and no order matters, exactly when the inputs of the first
are consistent, the items of the property are conclusive with one cause, and the candidates are attributed. The first part
is about the engines one by one, on any inputs, the second about a run in which each engine gets what the one before hands
on.**
Source: `correlation/engine.py`, `proof/engine.py`, `decision/engine.py`
Kind: P -/
theorem engines_sound_iff (nodes : List CrossBatchNode) (edges : List CrossBatchEdge) (findings : List RawFinding)
    (target : SecurityProperty) (chains : List ExploitChain) (propertyFindings : List RawFinding)
    (targets : List SecurityProperty) :
    ((CorrelationSound sha256 nodes edges findings ∧ ProofSound sha256 target chains propertyFindings ∧
        DecisionSound sha256 proofs raws) ↔
      Consistent nodes edges findings ∧
        (Conclusive target chains propertyFindings ∧ ∀ c ∈ chains, ∀ d ∈ chains,
          c.securityProperty = target → d.securityProperty = target → causeOf c = causeOf d) ∧
        Attributed proofs raws) ∧
    (RunSound sha256 targets nodes edges findings ↔
      Consistent nodes edges findings ∧
        (∀ target ∈ targets, Conclusive target (constructExploitChains sha256 nodes edges findings) findings) ∧
        Attributed (evaluateProperties sha256 targets (constructExploitChains sha256 nodes edges findings) findings)
          findings) := by
  constructor
  · rw [correlation_sound_iff, proof_sound_iff, decision_sound_iff]
  constructor
  · intro h
    exact ⟨correlation_sound_iff.mp h.correlation, fun target ht => (proof_sound_iff.mp (h.proofs target ht)).1,
      decision_sound_iff.mp h.decision⟩
  · rintro ⟨hconsistent, hconclusive, hattributed⟩
    refine runSound_of_engines (correlation_sound_iff.mpr hconsistent) (fun target ht => ?_) (decision_sound_iff.mpr hattributed)
    -- one chain at most is handed on
    have hone : ∀ c ∈ constructExploitChains sha256 nodes edges findings, c = exploitChain sha256 nodes edges findings := by
      grind [constructExploitChains]
    refine proof_sound_iff.mpr ⟨hconclusive target ht, fun c hc d hd _ _ => ?_⟩
    rw [hone c hc, hone d hd]

end orders

/-- A finding of one property. Kind: D -/
def rootFinding (resolution : String) : RawFinding :=
  { resolution := some resolution, securityProperty := some "ROOT_ACCESS" }

/-- An open finding is overruled by a vulnerable one before it, and by a safe one for the property and for its root cause.
Source: `correlation/engine.py`, `proof/engine.py`, `decision/engine.py`
Kind: P -/
theorem open_finding_overruled :
    ¬CorrelationSound (fun _ => "") [] [] [rootFinding "VULNERABLE", rootFinding "UNKNOWN"] ∧
      ¬ProofSound (fun _ => "") .rootAccess [] [rootFinding "SAFE", rootFinding "UNKNOWN"] ∧
      ¬DecisionSound (fun _ => "") [] [rootFinding "SAFE", rootFinding "UNKNOWN"] := by
  refine ⟨fun h => ?_, fun h => ?_, fun h => ?_⟩
  · have hin : rootFinding "UNKNOWN" ∈ [rootFinding "VULNERABLE", rootFinding "UNKNOWN"] :=
      List.mem_cons_of_mem _ List.mem_cons_self
    have hopen := h.resolution_unknown ⟨_, hin, .inr List.mem_cons_self⟩
    exact absurd hopen (by decide)
  · have hin : rootFinding "UNKNOWN" ∈ matchingFindings .rootAccess [rootFinding "SAFE", rootFinding "UNKNOWN"] :=
      List.mem_filter.mpr ⟨List.mem_cons_of_mem _ List.mem_cons_self, by decide⟩
    have hsafe := (h.safe_only (by decide)).1 _ hin
    exact absurd hsafe (by decide)
  · have hsafe : rawCandidate (rootFinding "SAFE") ∈ candidates [] [rootFinding "SAFE", rootFinding "UNKNOWN"] :=
      List.mem_cons_self
    obtain ⟨F, hF, hid, hres⟩ := exists_finding (fun _ => "") hsafe
    have hin : rootFinding "UNKNOWN" ∈ [rootFinding "SAFE", rootFinding "UNKNOWN"] :=
      List.mem_cons_of_mem _ List.mem_cons_self
    have hother := (h.safe_only F hF (hres.trans (by decide))).2 _ hin (hid ▸ rfl)
    exact absurd hother (by decide)

end KarsaSec.Correlation
