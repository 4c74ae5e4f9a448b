import KarsaSec.Correlation.CrossBatch

/-!
# Proofs of security properties

`SecurityPropertyProofEngine._evaluate_property`: what the chains and findings of one property prove.

* `evidence` is what each chain and finding of the property counts as, `dominant` the resolution of what has been seen.
* `proof_sound_iff`: a safe property has items with a safe resolution only, and no order matters, exactly when `Conclusive`
  holds of the items and the chains name one root cause.
* `evaluateProperties` is what the engine hands on.
-/

namespace KarsaSec.Correlation

open KarsaSec.Found

/-! ## Records -/

/-- Source: `proof/models.py`, `SecurityPropertyResolution`. Kind: D -/
inductive SecurityPropertyResolution
  | vulnerable | safe | unknown | conflict
  deriving DecidableEq

def SecurityPropertyResolution.value : SecurityPropertyResolution → String
  | .vulnerable => "VULNERABLE"
  | .safe => "SAFE"
  | .unknown => "UNKNOWN"
  | .conflict => "CONFLICT"

/-- Source: `proof/models.py`, `ProofConfidence`. Kind: D -/
inductive ProofConfidence
  | high | medium | low | unknown

def ProofConfidence.value : ProofConfidence → String
  | .high => "HIGH"
  | .medium => "MEDIUM"
  | .low => "LOW"
  | .unknown => "UNKNOWN"

/-- Source: `proof/models.py`, `ProofSeverity`. Kind: D -/
inductive ProofSeverity
  | critical | high | medium | low | info | unknown

def ProofSeverity.value : ProofSeverity → String
  | .critical => "CRITICAL"
  | .high => "HIGH"
  | .medium => "MEDIUM"
  | .low => "LOW"
  | .info => "INFO"
  | .unknown => "UNKNOWN"

/-- The steps that a proof of the engine has. Source: `proof/models.py`, `ProofStepType`. Kind: D -/
inductive ProofStepType
  | entry | authorization | controlFailure | impact

/-- Source: `proof/models.py`, `ProofStep`. Kind: D -/
structure ProofStep where
  stepId : String
  stepType : ProofStepType
  sourceBatch : EvidenceSource
  sourceId : String
  description : String
  actorIdentity : String := "anonymous"
  tenantId : String := "tenant_default"
  privilegeLevel : String := "LOW"

/-- Source: `proof/models.py`, `ProofEdge`. Kind: D -/
structure ProofEdge where
  edgeId : String
  sourceStepId : String
  targetStepId : String
  causalProvenance : String

/-- Source: `proof/models.py`, `ProofRootCause`. Kind: D -/
structure ProofRootCause where
  sourceBatch : EvidenceSource
  sourceId : String
  nodeId : String
  rationale : String

/-- Source: `proof/models.py`, `ProofRootCause.to_dict`. Kind: D -/
def ProofRootCause.toDict (c : ProofRootCause) : Json Empty :=
  .obj [("source_batch", .str c.sourceBatch.value), ("source_id", .str c.sourceId), ("node_id", .str c.nodeId),
    ("rationale", .str c.rationale)]

/-- Source: `proof/models.py`, `ProofImpact`. Kind: D -/
structure ProofImpact where
  property : SecurityProperty
  reachableResources : List String
  severity : ProofSeverity

/-- Source: `proof/models.py`, `ProofImpact.to_dict`. Kind: D -/
def ProofImpact.toDict (i : ProofImpact) : Json Empty :=
  .obj [("property", .str i.property.value), ("reachable_resources", .arr (i.reachableResources.map .str)),
    ("severity", .str i.severity.value)]

/-- Source: `proof/models.py`, `ProofEvidence`. Kind: D -/
structure ProofEvidence where
  evidenceId : String
  sourceBatch : EvidenceSource
  evidenceType : String
  verified : Bool := true

/-- Source: `proof/models.py`, `SecurityProof`. Kind: D -/
structure SecurityProof where
  proofId : String
  property : SecurityProperty
  resolution : SecurityPropertyResolution
  severity : ProofSeverity
  confidence : ProofConfidence
  steps : List ProofStep
  edges : List ProofEdge
  rootCause : ProofRootCause
  impact : ProofImpact
  evidenceChain : List ProofEvidence

/-! ## Evidence -/

/-- What a chain or finding counts as. Source: `proof/engine.py`, `has_safe_evidence` and its siblings. Kind: D -/
inductive Evidence
  | conflict | safe | vulnerable | missing
  deriving DecidableEq

/-- Source: `proof/engine.py`, loop over `matching_findings`. Kind: D -/
def findingEvidence (f : RawFinding) : Option Evidence :=
  if f.conflictPresent ∨ f.resolutionText = "CONFLICT" then some .conflict
  else if f.resolutionText = "SAFE" ∨ f.safeControlProven then some .safe
  else if f.resolutionText = "VULNERABLE" then if f.lacksEvidence then some .missing else some .vulnerable
  else if f.resolutionText = "UNKNOWN" then some .missing
  else none

/-- Source: `proof/engine.py`, loop over `matching_chains`. Kind: D -/
def chainEvidence (c : ExploitChain) : Evidence :=
  match c.resolution with
  | .safe => .safe
  | .vulnerable => .vulnerable
  | .unknown => .missing

/-- Source: `proof/engine.py`, `matching_chains`. Kind: D -/
def matchingChains (target : SecurityProperty) (chains : List ExploitChain) : List ExploitChain :=
  chains.filter fun c => c.securityProperty = target

/-- Source: `proof/engine.py`, `matching_findings`. Kind: D -/
def matchingFindings (target : SecurityProperty) (findings : List RawFinding) : List RawFinding :=
  findings.filter fun f => f.securityProperty = some target.value

/-- What the items of a property count as; a finding with another resolution counts as nothing. Kind: D -/
def evidence (target : SecurityProperty) (chains : List ExploitChain) (findings : List RawFinding) :
    List (Option Evidence) :=
  (matchingFindings target findings).map findingEvidence ++
    (matchingChains target chains).map fun c => some (chainEvidence c)

/-- The resolution of what has been seen; what is missing is not asked for.
Source: `proof/engine.py`, "Resolution Logic"; `decision/engine.py`, "Aggregate resolutions"
Kind: D -/
def dominant (conflict vulnerable safe : Bool) : SecurityPropertyResolution :=
  if conflict || (vulnerable && safe) then .conflict
  else if vulnerable then .vulnerable
  else if safe then .safe
  else .unknown

theorem dominant_eq_safe_iff {conflict vulnerable safe : Bool} :
    dominant conflict vulnerable safe = .safe ↔ conflict = false ∧ vulnerable = false ∧ safe = true := by
  cases conflict <;> cases vulnerable <;> cases safe <;> decide

/-- Source: `proof/engine.py`, `resolution`. Kind: D -/
def propertyResolution (target : SecurityProperty) (chains : List ExploitChain) (findings : List RawFinding) :
    SecurityPropertyResolution :=
  let seen := evidence target chains findings
  dominant (some .conflict ∈ seen) (some .vulnerable ∈ seen) (some .safe ∈ seen)

/-! ## The proof -/

/-- Where the proof says that the cause is: batch, source and node. Kind: D -/
def causeOf (c : ExploitChain) : EvidenceSource × String × String :=
  (c.rootCause.sourceBatch, c.rootCause.sourceId, c.rootCause.nodeId)

/-- The cause of the first chain, or one made up of the property.
Source: `proof/engine.py`, `src_batch`, `src_id`, `node_id`
Kind: D -/
def proofCause (target : SecurityProperty) (chains : List ExploitChain) : EvidenceSource × String × String :=
  ((matchingChains target chains).head?.map causeOf).getD (.d4, "PROOF_" ++ target.value, "NODE_" ++ target.value)

/-- Source: `proof/engine.py`, `severity`. Kind: D -/
def proofSeverity (target : SecurityProperty) : SecurityPropertyResolution → ProofSeverity
  | .vulnerable =>
    if target ∈ [.accountTakeover, .rootAccess, .cloudAdmin, .tenantEscape, .codeExecution] then .critical else .high
  | .safe => .info
  | _ => .unknown

/-- Source: `proof/engine.py`, `confidence`. Kind: D -/
def proofConfidence : SecurityPropertyResolution → ProofConfidence
  | .vulnerable => .high
  | .safe => .high
  | _ => .unknown

/-- Source: `proof/engine.py`, `steps`. Kind: D -/
def proofSteps (target : SecurityProperty) (cause : EvidenceSource × String × String) :
    SecurityPropertyResolution → List ProofStep
  | .vulnerable =>
    [{ stepId := "STEP_01", stepType := .entry, sourceBatch := .c13, sourceId := "ENTRY_01"
       description := "Untrusted Entry Point" },
     { stepId := "STEP_02", stepType := .controlFailure, sourceBatch := cause.1, sourceId := cause.2.1
       description := "Security Control Bypass" },
     { stepId := "STEP_03", stepType := .impact, sourceBatch := .d4, sourceId := cause.2.2
       description := "Property Reachable: " ++ target.value }]
  | .safe =>
    [{ stepId := "STEP_01", stepType := .entry, sourceBatch := .c13, sourceId := "ENTRY_01"
       description := "Untrusted Entry Point" },
     { stepId := "STEP_02", stepType := .authorization, sourceBatch := .d1, sourceId := "CONTROL_01"
       description := "Validated Authorization Boundary" }]
  | _ => []

/-- Source: `proof/engine.py`, `edges`. Kind: D -/
def proofEdges : SecurityPropertyResolution → List ProofEdge
  | .vulnerable => [⟨"EDGE_01", "STEP_01", "STEP_02", "CAUSAL_FORWARD"⟩, ⟨"EDGE_02", "STEP_02", "STEP_03", "REACHABILITY"⟩]
  | .safe => [⟨"EDGE_01", "STEP_01", "STEP_02", "CONTROL_BLOCK"⟩]
  | _ => []

/-- The proof of a resolution with a cause. Source: `proof/engine.py`, `_evaluate_property`. Kind: D -/
def proofOf (sha256 : Json Empty → String) (target : SecurityProperty) (resolution : SecurityPropertyResolution)
    (cause : EvidenceSource × String × String) : SecurityProof :=
  let severity := proofSeverity target resolution
  let confidence := proofConfidence resolution
  let rootCause : ProofRootCause := ⟨cause.1, cause.2.1, cause.2.2,
    "Earliest causally necessary root cause for property " ++ target.value⟩
  let impact : ProofImpact := ⟨target, ["resource_" ++ lower target.value], severity⟩
  let payload : Json Empty := .obj [("property", .str target.value), ("resolution", .str resolution.value),
    ("severity", .str severity.value), ("confidence", .str confidence.value), ("root_cause", rootCause.toDict),
    ("impact", impact.toDict)]
  { proofId := "PROOF_" ++ upper (String.ofList ((sha256 payload.sortKeys).toList.take 12))
    property := target
    resolution := resolution
    severity := severity
    confidence := confidence
    steps := proofSteps target cause resolution
    edges := proofEdges resolution
    rootCause := rootCause
    impact := impact
    evidenceChain := [{ evidenceId := "EV_01", sourceBatch := cause.1, evidenceType := "PROVENANCE_VERIFIED" }] }

/-- Source: `proof/engine.py`, `_evaluate_property`. Kind: D -/
def evaluateProperty (sha256 : Json Empty → String) (target : SecurityProperty) (chains : List ExploitChain)
    (findings : List RawFinding) : SecurityProof :=
  proofOf sha256 target (propertyResolution target chains findings) (proofCause target chains)

/-- The proofs of the properties that are asked for, sorted. Source: `proof/engine.py`, `evaluate`. Kind: D -/
def evaluateProperties (sha256 : Json Empty → String) (targets : List SecurityProperty) (chains : List ExploitChain)
    (findings : List RawFinding) : List SecurityProof :=
  sortBy (fun p => toLex (p.property.value, p.proofId)) (targets.map fun target => evaluateProperty sha256 target chains findings)

/-! ## Orders -/

/-- The findings and chains of a property have a safe resolution. Kind: D -/
def ItemsSafe (target : SecurityProperty) (chains : List ExploitChain) (findings : List RawFinding) : Prop :=
  (∀ f ∈ matchingFindings target findings, f.resolutionText = "SAFE") ∧
    ∀ c ∈ matchingChains target chains, c.resolution = .safe

/-- If something counts as safe then every item has a safe resolution, unless something is vulnerable or conflicting.
Kind: D -/
def Conclusive (target : SecurityProperty) (chains : List ExploitChain) (findings : List RawFinding) : Prop :=
  some .safe ∈ evidence target chains findings → some .conflict ∉ evidence target chains findings →
    some .vulnerable ∉ evidence target chains findings → ItemsSafe target chains findings

/-- The proof engine does what it promises for a property: a safe property has items with a safe resolution only, and no
order of chains or findings matters. Kind: D -/
structure ProofSound (sha256 : Json Empty → String) (target : SecurityProperty) (chains : List ExploitChain)
    (findings : List RawFinding) : Prop where
  safe_only : (evaluateProperty sha256 target chains findings).resolution = .safe → ItemsSafe target chains findings
  free : ∀ chains' findings', chains'.Perm chains → findings'.Perm findings →
    evaluateProperty sha256 target chains' findings' = evaluateProperty sha256 target chains findings

section orders

variable {sha256 : Json Empty → String} {target : SecurityProperty} {chains chains' : List ExploitChain}
  {findings findings' : List RawFinding}

theorem propertyResolution_perm (hc : chains'.Perm chains) (hf : findings'.Perm findings) :
    propertyResolution target chains' findings' = propertyResolution target chains findings := by
  have hseen : (evidence target chains' findings').Perm (evidence target chains findings) :=
    ((hf.filter _).map _).append ((hc.filter _).map _)
  unfold propertyResolution
  simp only [hseen.mem_iff]

theorem propertyResolution_eq_safe_iff : propertyResolution target chains findings = .safe ↔
    some .conflict ∉ evidence target chains findings ∧ some .vulnerable ∉ evidence target chains findings ∧
      some .safe ∈ evidence target chains findings := by
  unfold propertyResolution
  rw [dominant_eq_safe_iff, decide_eq_false_iff_not, decide_eq_false_iff_not, decide_eq_true_iff]

theorem proofCause_free_iff : (∀ chains', chains'.Perm chains → proofCause target chains' = proofCause target chains) ↔
    ∀ c ∈ chains, ∀ d ∈ chains, c.securityProperty = target → d.securityProperty = target → causeOf c = causeOf d := by
  rw [← agree_ite_iff, ← orderFree_first_iff (.d4, "PROOF_" ++ target.value, "NODE_" ++ target.value)]
  unfold proofCause matchingChains
  simp only [map_head?_filter]
  rfl

/-- **A safe property has safe items only, and no order matters, exactly when the items are conclusive and the chains name
one cause.**
Source: `proof/engine.py`, `_evaluate_property`
Kind: L -/
theorem proof_sound_iff : ProofSound sha256 target chains findings ↔
    Conclusive target chains findings ∧ ∀ c ∈ chains, ∀ d ∈ chains,
      c.securityProperty = target → d.securityProperty = target → causeOf c = causeOf d := by
  have hresolution : (evaluateProperty sha256 target chains findings).resolution = propertyResolution target chains findings := rfl
  constructor
  · intro h
    refine ⟨fun hsafe hconflict hvulnerable => h.safe_only ?_, proofCause_free_iff.mp fun chains' hp => ?_⟩
    · simp_all [propertyResolution_eq_safe_iff]
    · have hcause := congrArg SecurityProof.rootCause (h.free chains' findings hp (.refl _))
      have hparts := ProofRootCause.mk.inj hcause
      exact Prod.ext hparts.1 (Prod.ext hparts.2.1 hparts.2.2.1)
  · rintro ⟨hconclusive, hcause⟩
    refine ⟨fun hsafe => ?_, fun chains' findings' hc hf => ?_⟩
    · obtain ⟨hconflict, hvulnerable, hsafe⟩ := propertyResolution_eq_safe_iff.mp hsafe
      exact hconclusive hsafe hconflict hvulnerable
    · unfold evaluateProperty
      rw [propertyResolution_perm hc hf, proofCause_free_iff.mpr hcause chains' hc]

end orders

end KarsaSec.Correlation
