import KarsaSec.Correlation.Model
import Mathlib.Data.Finset.Card

/-!
# Correlation

`CrossBatchCorrelationEngine`: the resolution of nodes and findings, and the chain that is reported for them.

* `evaluateResolution` takes the first finding, then the first node, that says anything.
* `constructExploitChains` reports one chain unless the resolution is safe.
* `correlation_sound_iff`: an open finding prevails and no order matters exactly when `Consistent` holds of the inputs.
-/

namespace KarsaSec.Correlation

open KarsaSec.Found

/-! ## The resolution -/

/-- Source: `correlation/engine.py`, `evaluate_resolution`, loop over the findings. Kind: D -/
def findingVerdict (f : RawFinding) : Option CorrelationResolution :=
  if f.resolutionText = "UNKNOWN" then some .unknown
  else if f.resolutionText = "VULNERABLE" then some .vulnerable
  else if f.resolutionText = "CORRELATION_CONFLICT" then some .unknown
  else none

/-- Source: `correlation/engine.py`, `evaluate_resolution`, loop over the nodes. Kind: D -/
def nodeVerdict (n : CrossBatchNode) : Option CorrelationResolution :=
  if n.correlationId = "MISSING_CORRELATION" ∨ n.correlationId = "MISSING_EVIDENCE" ∨ n.correlationId = "UNKNOWN" then
    some .unknown
  else if n.securityProperty ≠ .unknown then some .vulnerable
  else none

/-- Source: `correlation/engine.py`, `evaluate_resolution`. Kind: D -/
def evaluateResolution (nodes : List CrossBatchNode) (findings : List RawFinding) : CorrelationResolution :=
  (firstOf findingVerdict nodeVerdict findings nodes).getD .safe

/-! ## The chain -/

/-- What a node says about the property that is reached. Kind: D -/
def nodeProperty (n : CrossBatchNode) : Option SecurityProperty :=
  if n.securityProperty ≠ .unknown then some n.securityProperty else none

/-- Source: `correlation/engine.py`, `detect_security_property_reachability`. Kind: D -/
def detectSecurityPropertyReachability (nodes : List CrossBatchNode) : SecurityProperty :=
  (nodes.findSome? nodeProperty).getD .unknown

/-- The property that a finding names, if there is one of that name. Source: `correlation/engine.py`, `p_str`. Kind: D -/
def findingProperty (f : RawFinding) : Option SecurityProperty :=
  SecurityProperty.ofText? (f.securityProperty.getD "TENANT_ESCAPE")

/-- The property of the nodes; where they have none, that of the last finding with one.
Source: `correlation/engine.py`, `sec_prop`
Kind: D -/
def chainProperty (nodes : List CrossBatchNode) (findings : List RawFinding) : SecurityProperty :=
  let secProp := detectSecurityPropertyReachability nodes
  if secProp = .unknown then findings.foldl (fun acc f => (findingProperty f).getD acc) secProp else secProp

/-- Source: `correlation/engine.py`, `find_root_cause`. Kind: D -/
def findRootCause (nodes : List CrossBatchNode) : ChainRootCause :=
  match sortBy CrossBatchNode.sortKey nodes with
  | [] => ⟨.c13, "NONE", "NONE", "No evidence nodes available"⟩
  | earliest :: _ =>
    { sourceBatch := earliest.sourceBatch
      sourceId := earliest.sourceId
      nodeId := earliest.nodeId
      rationale := "Earliest causally necessary evidence node in batch " ++ earliest.sourceBatch.value }

/-- Source: `correlation/engine.py`, `classify_chain`. Kind: D -/
def classifyChain (nodes : List CrossBatchNode) : String :=
  let batches := (nodes.map CrossBatchNode.sourceBatch).toFinset
  if .d3 ∈ batches ∧ .d1 ∈ batches then "CROSS_SERVICE_PRIVILEGE_ESCALATION"
  else if .d2 ∈ batches then "TEMPORAL_EXPLOIT_CHAIN"
  else if 1 < batches.card then "COMPOSITE_MULTI_STAGE_CHAIN"
  else "DIRECT_EXPLOIT_CHAIN"

/-- Source: `correlation/engine.py`, `canonicalize_chain`. Kind: D -/
def canonicalizeChain (nodes : List CrossBatchNode) (edges : List CrossBatchEdge) : Json Empty :=
  .obj [("nodes", .arr ((sortBy CrossBatchNode.sortKey nodes).map CrossBatchNode.toDict)),
    ("edges", .arr ((sortBy CrossBatchEdge.sortKey edges).map CrossBatchEdge.toDict))]

/-- The identifier from the digest of a document, `sha256(..).hexdigest()`.
Source: `correlation/engine.py`, `compute_chain_id`
Kind: D -/
def computeChainId (sha256 : Json Empty → String) (canonicalRepr : Json Empty) : String :=
  "CHAIN_" ++ upper (String.ofList ((sha256 canonicalRepr.sortKeys).toList.take 12))

/-- A conflict leaves the resolution open. Source: `correlation/engine.py`, "Case K". Kind: D -/
def chainResolution (nodes : List CrossBatchNode) (findings : List RawFinding) : CorrelationResolution :=
  if ∃ f ∈ findings, f.conflictPresent then .unknown else evaluateResolution nodes findings

/-- Source: `correlation/engine.py`, `severity` of a chain. Kind: D -/
def chainSeverity (res : CorrelationResolution) (secProp : SecurityProperty) : CorrelationSeverity :=
  if res = .unknown then .unknown
  else if secProp ∈ [.accountTakeover, .rootAccess, .tenantEscape, .codeExecution] then .critical
  else .high

/-- Source: `correlation/engine.py`, `chain` of `_construct_exploit_chains`. Kind: D -/
def exploitChain (sha256 : Json Empty → String) (nodes : List CrossBatchNode) (edges : List CrossBatchEdge)
    (findings : List RawFinding) : ExploitChain :=
  let res := chainResolution nodes findings
  let secProp := chainProperty nodes findings
  { chainId := computeChainId sha256 (canonicalizeChain nodes edges)
    resolution := res
    severity := chainSeverity res secProp
    confidence := if res = .vulnerable then .high else .unknown
    chainType := classifyChain nodes
    securityProperty := secProp
    nodes := sortBy CrossBatchNode.sortKey nodes
    edges := sortBy CrossBatchEdge.sortKey edges
    rootCause := findRootCause nodes
    evidenceChain := sortBy id (nodes.map CrossBatchNode.sourceId).dedup }

/-- Source: `correlation/engine.py`, `_construct_exploit_chains`. Kind: D -/
def constructExploitChains (sha256 : Json Empty → String) (nodes : List CrossBatchNode) (edges : List CrossBatchEdge)
    (findings : List RawFinding) : List ExploitChain :=
  if nodes.isEmpty ∧ findings.isEmpty then []
  else if chainResolution nodes findings = .safe then []
  else [exploitChain sha256 nodes edges findings]

/-! ## What findings and nodes say -/

theorem findingVerdict_ne_safe {f : RawFinding} {r : CorrelationResolution} (h : findingVerdict f = some r) : r ≠ .safe := by
  grind [findingVerdict]

theorem nodeVerdict_ne_safe {n : CrossBatchNode} {r : CorrelationResolution} (h : nodeVerdict n = some r) : r ≠ .safe := by
  grind [nodeVerdict]

/-- A finding that is unresolved or conflicting, by its resolution or by its flag. Kind: D -/
def RawFinding.Open (f : RawFinding) : Prop :=
  f.conflictPresent = true ∨ f.resolutionText ∈ ["UNKNOWN", "CORRELATION_CONFLICT", "CONFLICT"]

/-- A finding speaks for an unknown resolution, or none says anything and a node does. Kind: D -/
def Unsettled (nodes : List CrossBatchNode) (findings : List RawFinding) : Prop :=
  (∃ f ∈ findings, findingVerdict f = some .unknown) ∨
    (∀ f ∈ findings, findingVerdict f = none) ∧ ∃ n ∈ nodes, nodeVerdict n = some .unknown

/-- Some finding or node speaks against a safe resolution. Kind: D -/
def Reports (nodes : List CrossBatchNode) (findings : List RawFinding) : Prop :=
  (∃ f ∈ findings, f.conflictPresent = true ∨ (findingVerdict f).isSome) ∨ ∃ n ∈ nodes, (nodeVerdict n).isSome

/-- The resolution is safe only if nothing speaks against it. Source: `correlation/engine.py`, `evaluate_resolution`.
Kind: L -/
theorem evaluateResolution_eq_safe_iff {nodes : List CrossBatchNode} {findings : List RawFinding} :
    evaluateResolution nodes findings = .safe ↔
      (∀ f ∈ findings, findingVerdict f = none) ∧ ∀ n ∈ nodes, nodeVerdict n = none := by
  unfold evaluateResolution firstOf
  rw [← List.findSome?_eq_none_iff, ← List.findSome?_eq_none_iff]
  rcases hf : findings.findSome? findingVerdict with _ | r
  · rcases hn : nodes.findSome? nodeVerdict with _ | r
    · exact ⟨fun _ => ⟨rfl, rfl⟩, fun _ => rfl⟩
    · obtain ⟨n, -, hr⟩ := List.exists_of_findSome?_eq_some hn
      exact ⟨fun h => absurd h (nodeVerdict_ne_safe hr), fun h => absurd h.2 (Option.some_ne_none r)⟩
  · obtain ⟨f, -, hr⟩ := List.exists_of_findSome?_eq_some hf
    exact ⟨fun h => absurd h (findingVerdict_ne_safe hr), fun h => absurd h.1 (Option.some_ne_none r)⟩

theorem chainResolution_ne_safe_iff {nodes : List CrossBatchNode} {findings : List RawFinding} :
    chainResolution nodes findings ≠ .safe ↔ Reports nodes findings := by
  unfold chainResolution Reports
  split_ifs with hconflict
  · grind
  · have hnone : ∀ f ∈ findings, f.conflictPresent ≠ true := fun f hf hc => hconflict ⟨f, hf, hc⟩
    rw [ne_eq, evaluateResolution_eq_safe_iff, not_and_or]
    push Not
    simp only [Option.isSome_iff_ne_none]
    exact or_congr_left ⟨fun ⟨f, hf, h⟩ => ⟨f, hf, .inr h⟩,
      fun ⟨f, hf, h⟩ => ⟨f, hf, h.resolve_left (hnone f hf)⟩⟩

/-- The property that is reported. Source: `correlation/engine.py`, `sec_prop`. Kind: L -/
theorem chainProperty_eq (nodes : List CrossBatchNode) (findings : List RawFinding) :
    chainProperty nodes findings = (firstOf nodeProperty findingProperty nodes findings.reverse).getD .unknown := by
  unfold chainProperty detectSecurityPropertyReachability firstOf
  dsimp only
  rcases hn : nodes.findSome? nodeProperty with _ | p
  · rw [Option.getD_none, if_pos rfl, foldl_getD, Option.none_or]
  · obtain ⟨n, -, hp⟩ := List.exists_of_findSome?_eq_some hn
    have hknown : p ≠ .unknown := by grind [nodeProperty]
    rw [Option.getD_some, if_neg hknown, Option.some_or, Option.getD_some]

/-! ## Orders -/

/-- The correlation does what it promises on an input: an open finding leaves the resolution open, also in the chain that
is reported, and no order of nodes, edges or findings matters. Kind: D -/
structure CorrelationSound (sha256 : Json Empty → String) (nodes : List CrossBatchNode) (edges : List CrossBatchEdge)
    (findings : List RawFinding) : Prop where
  resolution_unknown : (∃ f ∈ findings, f.Open) → evaluateResolution nodes findings = .unknown
  chain_unknown : (∃ f ∈ findings, f.Open) → ∃ chain,
    constructExploitChains sha256 nodes edges findings = [chain] ∧ chain.resolution = .unknown
  resolution_free : ∀ nodes' findings', nodes'.Perm nodes → findings'.Perm findings →
    evaluateResolution nodes' findings' = evaluateResolution nodes findings
  chain_free : ∀ nodes' edges' findings', nodes'.Perm nodes → edges'.Perm edges → findings'.Perm findings →
    constructExploitChains sha256 nodes' edges' findings' = constructExploitChains sha256 nodes edges findings

/-- Findings that say anything say the same, and nodes where no finding does; where a finding is open, this is that the
resolution is unknown; where a chain is reported, nodes and edges with one key are the same, and properties agree in the
same way. Kind: D -/
structure Consistent (nodes : List CrossBatchNode) (edges : List CrossBatchEdge) (findings : List RawFinding) : Prop where
  findings_agree : Agree findingVerdict findings
  nodes_agree : (∀ f ∈ findings, findingVerdict f = none) → Agree nodeVerdict nodes
  open_unsettled : (∃ f ∈ findings, f.Open) → Unsettled nodes findings
  nodes_distinct : Reports nodes findings →
    ∀ m ∈ nodes, ∀ n ∈ nodes, m.sourceBatch = n.sourceBatch ∧ m.nodeId = n.nodeId → m = n
  edges_distinct : Reports nodes findings → ∀ d ∈ edges, ∀ e ∈ edges,
    d.sourceNodeId = e.sourceNodeId ∧ d.targetNodeId = e.targetNodeId ∧ d.relation = e.relation → d = e
  properties_agree : Reports nodes findings →
    Agree nodeProperty nodes ∧ ((∀ n ∈ nodes, nodeProperty n = none) → Agree findingProperty findings)

section orders

variable {sha256 : Json Empty → String} {nodes nodes' : List CrossBatchNode} {edges edges' : List CrossBatchEdge}
  {findings findings' : List RawFinding}

theorem Reports.perm (h : Reports nodes findings) (hn : nodes'.Perm nodes) (hf : findings'.Perm findings) :
    Reports nodes' findings' := by
  unfold Reports
  simp only [hn.mem_iff, hf.mem_iff]
  exact h

theorem constructExploitChains_of_reports (h : Reports nodes findings) :
    constructExploitChains sha256 nodes edges findings = [exploitChain sha256 nodes edges findings] := by
  unfold constructExploitChains
  rw [if_neg, if_neg (chainResolution_ne_safe_iff.mpr h)]
  rintro ⟨hnodes, hfindings⟩
  rw [List.isEmpty_iff] at hnodes hfindings
  subst hnodes hfindings
  rcases h with ⟨_, hf, _⟩ | ⟨_, hn, _⟩
  · exact absurd hf List.not_mem_nil
  · exact absurd hn List.not_mem_nil

theorem constructExploitChains_of_not_reports (h : ¬Reports nodes findings) :
    constructExploitChains sha256 nodes edges findings = [] := by
  have hsafe : chainResolution nodes findings = .safe := by
    by_contra hne
    exact h (chainResolution_ne_safe_iff.mp hne)
  unfold constructExploitChains
  split_ifs
  · rfl
  · rfl

theorem evaluateResolution_free_iff : (∀ nodes' findings', nodes'.Perm nodes → findings'.Perm findings →
      evaluateResolution nodes' findings' = evaluateResolution nodes findings) ↔
    Agree findingVerdict findings ∧ ((∀ f ∈ findings, findingVerdict f = none) → Agree nodeVerdict nodes) := by
  rw [← firstOf_getD_free_iff (l := findings) (m := nodes) CorrelationResolution.safe]
  exact ⟨fun h l' m' hl hm => h m' l' hm hl, fun h m' l' hm hl => h l' m' hl hm⟩

theorem chainProperty_free_iff : (∀ nodes' findings', nodes'.Perm nodes → findings'.Perm findings →
      chainProperty nodes' findings' = chainProperty nodes findings) ↔
    Agree nodeProperty nodes ∧ ((∀ n ∈ nodes, nodeProperty n = none) → Agree findingProperty findings) := by
  rw [← agree_perm findings.reverse_perm, ← firstOf_getD_free_iff SecurityProperty.unknown]
  simp only [chainProperty_eq]
  constructor
  · intro h l' m' hl hm
    have hback := h l' m'.reverse hl ((m'.reverse_perm.trans hm).trans findings.reverse_perm)
    rwa [List.reverse_reverse] at hback
  · simp_all

/-- Where what is said agrees, the resolution is unknown if that is said. Kind: L -/
theorem evaluateResolution_eq_unknown_iff (hfindings : Agree findingVerdict findings)
    (hnodes : (∀ f ∈ findings, findingVerdict f = none) → Agree nodeVerdict nodes) :
    evaluateResolution nodes findings = .unknown ↔ Unsettled nodes findings := by
  unfold evaluateResolution Unsettled firstOf
  constructor
  · intro h
    rcases hf : findings.findSome? findingVerdict with _ | r
    · rw [hf, Option.none_or] at h
      rcases hn : nodes.findSome? nodeVerdict with _ | r
      · rw [hn] at h
        cases h
      · rw [hn] at h
        obtain rfl : r = .unknown := h
        exact .inr ⟨List.findSome?_eq_none_iff.mp hf, List.exists_of_findSome?_eq_some hn⟩
    · rw [hf, Option.some_or] at h
      obtain rfl : r = .unknown := h
      exact .inl (List.exists_of_findSome?_eq_some hf)
  · rintro (⟨f, hf, hr⟩ | ⟨hnone, n, hn, hr⟩)
    · rw [hfindings.findSome?_eq hf hr, Option.some_or, Option.getD_some]
    · rw [List.findSome?_eq_none_iff.mpr hnone, Option.none_or, (hnodes hnone).findSome?_eq hn hr, Option.getD_some]

theorem chainResolution_perm (h : Consistent nodes edges findings) (hn : nodes'.Perm nodes)
    (hf : findings'.Perm findings) : chainResolution nodes' findings' = chainResolution nodes findings := by
  unfold chainResolution
  simp only [hf.mem_iff]
  rw [evaluateResolution_free_iff.mpr ⟨h.findings_agree, h.nodes_agree⟩ nodes' findings' hn hf]

/-- Where a chain is reported, it is the same in every order. Kind: L -/
theorem exploitChain_perm (h : Consistent nodes edges findings) (hreports : Reports nodes findings)
    (hn : nodes'.Perm nodes) (he : edges'.Perm edges) (hf : findings'.Perm findings) :
    exploitChain sha256 nodes' edges' findings' = exploitChain sha256 nodes edges findings := by
  have hnodes : sortBy CrossBatchNode.sortKey nodes' = sortBy CrossBatchNode.sortKey nodes :=
    orderFree_sortBy_iff.mpr (fun m hm n hn hkey =>
      h.nodes_distinct hreports m hm n hn (CrossBatchNode.sortKey_eq_iff.mp hkey)) nodes' hn
  have hedges : sortBy CrossBatchEdge.sortKey edges' = sortBy CrossBatchEdge.sortKey edges :=
    orderFree_sortBy_iff.mpr (fun d hd e he hkey =>
      h.edges_distinct hreports d hd e he (CrossBatchEdge.sortKey_eq_iff.mp hkey)) edges' he
  have hprop := chainProperty_free_iff.mpr (h.properties_agree hreports) nodes' findings' hn hf
  have hbatches : (nodes'.map CrossBatchNode.sourceBatch).toFinset = (nodes.map CrossBatchNode.sourceBatch).toFinset :=
    List.toFinset_eq_of_perm _ _ (hn.map _)
  have hsources : sortBy id (nodes'.map CrossBatchNode.sourceId).dedup = sortBy id (nodes.map CrossBatchNode.sourceId).dedup :=
    sortBy_dedup_congr Function.injective_id fun _ => (hn.map _).mem_iff
  unfold exploitChain canonicalizeChain classifyChain findRootCause
  rw [chainResolution_perm h hn hf, hprop, hnodes, hedges, hbatches, hsources]

/-- **An open finding prevails and no order matters exactly when the inputs are consistent.**
Source: `correlation/engine.py`, `evaluate_resolution`, `_construct_exploit_chains`
Kind: L -/
theorem correlation_sound_iff : CorrelationSound sha256 nodes edges findings ↔ Consistent nodes edges findings := by
  constructor
  · intro h
    obtain ⟨hfindings, hnodes⟩ := evaluateResolution_free_iff.mp h.resolution_free
    -- a chain that is reported is reported in every order
    have hchain : Reports nodes findings → ∀ nodes' edges' findings', nodes'.Perm nodes → edges'.Perm edges →
        findings'.Perm findings → exploitChain sha256 nodes' edges' findings' = exploitChain sha256 nodes edges findings := by
      intro hreports nodes' edges' findings' hn he hf
      have hfree := h.chain_free nodes' edges' findings' hn he hf
      rw [constructExploitChains_of_reports hreports, constructExploitChains_of_reports (hreports.perm hn hf)] at hfree
      exact List.singleton_inj.mp hfree
    refine ⟨hfindings, hnodes, fun hopen => (evaluateResolution_eq_unknown_iff hfindings hnodes).mp (h.resolution_unknown hopen),
      fun hreports => ?_, fun hreports => ?_, fun hreports => ?_⟩
    · intro m hm n hn hsame
      refine orderFree_sortBy_iff.mp (fun nodes' hp => ?_) m hm n hn (CrossBatchNode.sortKey_eq_iff.mpr hsame)
      exact congrArg ExploitChain.nodes (hchain hreports nodes' edges findings hp (.refl _) (.refl _))
    · intro d hd e he hsame
      refine orderFree_sortBy_iff.mp (fun edges' hp => ?_) d hd e he (CrossBatchEdge.sortKey_eq_iff.mpr hsame)
      exact congrArg ExploitChain.edges (hchain hreports nodes edges' findings (.refl _) hp (.refl _))
    · refine chainProperty_free_iff.mp fun nodes' findings' hn hf => ?_
      exact congrArg ExploitChain.securityProperty (hchain hreports nodes' edges findings' hn (.refl _) hf)
  · intro h
    have hunknown : (∃ f ∈ findings, f.Open) → evaluateResolution nodes findings = .unknown := fun hopen =>
      (evaluateResolution_eq_unknown_iff h.findings_agree h.nodes_agree).mpr (h.open_unsettled hopen)
    refine ⟨hunknown, fun hopen => ?_, evaluateResolution_free_iff.mpr ⟨h.findings_agree, h.nodes_agree⟩, ?_⟩
    · have hres : chainResolution nodes findings = .unknown := by
        unfold chainResolution
        split_ifs
        · rfl
        · exact hunknown hopen
      have hreports : Reports nodes findings := chainResolution_ne_safe_iff.mp (hres ▸ CorrelationResolution.noConfusion)
      exact ⟨_, constructExploitChains_of_reports hreports, hres⟩
    · grind [Reports, constructExploitChains_of_reports, exploitChain_perm, constructExploitChains_of_not_reports]

end orders

end KarsaSec.Correlation
