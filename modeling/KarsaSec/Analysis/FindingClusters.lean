import KarsaSec.Found.Json
import KarsaSec.Found.UnionFind
import Mathlib.Data.List.Dedup
import Mathlib.Data.Prod.Lex
import Mathlib.Data.String.Basic

/-!
# Clusters of findings

`FindingCorrelator.correlate` brings findings together that the evidence connects.

* `evidenceCompatible` compares two findings; it is symmetric (`evidenceCompatible_comm`).
* Only the pairs in one group of an index are compared: `mem_candidatePairs` says that no compatible pair is missed.
* `correlate_isClustering`: the clusters are the classes of the smallest equivalence relation with the compatible
  pairs. Each finding is in one of them, and none mixes vulnerability classes.
* The order of the findings plays no part (`correlate_perm`).
-/

namespace KarsaSec.Analysis

open KarsaSec.Found Relation

/-- A finding; `rest` is what only calibration reads. Source: `security_finding.py`, `SecurityFinding`. Kind: D -/
structure SecurityFinding (ε : Type) where
  findingId : String
  vulnerabilityClass : String
  sourceFactId : String
  sinkFactId : String
  flowId : String
  sourceNodeId : String
  sinkNodeId : String
  flowEvidence : List (String × String)
  rest : ε

/-- Source: `vulnerability_cluster.py`, `ClusterStatus`. Kind: D -/
inductive ClusterStatus
  | confirmed
  | candidate
  | blocked
  | unknown
  deriving DecidableEq

/-- Source: `confidence_calibrator.py`, `CalibrationResult`. Kind: D -/
structure CalibrationResult (F : Type) where
  calibratedConfidence : F
  status : ClusterStatus
  severity : String

/-- Source: `vulnerability_cluster.py`, `VulnerabilityCluster`. Kind: D -/
structure VulnerabilityCluster (F : Type) where
  clusterId : String
  vulnerabilityClass : String
  findingIds : List String
  sourceFactIds : List String
  sinkFactIds : List String
  flowIds : List String
  sourceNodes : List String
  sinkNodes : List String
  sharedContexts : List (List String)
  confidence : F
  severity : String
  status : ClusterStatus
  evidenceCount : ℕ
  schemaVersion : String := "1.0"

/-- A correlator with its calibrator, the bounding and rounding of floats, `str.upper`, and the digest of a document.
Source: `finding_correlator.py`, `FindingCorrelator`
Kind: D -/
structure FindingCorrelator (ε F : Type) where
  calibrate : List (SecurityFinding ε) → CalibrationResult F
  /-- `max(0.0, min(1.0, round(confidence, 4)))` -/
  clamp : F → F
  upper : String → String
  sha256 : Json Empty → String

variable {ε F : Type}

/-! ## Compatibility -/

/-- Source: `finding_correlator.py`, `dict(flow_evidence).get("call_context")`. Kind: D -/
def SecurityFinding.callContext (f : SecurityFinding ε) : Option String :=
  (Dict.ofList f.flowEvidence).get? "call_context"

/-- Source: `finding_correlator.py`, `evidence_compatible`. Kind: D -/
def evidenceCompatible (a b : SecurityFinding ε) : Bool :=
  if a.vulnerabilityClass ≠ b.vulnerabilityClass then false
  else if a.flowId = b.flowId ∧ a.flowId ≠ "missing_flow" then true
  else if a.sourceFactId = b.sourceFactId ∧ a.sinkFactId = b.sinkFactId ∧ a.sourceFactId ≠ "missing_source" then true
  else if a.sourceNodeId = b.sourceNodeId ∧ a.sinkNodeId = b.sinkNodeId ∧ a.sourceNodeId ≠ "missing_node" then true
  else a.sourceFactId = b.sourceFactId ∧ a.vulnerabilityClass = b.vulnerabilityClass ∧ a.callContext ≠ none ∧
    a.callContext = b.callContext

/-- The evidence of two findings of one class is the same in one of four ways. Kind: L -/
theorem evidenceCompatible_iff {a b : SecurityFinding ε} : evidenceCompatible a b = true ↔
    a.vulnerabilityClass = b.vulnerabilityClass ∧
      (a.flowId = b.flowId ∧ a.flowId ≠ "missing_flow" ∨
        a.sourceFactId = b.sourceFactId ∧ a.sinkFactId = b.sinkFactId ∧ a.sourceFactId ≠ "missing_source" ∨
        a.sourceNodeId = b.sourceNodeId ∧ a.sinkNodeId = b.sinkNodeId ∧ a.sourceNodeId ≠ "missing_node" ∨
        a.sourceFactId = b.sourceFactId ∧ a.callContext ≠ none ∧ a.callContext = b.callContext) := by
  unfold evidenceCompatible
  by_cases hclass : a.vulnerabilityClass = b.vulnerabilityClass
  · rw [if_neg (not_not_intro hclass)]
    by_cases hflow : a.flowId = b.flowId ∧ a.flowId ≠ "missing_flow"
    · simp_all
    rw [if_neg hflow]
    by_cases hfacts : a.sourceFactId = b.sourceFactId ∧ a.sinkFactId = b.sinkFactId ∧ a.sourceFactId ≠ "missing_source"
    · simp_all
    rw [if_neg hfacts]
    by_cases hnodes : a.sourceNodeId = b.sourceNodeId ∧ a.sinkNodeId = b.sinkNodeId ∧ a.sourceNodeId ≠ "missing_node"
    · grind
    rw [if_neg hnodes, decide_eq_true_eq]
    simp only [hclass, hflow, hfacts, hnodes, true_and, false_or]
  · simp_all

theorem evidenceCompatible_comm {a b : SecurityFinding ε} (h : evidenceCompatible a b = true) :
    evidenceCompatible b a = true := by
  obtain ⟨hclass, hevidence⟩ := evidenceCompatible_iff.mp h
  refine evidenceCompatible_iff.mpr ⟨hclass.symm, ?_⟩
  rcases hevidence with ⟨heq, hne⟩ | ⟨hsource, hsink, hne⟩ | ⟨hsource, hsink, hne⟩ | ⟨hsource, hne, heq⟩
  · exact .inl ⟨heq.symm, heq ▸ hne⟩
  · simp_all
  · simp_all
  · simp_all

/-! ## Candidates -/

/-- `tuple(sorted((i, j)))`. Kind: D -/
def sortedPair (i j : String) : String × String := (min i j, max i j)

/-- The pairs of one group. Source: `finding_correlator.py`, "Generate Candidate Pairs". Kind: D -/
def pairsOf : List (SecurityFinding ε) → List (String × String)
  | [] => []
  | f :: group => group.map (fun g => sortedPair f.findingId g.findingId) ++ pairsOf group

/-- The groups of the four indexes. Source: `finding_correlator.py`, "Build Candidate Indexes". Kind: D -/
def indexGroups (sortedFindings : List (SecurityFinding ε)) : List (List (SecurityFinding ε)) :=
  (Dict.groupBy SecurityFinding.sourceFactId sortedFindings).values ++
    (Dict.groupBy SecurityFinding.sinkFactId sortedFindings).values ++
    (Dict.groupBy SecurityFinding.flowId sortedFindings).values ++
    (Dict.groupBy (fun f => (f.sourceNodeId, f.sinkNodeId)) sortedFindings).values

/-- Source: `finding_correlator.py`, `candidate_pairs`. Kind: D -/
def candidatePairs (sortedFindings : List (SecurityFinding ε)) : List (String × String) :=
  ((indexGroups sortedFindings).flatMap pairsOf).dedup

theorem mem_pairsOf {a b : SecurityFinding ε} : {group : List (SecurityFinding ε)} → a ∈ group → b ∈ group →
    a.findingId ≠ b.findingId → sortedPair a.findingId b.findingId ∈ pairsOf group
  | f :: group, ha, hb, hne => by
    rw [pairsOf, List.mem_append]
    rcases List.mem_cons.mp ha with rfl | ha'
    · grind
    · rcases List.mem_cons.mp hb with rfl | hb'
      · grind [sortedPair]
      · exact .inr (mem_pairsOf ha' hb' hne)

/-- Findings with one key are in one group. Kind: L -/
theorem exists_group {κ : Type} [DecidableEq κ] (key : SecurityFinding ε → κ) {findings : List (SecurityFinding ε)}
    {a b : SecurityFinding ε} (ha : a ∈ findings) (hb : b ∈ findings) (h : key a = key b) :
    ∃ group ∈ (Dict.groupBy key findings).values, a ∈ group ∧ b ∈ group := by
  refine ⟨findings.filter fun f => key f = key a, ?_, ?_, ?_⟩
  · rw [Dict.mem_values]
    exact ⟨key a, Dict.mem_entries.mp (Dict.mem_entries_groupBy.mpr ⟨⟨a, ha, rfl⟩, rfl⟩)⟩
  · exact List.mem_filter.mpr ⟨ha, decide_eq_true rfl⟩
  · exact List.mem_filter.mpr ⟨hb, decide_eq_true h.symm⟩

/-- The indexes miss no compatible pair. Kind: P -/
theorem mem_candidatePairs {findings : List (SecurityFinding ε)} {a b : SecurityFinding ε} (ha : a ∈ findings)
    (hb : b ∈ findings) (hne : a.findingId ≠ b.findingId) (h : evidenceCompatible a b = true) :
    sortedPair a.findingId b.findingId ∈ candidatePairs findings := by
  have hgroup : ∃ group ∈ indexGroups findings, a ∈ group ∧ b ∈ group := by
    unfold indexGroups
    simp only [List.mem_append]
    rcases (evidenceCompatible_iff.mp h).2 with ⟨heq, _⟩ | ⟨heq, _⟩ | ⟨hsource, hsink, _⟩ | ⟨heq, _⟩
    · obtain ⟨group, hmem, hin⟩ := exists_group SecurityFinding.flowId ha hb heq
      exact ⟨group, .inl (.inr hmem), hin⟩
    · obtain ⟨group, hmem, hin⟩ := exists_group SecurityFinding.sourceFactId ha hb heq
      exact ⟨group, .inl (.inl (.inl hmem)), hin⟩
    · obtain ⟨group, hmem, hin⟩ := exists_group (fun f => (f.sourceNodeId, f.sinkNodeId)) ha hb (Prod.ext hsource hsink)
      exact ⟨group, .inr hmem, hin⟩
    · obtain ⟨group, hmem, hin⟩ := exists_group SecurityFinding.sourceFactId ha hb heq
      exact ⟨group, .inl (.inl (.inl hmem)), hin⟩
  obtain ⟨group, hmem, hina, hinb⟩ := hgroup
  exact List.mem_dedup.mpr (List.mem_flatMap.mpr ⟨group, hmem, mem_pairsOf hina hinb hne⟩)

/-! ## Clusters -/

/-- `sorted(set(texts))`. Kind: D -/
def sortedSet (texts : List String) : List String := sortBy id texts.dedup

theorem mem_sortedSet {l : List String} {i : String} : i ∈ sortedSet l ↔ i ∈ l := by
  rw [sortedSet, (sortBy_perm _ _).mem_iff, List.mem_dedup]

theorem pairwise_sortedSet (l : List String) : (sortedSet l).Pairwise (· < ·) := by
  have hnodup : (sortedSet l).Nodup := (sortBy_perm _ _).nodup_iff.mpr (List.nodup_dedup l)
  exact (pairwise_sortBy id l.dedup).imp₂ (fun _ _ => lt_of_le_of_ne) hnodup

/-- Source: `vulnerability_cluster.py`, `compute_cluster_id`, `payload`. Kind: D -/
def clusterPayload (vulnerabilityClass : String) (sourceFactIds sinkFactIds flowIds : List String) : Json Empty :=
  .obj [("schema", .str "E13"), ("schema_version", .str "1.0"), ("vulnerability_class", .str vulnerabilityClass),
    ("source_fact_ids", .arr ((sortedSet sourceFactIds).map .str)),
    ("sink_fact_ids", .arr ((sortedSet sinkFactIds).map .str)), ("flow_ids", .arr ((sortedSet flowIds).map .str))]

/-- The identifier is the digest of `E13:` and the payload. Source: `vulnerability_cluster.py`, `create`. Kind: D -/
def FindingCorrelator.create (correlator : FindingCorrelator ε F) (vulnerabilityClass : String)
    (findingIds : List String) (findings : List (SecurityFinding ε)) (result : CalibrationResult F) :
    VulnerabilityCluster F where
  clusterId := correlator.sha256 (clusterPayload vulnerabilityClass
    (sortedSet (findings.map SecurityFinding.sourceFactId)) (sortedSet (findings.map SecurityFinding.sinkFactId))
    (sortedSet (findings.map SecurityFinding.flowId))).sortKeys
  vulnerabilityClass := vulnerabilityClass
  findingIds := sortedSet findingIds
  sourceFactIds := sortedSet (findings.map SecurityFinding.sourceFactId)
  sinkFactIds := sortedSet (findings.map SecurityFinding.sinkFactId)
  flowIds := sortedSet (findings.map SecurityFinding.flowId)
  sourceNodes := sortedSet (findings.map SecurityFinding.sourceNodeId)
  sinkNodes := sortedSet (findings.map SecurityFinding.sinkNodeId)
  sharedContexts := []
  confidence := correlator.clamp result.calibratedConfidence
  severity := correlator.upper result.severity
  status := result.status
  evidenceCount := findings.length

/-- Source: `finding_correlator.py`, `finding_map`. Kind: D -/
def findingMap (sortedFindings : List (SecurityFinding ε)) : Dict String (SecurityFinding ε) :=
  Dict.ofList (sortedFindings.map fun f => (f.findingId, f))

/-- `evidence_compatible(finding_map[i], finding_map[j])`; candidates are always in the map. Kind: D -/
def compatiblePair (byId : Dict String (SecurityFinding ε)) (pair : String × String) : Bool :=
  match byId.get? pair.1, byId.get? pair.2 with
  | some a, some b => evidenceCompatible a b
  | _, _ => false

/-- Source: `finding_correlator.py`, "Union-Find Component Merging". Kind: D -/
def merged (sortedFindings : List (SecurityFinding ε)) : UnionFind String :=
  (sortBy toLex (candidatePairs sortedFindings)).foldl
    (fun uf pair => if compatiblePair (findingMap sortedFindings) pair then uf.union pair.1 pair.2 else uf)
    (.ofElements (sortedFindings.map SecurityFinding.findingId))

/-- Source: `finding_correlator.py`, "Build VulnerabilityCluster for each component". Kind: D -/
def FindingCorrelator.cluster (correlator : FindingCorrelator ε F) (byId : Dict String (SecurityFinding ε))
    (componentIds : List String) : VulnerabilityCluster F :=
  let findings := componentIds.filterMap byId.get?
  -- a component is never empty
  let vulnerabilityClass := ((findings.head?).map SecurityFinding.vulnerabilityClass).getD ""
  correlator.create vulnerabilityClass componentIds findings (correlator.calibrate findings)

/-- Source: `finding_correlator.py`, `correlate`. Kind: D -/
def FindingCorrelator.correlate (correlator : FindingCorrelator ε F) (findings : List (SecurityFinding ε)) :
    List (VulnerabilityCluster F) :=
  if findings.isEmpty then []
  else
    let sortedFindings := sortBy SecurityFinding.findingId findings
    sortBy VulnerabilityCluster.clusterId
      ((merged sortedFindings).components.map (correlator.cluster (findingMap sortedFindings)))

/-! ## What the clusters are -/

/-- Two of the findings are compatible. Kind: D -/
def Linked (findings : List (SecurityFinding ε)) (a b : SecurityFinding ε) : Prop :=
  a ∈ findings ∧ b ∈ findings ∧ evidenceCompatible a b = true

/-- The clusters are the classes of the smallest equivalence relation with the compatible pairs, each finding in one of
them, and no cluster mixes vulnerability classes. Kind: D -/
structure IsClustering (findings : List (SecurityFinding ε)) (clusters : List (VulnerabilityCluster F)) : Prop where
  once : (clusters.flatMap VulnerabilityCluster.findingIds).Perm (findings.map SecurityFinding.findingId)
  isClass : ∀ cluster ∈ clusters, ∃ a ∈ findings, ∀ b ∈ findings,
    b.findingId ∈ cluster.findingIds ↔ EqvGen (Linked findings) a b
  shared_iff : ∀ a ∈ findings, ∀ b ∈ findings,
    (∃ cluster ∈ clusters, a.findingId ∈ cluster.findingIds ∧ b.findingId ∈ cluster.findingIds) ↔
      ReflTransGen (Linked findings) a b
  unmixed : ∀ cluster ∈ clusters, ∀ f ∈ findings, f.findingId ∈ cluster.findingIds →
    f.vulnerabilityClass = cluster.vulnerabilityClass

variable {findings : List (SecurityFinding ε)} {a b : SecurityFinding ε}

/-- A chain of compatible findings is all that the equivalence adds. Kind: L -/
theorem eqvGen_linked_iff : EqvGen (Linked findings) a b ↔ ReflTransGen (Linked findings) a b := by
  have hback : ∀ {a b}, ReflTransGen (Linked findings) a b → ReflTransGen (Linked findings) b a := by
    intro a b h
    induction h with
    | refl => exact .refl
    | tail _ hlast ih => exact .head ⟨hlast.2.1, hlast.1, evidenceCompatible_comm hlast.2.2⟩ ih
  constructor
  · intro h
    induction h with
    | rel _ _ h => exact .single h
    | refl _ => exact .refl
    | symm _ _ _ ih => exact hback ih
    | trans _ _ _ _ _ ih ih' => exact ih.trans ih'
  · intro h
    induction h with
    | refl => exact .refl _
    | tail _ hlast ih => exact ih.trans _ _ _ (.rel _ _ hlast)

theorem vulnerabilityClass_eq (h : EqvGen (Linked findings) a b) : a.vulnerabilityClass = b.vulnerabilityClass := by
  induction h with
  | rel _ _ h => exact (evidenceCompatible_iff.mp h.2.2).1
  | refl _ => rfl
  | symm _ _ _ ih => exact ih.symm
  | trans _ _ _ _ _ ih ih' => exact ih.trans ih'

section sorted

variable {sortedFindings : List (SecurityFinding ε)}

theorem get?_findingMap (h : (sortedFindings.map SecurityFinding.findingId).Nodup) {i : String} :
    (findingMap sortedFindings).get? i = some a ↔ a ∈ sortedFindings ∧ a.findingId = i := by
  have hnodup : ((sortedFindings.map fun f => (f.findingId, f)).map Prod.fst).Nodup := by
    rw [List.map_map]
    exact h
  rw [← Dict.mem_entries]
  unfold findingMap
  rw [Dict.entries_ofList hnodup, List.mem_map]
  constructor
  · rintro ⟨f, hf, heq⟩
    cases heq
    exact ⟨hf, rfl⟩
  · rintro ⟨hmem, rfl⟩
    exact ⟨a, hmem, rfl⟩

theorem compatiblePair_iff (h : (sortedFindings.map SecurityFinding.findingId).Nodup) {pair : String × String} :
    compatiblePair (findingMap sortedFindings) pair = true ↔ ∃ a b, Linked sortedFindings a b ∧
      pair = (a.findingId, b.findingId) := by
  unfold compatiblePair
  constructor
  · intro hpair
    rcases ha : (findingMap sortedFindings).get? pair.1 with _ | a
    · rw [ha] at hpair
      cases hpair
    rcases hb : (findingMap sortedFindings).get? pair.2 with _ | b
    · rw [ha, hb] at hpair
      cases hpair
    rw [ha, hb] at hpair
    obtain ⟨hmema, hida⟩ := (get?_findingMap h).mp ha
    obtain ⟨hmemb, hidb⟩ := (get?_findingMap h).mp hb
    exact ⟨a, b, ⟨hmema, hmemb, hpair⟩, Prod.ext hida.symm hidb.symm⟩
  · rintro ⟨a, b, ⟨hmema, hmemb, hcompatible⟩, rfl⟩
    rw [(get?_findingMap h).mpr ⟨hmema, rfl⟩, (get?_findingMap h).mpr ⟨hmemb, rfl⟩]
    exact hcompatible

/-- The pairs that are brought together. Kind: D -/
def joinedPairs (sortedFindings : List (SecurityFinding ε)) : List (String × String) :=
  (sortBy toLex (candidatePairs sortedFindings)).filter (compatiblePair (findingMap sortedFindings))

theorem merged_eq_unions (sortedFindings : List (SecurityFinding ε)) : merged sortedFindings =
    (UnionFind.ofElements (sortedFindings.map SecurityFinding.findingId)).unions (joinedPairs sortedFindings) := by
  have hfold : ∀ (pairs : List (String × String)) (uf : UnionFind String),
      pairs.foldl (fun uf pair => if compatiblePair (findingMap sortedFindings) pair then uf.union pair.1 pair.2 else uf) uf =
        uf.unions (pairs.filter (compatiblePair (findingMap sortedFindings))) := by
    intro pairs
    induction pairs with
    | nil => exact fun _ => rfl
    | cons pair pairs ih =>
      intro uf
      by_cases hpair : compatiblePair (findingMap sortedFindings) pair = true
      · rw [List.foldl_cons, if_pos hpair, List.filter_cons_of_pos hpair, ih]
        rfl
      · simp_all
  exact hfold _ _

/-- The identifiers of the findings that are joined with one. Kind: D -/
def componentOf (sortedFindings : List (SecurityFinding ε)) (a : SecurityFinding ε) : List String :=
  (merged sortedFindings).setOf a.findingId

variable (h : (sortedFindings.map SecurityFinding.findingId).Nodup)

include h

theorem mem_joinedPairs {i j : String} : (i, j) ∈ joinedPairs sortedFindings → ∃ a b, Linked sortedFindings a b ∧
    a.findingId = i ∧ b.findingId = j := by
  intro hpair
  obtain ⟨a, b, hlinked, heq⟩ := (compatiblePair_iff h).mp (List.mem_filter.mp hpair).2
  exact ⟨a, b, hlinked, (congrArg Prod.fst heq).symm, (congrArg Prod.snd heq).symm⟩

theorem injective_findingId (ha : a ∈ sortedFindings) (hb : b ∈ sortedFindings) (heq : a.findingId = b.findingId) :
    a = b := List.inj_on_of_nodup_map h ha hb heq

/-- A compatible pair is joined, in one order or the other. Kind: L -/
theorem eqvGen_joinedPairs_of_linked (hlinked : Linked sortedFindings a b) :
    EqvGen (fun i j => (i, j) ∈ joinedPairs sortedFindings) a.findingId b.findingId := by
  obtain ⟨ha, hb, hcompatible⟩ := hlinked
  by_cases hne : a.findingId = b.findingId
  · rw [hne]
    exact .refl _
  have hcandidate : sortedPair a.findingId b.findingId ∈ sortBy toLex (candidatePairs sortedFindings) :=
    (sortBy_perm _ _).mem_iff.mpr (mem_candidatePairs ha hb hne hcompatible)
  rcases le_total a.findingId b.findingId with hle | hle
  · rw [sortedPair, min_eq_left hle, max_eq_right hle] at hcandidate
    refine .rel _ _ (List.mem_filter.mpr ⟨hcandidate, (compatiblePair_iff h).mpr ?_⟩)
    exact ⟨a, b, ⟨ha, hb, hcompatible⟩, rfl⟩
  · rw [sortedPair, min_eq_right hle, max_eq_left hle] at hcandidate
    refine .symm _ _ (.rel _ _ (List.mem_filter.mpr ⟨hcandidate, (compatiblePair_iff h).mpr ?_⟩))
    exact ⟨b, a, ⟨hb, ha, evidenceCompatible_comm hcompatible⟩, rfl⟩

/-- Findings are brought together exactly when compatible pairs join them. Kind: P -/
theorem same_merged_iff (ha : a ∈ sortedFindings) (hb : b ∈ sortedFindings) :
    (merged sortedFindings).Same a.findingId b.findingId ↔ EqvGen (Linked sortedFindings) a b := by
  rw [merged_eq_unions, UnionFind.same_unions_iff]
  constructor
  · intro hpairs
    have hids : ∀ i j, EqvGen (fun i j => (i, j) ∈ joinedPairs sortedFindings) i j → i = j ∨
        ∃ a b, EqvGen (Linked sortedFindings) a b ∧ a ∈ sortedFindings ∧ b ∈ sortedFindings ∧ a.findingId = i ∧
          b.findingId = j := by
      intro i j hij
      induction hij with
      | rel i j hpair =>
        obtain ⟨a, b, hlinked, hi, hj⟩ := mem_joinedPairs h hpair
        exact .inr ⟨a, b, .rel _ _ hlinked, hlinked.1, hlinked.2.1, hi, hj⟩
      | refl i => exact .inl rfl
      | symm i j _ ih =>
        rcases ih with heq | ⟨a, b, hab, hina, hinb, hi, hj⟩
        · exact .inl heq.symm
        · exact .inr ⟨b, a, hab.symm, hinb, hina, hj, hi⟩
      | trans i j k _ _ ih ih' =>
        rcases ih with rfl | ⟨a, b, hab, hina, hinb, hi, hj⟩
        · exact ih'
        · rcases ih' with rfl | ⟨b', c, hbc, hinb', hinc, hj', hk⟩
          · exact .inr ⟨a, b, hab, hina, hinb, hi, hj⟩
          · have heq := injective_findingId h hinb hinb' (hj.trans hj'.symm)
            subst heq
            exact .inr ⟨a, c, hab.trans _ _ _ hbc, hina, hinc, hi, hk⟩
    rcases hids _ _ hpairs with heq | ⟨a', b', hab, hina, hinb, hi, hj⟩
    · rw [injective_findingId h ha hb heq]
      exact .refl _
    · grind [injective_findingId]
  · intro hab
    clear ha hb
    induction hab with
    | rel _ _ hlinked => exact eqvGen_joinedPairs_of_linked h hlinked
    | refl _ => exact .refl _
    | symm _ _ _ ih => exact ih.symm
    | trans _ _ _ _ _ ih ih' => exact ih.trans _ _ _ ih'

theorem keys_merged : (merged sortedFindings).parent.keys = sortedFindings.map SecurityFinding.findingId := by
  rw [merged_eq_unions, (UnionFind.covers_ofElements _).unions, UnionFind.keys_ofElements h]
  intro pair hpair
  rw [UnionFind.keys_ofElements h]
  obtain ⟨a, b, hlinked, rfl⟩ := (compatiblePair_iff h).mp (List.mem_filter.mp hpair).2
  exact ⟨List.mem_map_of_mem hlinked.1, List.mem_map_of_mem hlinked.2.1⟩

/-- The components are those of the findings. Kind: L -/
theorem mem_components_iff {group : List String} : group ∈ (merged sortedFindings).components ↔ ∃ a ∈ sortedFindings,
    group = componentOf sortedFindings a := by
  rw [UnionFind.mem_components, keys_merged h]
  constructor
  · rintro ⟨i, hi, rfl⟩
    obtain ⟨a, ha, rfl⟩ := List.mem_map.mp hi
    exact ⟨a, ha, rfl⟩
  · rintro ⟨a, ha, rfl⟩
    exact ⟨a.findingId, List.mem_map_of_mem ha, rfl⟩

theorem mem_componentOf (ha : a ∈ sortedFindings) (hb : b ∈ sortedFindings) :
    b.findingId ∈ componentOf sortedFindings a ↔ EqvGen (Linked sortedFindings) a b := by
  unfold componentOf
  rw [UnionFind.mem_setOf, keys_merged h]
  constructor
  · rintro ⟨_, hsame⟩
    exact ((same_merged_iff h hb ha).mp hsame).symm
  · exact fun hab => ⟨List.mem_map_of_mem hb, (same_merged_iff h hb ha).mpr hab.symm⟩

/-- A component has each of its findings once. Kind: L -/
theorem nodup_component {group : List String} (hgroup : group ∈ (merged sortedFindings).components) : group.Nodup := by
  obtain ⟨a, _, rfl⟩ := (mem_components_iff h).mp hgroup
  exact (merged sortedFindings).nodup_setOf a.findingId

end sorted

theorem findingIds_cluster_perm (correlator : FindingCorrelator ε F) (byId : Dict String (SecurityFinding ε))
    {group : List String} (h : group.Nodup) : (correlator.cluster byId group).findingIds.Perm group := by
  show (sortBy id group.dedup).Perm group
  rw [h.dedup]
  exact sortBy_perm id group

/-- The class of a cluster is that of one of its findings. Kind: L -/
theorem exists_vulnerabilityClass (correlator : FindingCorrelator ε F) {sortedFindings : List (SecurityFinding ε)}
    (h : (sortedFindings.map SecurityFinding.findingId).Nodup) {group : List String}
    (ha : a ∈ sortedFindings) (hgroup : a.findingId ∈ group) : ∃ b ∈ sortedFindings, b.findingId ∈ group ∧
      (correlator.cluster (findingMap sortedFindings) group).vulnerabilityClass = b.vulnerabilityClass := by
  have hmem : a ∈ group.filterMap (findingMap sortedFindings).get? :=
    List.mem_filterMap.mpr ⟨a.findingId, hgroup, (get?_findingMap h).mpr ⟨ha, rfl⟩⟩
  rcases hfindings : group.filterMap (findingMap sortedFindings).get? with _ | ⟨b, rest⟩
  · rw [hfindings] at hmem
    cases hmem
  · have hb : b ∈ group.filterMap (findingMap sortedFindings).get? := by
      rw [hfindings]
      exact List.mem_cons_self
    obtain ⟨i, hi, hget⟩ := List.mem_filterMap.mp hb
    obtain ⟨hmemb, rfl⟩ := (get?_findingMap h).mp hget
    refine ⟨b, hmemb, hi, ?_⟩
    show (((group.filterMap (findingMap sortedFindings).get?).head?).map SecurityFinding.vulnerabilityClass).getD "" = _
    rw [hfindings]
    rfl

theorem linked_perm {l l' : List (SecurityFinding ε)} (hp : l.Perm l') : Linked l = Linked l' := by
  funext a b
  unfold Linked
  rw [hp.mem_iff, hp.mem_iff]

/-- A cluster is that of the findings that are joined with one of them. Kind: L -/
theorem exists_of_mem_correlate (correlator : FindingCorrelator ε F) {findings : List (SecurityFinding ε)}
    (hnodup : (findings.map SecurityFinding.findingId).Nodup) {cluster : VulnerabilityCluster F}
    (hmem : cluster ∈ correlator.correlate findings) : ∃ a ∈ findings,
      (∀ b ∈ findings, b.findingId ∈ cluster.findingIds ↔ EqvGen (Linked findings) a b) ∧
        a.vulnerabilityClass = cluster.vulnerabilityClass := by
  have hperm : (sortBy SecurityFinding.findingId findings).Perm findings := sortBy_perm _ _
  have h := (hperm.map SecurityFinding.findingId).nodup_iff.mpr hnodup
  unfold FindingCorrelator.correlate at hmem
  split at hmem
  · cases hmem
  obtain ⟨group, hgroup, rfl⟩ := List.mem_map.mp ((sortBy_perm _ _).mem_iff.mp hmem)
  have hids := findingIds_cluster_perm correlator (findingMap (sortBy SecurityFinding.findingId findings))
    (nodup_component h hgroup)
  obtain ⟨a, ha, rfl⟩ := (mem_components_iff h).mp hgroup
  refine ⟨a, hperm.mem_iff.mp ha, fun b hb => ?_, ?_⟩
  · rw [hids.mem_iff, mem_componentOf h ha (hperm.mem_iff.mpr hb), linked_perm hperm]
  · obtain ⟨b, hb, hbgroup, heq⟩ := exists_vulnerabilityClass correlator h ha
      ((mem_componentOf h ha ha).mpr (.refl a))
    rw [heq]
    exact vulnerabilityClass_eq ((mem_componentOf h ha hb).mp hbgroup)

/-- Every finding has a cluster. Kind: L -/
theorem exists_cluster (correlator : FindingCorrelator ε F) {findings : List (SecurityFinding ε)}
    (hnodup : (findings.map SecurityFinding.findingId).Nodup) (ha : a ∈ findings) :
    ∃ cluster ∈ correlator.correlate findings, a.findingId ∈ cluster.findingIds := by
  have hperm : (sortBy SecurityFinding.findingId findings).Perm findings := sortBy_perm _ _
  have h := (hperm.map SecurityFinding.findingId).nodup_iff.mpr hnodup
  have hin := hperm.mem_iff.mpr ha
  have hgroup := (mem_components_iff h).mpr ⟨a, hin, rfl⟩
  unfold FindingCorrelator.correlate
  rw [if_neg fun hempty => List.ne_nil_of_mem ha (List.isEmpty_iff.mp hempty)]
  refine ⟨_, (sortBy_perm _ _).mem_iff.mpr (List.mem_map_of_mem hgroup), ?_⟩
  rw [(findingIds_cluster_perm correlator _ (nodup_component h hgroup)).mem_iff]
  exact (mem_componentOf h hin hin).mpr (.refl a)

/-- Every finding stands in the clusters, and once. Kind: L -/
theorem findingIds_correlate_perm (correlator : FindingCorrelator ε F) {findings : List (SecurityFinding ε)}
    (hnodup : (findings.map SecurityFinding.findingId).Nodup) :
    ((correlator.correlate findings).flatMap VulnerabilityCluster.findingIds).Perm
      (findings.map SecurityFinding.findingId) := by
  have hperm : (sortBy SecurityFinding.findingId findings).Perm findings := sortBy_perm _ _
  have h := (hperm.map SecurityFinding.findingId).nodup_iff.mpr hnodup
  unfold FindingCorrelator.correlate
  split
  · simp_all
  · refine ((sortBy_perm _ _).flatMap_right _).trans ?_
    rw [List.flatMap_map]
    refine (List.Perm.flatMap_left _ fun group hgroup =>
      findingIds_cluster_perm correlator _ (nodup_component h hgroup)).trans ?_
    rw [List.flatMap_id']
    refine (UnionFind.flatten_components_perm _).trans ?_
    rw [keys_merged h]
    exact hperm.map _

/-- For findings with different identifiers the clusters are the classes that the compatible pairs make. Kind: P -/
theorem isClustering_correlate (correlator : FindingCorrelator ε F) {findings : List (SecurityFinding ε)}
    (hnodup : (findings.map SecurityFinding.findingId).Nodup) : IsClustering findings (correlator.correlate findings) where
  once := findingIds_correlate_perm correlator hnodup
  isClass cluster hcluster := by
    obtain ⟨a, ha, hclass, _⟩ := exists_of_mem_correlate correlator hnodup hcluster
    exact ⟨a, ha, hclass⟩
  shared_iff a ha b hb := by
    rw [← eqvGen_linked_iff]
    constructor
    · rintro ⟨cluster, hcluster, hina, hinb⟩
      obtain ⟨c, _, hclass, _⟩ := exists_of_mem_correlate correlator hnodup hcluster
      exact ((hclass a ha).mp hina).symm.trans _ _ _ ((hclass b hb).mp hinb)
    · intro hab
      obtain ⟨cluster, hcluster, hina⟩ := exists_cluster correlator hnodup ha
      obtain ⟨c, _, hclass, _⟩ := exists_of_mem_correlate correlator hnodup hcluster
      exact ⟨cluster, hcluster, hina, (hclass b hb).mpr (((hclass a ha).mp hina).trans _ _ _ hab)⟩
  unmixed cluster hcluster f hf hin := by
    obtain ⟨a, _, hclass, heq⟩ := exists_of_mem_correlate correlator hnodup hcluster
    exact (vulnerabilityClass_eq ((hclass f hf).mp hin)).symm.trans heq

/-- The order of the findings plays no part. Kind: P -/
theorem correlate_perm (correlator : FindingCorrelator ε F) {findings findings' : List (SecurityFinding ε)}
    (hnodup : (findings.map SecurityFinding.findingId).Nodup) (hp : findings'.Perm findings) :
    correlator.correlate findings' = correlator.correlate findings := by
  have hperm : (sortBy SecurityFinding.findingId findings).Perm findings := sortBy_perm _ _
  have h := (hperm.map SecurityFinding.findingId).nodup_iff.mpr hnodup
  have hincreasing : (sortBy SecurityFinding.findingId findings).Pairwise fun a b => a.findingId < b.findingId := by
    refine ((pairwise_sortBy SecurityFinding.findingId findings).and (List.pairwise_map.mp h)).imp ?_
    exact fun hboth => lt_of_le_of_ne hboth.1 hboth.2
  have hsorted : sortBy SecurityFinding.findingId findings = sortBy SecurityFinding.findingId findings' :=
    eq_of_perm_of_increasing hincreasing (pairwise_sortBy _ _) (hperm.trans (hp.symm.trans (sortBy_perm _ _).symm))
  have hempty : findings'.isEmpty = findings.isEmpty := by
    rw [Bool.eq_iff_iff, List.isEmpty_iff, List.isEmpty_iff, ← List.length_eq_zero_iff, ← List.length_eq_zero_iff,
      hp.length_eq]
  unfold FindingCorrelator.correlate
  rw [hempty, hsorted]

/-- Correlating findings with different identifiers gives the classes of the smallest equivalence relation with the
compatible pairs, for every order of the findings alike, and the indexes miss no compatible pair. Kind: P -/
theorem correlate_isClustering (correlator : FindingCorrelator ε F) (findings : List (SecurityFinding ε))
    (hnodup : (findings.map SecurityFinding.findingId).Nodup) :
    IsClustering findings (correlator.correlate findings) ∧
      (∀ findings', findings'.Perm findings → correlator.correlate findings' = correlator.correlate findings) ∧
      ∀ a ∈ findings, ∀ b ∈ findings, a ≠ b → evidenceCompatible a b = true →
        sortedPair a.findingId b.findingId ∈ candidatePairs (sortBy SecurityFinding.findingId findings) := by
  refine ⟨isClustering_correlate correlator hnodup, fun _ hp => correlate_perm correlator hnodup hp, ?_⟩
  intro a ha b hb hne hcompatible
  refine mem_candidatePairs ((sortBy_perm _ _).mem_iff.mpr ha) ((sortBy_perm _ _).mem_iff.mpr hb) ?_ hcompatible
  exact fun heq => hne (List.inj_on_of_nodup_map hnodup ha hb heq)

/-- A finding of a test. Kind: D -/
def sampleFinding (findingId flowId : String) : SecurityFinding Unit where
  findingId := findingId
  vulnerabilityClass := "SQL_INJECTION"
  sourceFactId := "missing_source"
  sinkFactId := "sink"
  flowId := flowId
  sourceNodeId := "missing_node"
  sinkNodeId := "node"
  flowEvidence := []
  rest := ()

/-- Kind: D -/
def sampleCorrelator : FindingCorrelator Unit Unit where
  calibrate _ := ⟨(), .candidate, "high"⟩
  clamp := id
  upper := id
  sha256 _ := "digest"

theorem correlate_isClustering_sample :
    IsClustering [sampleFinding "f1" "flow", sampleFinding "f2" "flow"]
      (sampleCorrelator.correlate [sampleFinding "f1" "flow", sampleFinding "f2" "flow"]) :=
  (correlate_isClustering sampleCorrelator [sampleFinding "f1" "flow", sampleFinding "f2" "flow"] (by decide)).1

end KarsaSec.Analysis
