import KarsaSec.Analysis.FindingClusters
import KarsaSec.Found.Regex

/-!
# Regression reports

`RegressionEngine.compare` holds the fingerprints of the current clusters against those of the baseline.

* `deriveClusterFingerprint` is the fingerprint of a cluster, without line numbers.
* `compare` reports which fingerprints are new, which persist and which are resolved; after an invalid analysis nothing
  is resolved.
* `status_compare_eq_fail`: what the status of a report says of the two lists of clusters.
-/

namespace KarsaSec.Analysis

open KarsaSec.Found

/-! ## Fingerprints -/

/-- Source: `regression_fingerprint.py`, `RegressionFingerprint`. Kind: D -/
structure RegressionFingerprint where
  fingerprintId : String
  vulnerabilityClass : String
  sourceKind : String
  sinkCategory : String
  normalizedPath : String
  ruleKey : String
  callContext : String
  clusterId : String
  schemaVersion : String := "1.0"

/-- What the engine takes from its surroundings: the characters that `\d` matches, the two cases of a text, the rule key
of a finding, and the digest of a tag with a document.
Source: `regression_engine.py`, `RegressionEngine`
Kind: D -/
structure RegressionEngine (ε : Type) where
  chars : CharTable
  upper : String → String
  lower : String → String
  ruleKey : ε → String
  sha256 : String → Json Empty → String

variable {ε F : Type}

/-- Source: `os.path.normpath`, the loop over the components. Kind: D -/
def normComponents (absolute : Bool) : List String → List String → List String
  | kept, [] => kept
  | kept, comp :: comps =>
    if comp = "" ∨ comp = "." then normComponents absolute kept comps
    else if comp ≠ ".." ∨ (!absolute ∧ kept = []) ∨ kept.getLast? = some ".." then
      normComponents absolute (kept ++ [comp]) comps
    else normComponents absolute kept.dropLast comps

/-- Two slashes at the beginning, and no third, stay two. Source: `os.path.normpath`. Kind: D -/
def normpath (path : String) : String :=
  let root := if !startsWith "/" path then "" else if startsWith "//" path ∧ !startsWith "///" path then "//" else "/"
  let kept := normComponents (root ≠ "") [] ((path.toList.splitOn '/').map String.ofList)
  let norm := root ++ joinStr "/" kept
  if norm = "" then "." else norm

/-- Source: `remediation_engine.py`, `map_vulnerability_to_sink_category`; the text is in upper case. Kind: D -/
def sinkCategoryOf (v : String) : String :=
  if inStr "SQL" v then "SQL"
  else if inStr "COMMAND" v ∨ inStr "EXEC" v then "COMMAND"
  else if inStr "XSS" v ∨ inStr "HTML" v then "HTML"
  else if inStr "PATH" v ∨ inStr "TRAVERSAL" v ∨ inStr "FILE" v then "PATH"
  else if inStr "CODE" v ∨ inStr "EVAL" v then "CODE"
  else "UNKNOWN"

namespace RegressionEngine

variable (engine : RegressionEngine ε)

/-- Source: `regression_fingerprint.py`, `normalize_path`. Kind: D -/
def normalizePath (path : String) : String :=
  if path = "" then "unknown_file"
  else
    let cleanPath := normSlashes (subAll engine.chars {} ":\\d+(:\\d+)?$" "" path)
    let norm := normSlashes (normpath cleanPath)
    engine.lower (if startsWith "./" norm then String.ofList (norm.toList.drop 2) else norm)

/-- Source: `regression_fingerprint.py`, `compute_regression_fingerprint`. Kind: D -/
def computeRegressionFingerprint (vulnerabilityClass sourceKind sinkCategory normalizedPath ruleKey : String)
    (callContext : String := "") (schemaVersion : String := "1.0") : String :=
  engine.sha256 "E14-FINGERPRINT:" (Json.obj [("schema_version", .str schemaVersion),
    ("vulnerability_class", .str vulnerabilityClass), ("source_kind", .str sourceKind),
    ("sink_category", .str sinkCategory), ("normalized_path", .str (engine.normalizePath normalizedPath)),
    ("rule_key", .str ruleKey), ("call_context", .str callContext)]).sortKeys

/-- Source: `regression_fingerprint.py`, `RegressionFingerprint.create`. Kind: D -/
def createFingerprint (vulnerabilityClass sourceKind sinkCategory filePath ruleKey clusterId : String) :
    RegressionFingerprint where
  fingerprintId := engine.computeRegressionFingerprint vulnerabilityClass sourceKind sinkCategory
    (engine.normalizePath filePath) ruleKey
  vulnerabilityClass := vulnerabilityClass
  sourceKind := sourceKind
  sinkCategory := sinkCategory
  normalizedPath := engine.normalizePath filePath
  ruleKey := ruleKey
  callContext := ""
  clusterId := clusterId

/-- The rule key of the first finding from a source of the cluster, else the class of the cluster.
Source: `regression_engine.py`, `rule_key`
Kind: D -/
def ruleKeyOf (cluster : VulnerabilityCluster F) (findings : List (SecurityFinding ε)) : String :=
  match findings.find? fun f => f.sourceFactId ∈ cluster.sourceFactIds with
  | some f => engine.ruleKey f.rest
  | none => cluster.vulnerabilityClass

/-- Source: `regression_engine.py`, `derive_cluster_fingerprint`. Kind: D -/
def deriveClusterFingerprint (cluster : VulnerabilityCluster F) (findings : List (SecurityFinding ε)) :
    RegressionFingerprint :=
  engine.createFingerprint cluster.vulnerabilityClass (cluster.sourceFactIds.head?.getD "unknown_source")
    (sinkCategoryOf (engine.upper cluster.vulnerabilityClass)) (cluster.sinkNodes.head?.getD "unknown_file")
    (engine.ruleKeyOf cluster findings) cluster.clusterId

end RegressionEngine

/-! ## Stores -/

/-- The records by their identifiers. Source: `security_regression_store.py`, `_by_id`. Kind: D -/
abbrev SecurityRegressionStore := Dict String RegressionFingerprint

namespace SecurityRegressionStore

/-- Source: `security_regression_store.py`, `add`. Kind: D -/
def add (store : SecurityRegressionStore) (fp : RegressionFingerprint) : SecurityRegressionStore :=
  if store.contains fp.fingerprintId then store else store.set fp.fingerprintId fp

/-- Source: `security_regression_store.py`, `__init__`. Kind: D -/
def ofFingerprints (fps : List RegressionFingerprint) : SecurityRegressionStore := fps.foldl add Dict.empty

/-- The identifiers in their order. Source: `regression_engine.py`, `sorted(curr_fp_map.items())`. Kind: D -/
def sortedIds (store : SecurityRegressionStore) : List String := sortBy id store.keys

theorem mem_keys_add {store : SecurityRegressionStore} {fp : RegressionFingerprint} {i : String} :
    i ∈ (store.add fp).keys ↔ i = fp.fingerprintId ∨ i ∈ store.keys := by
  unfold add
  by_cases hin : store.contains fp.fingerprintId = true
  · rw [if_pos hin]
    constructor
    · exact .inr
    · rintro (rfl | hmem)
      · exact Dict.get?_isSome.mp hin
      · exact hmem
  · rw [if_neg hin]
    exact Dict.mem_keys_set

theorem mem_sortedIds_ofFingerprints {fps : List RegressionFingerprint} {i : String} :
    i ∈ (ofFingerprints fps).sortedIds ↔ i ∈ fps.map RegressionFingerprint.fingerprintId := by
  have hfold : ∀ (fps : List RegressionFingerprint) (store : SecurityRegressionStore),
      i ∈ (fps.foldl add store).keys ↔ i ∈ store.keys ∨ i ∈ fps.map RegressionFingerprint.fingerprintId := by
    intro fps
    induction fps with
    | nil => exact fun store => ⟨.inl, fun h => h.elim id (absurd · List.not_mem_nil)⟩
    | cons fp fps ih =>
      intro store
      rw [List.foldl_cons, ih, mem_keys_add, List.map_cons, List.mem_cons]
      tauto
  unfold sortedIds ofFingerprints
  rw [(sortBy_perm _ _).mem_iff, hfold]
  exact ⟨fun h => h.elim (absurd · List.not_mem_nil) id, .inr⟩

end SecurityRegressionStore

/-! ## Reports -/

/-- Source: `regression_report.py`, `RegressionStatus`. Kind: D -/
inductive RegressionStatus
  | notTested
  | pass
  | fail
  | unknown
  deriving DecidableEq

/-- Source: `regression_report.py`, `RegressionStatus`. Kind: D -/
def RegressionStatus.value : RegressionStatus → String
  | notTested => "NOT_TESTED"
  | pass => "PASS"
  | fail => "FAIL"
  | unknown => "UNKNOWN"

/-- Source: `regression_report.py`, `RegressionReport`. Kind: D -/
structure RegressionReport where
  reportId : String
  status : RegressionStatus
  newFingerprints : List String
  persistentFingerprints : List String
  resolvedFingerprints : List String
  changedFingerprints : List String
  unknownFingerprints : List String
  regressionsDetected : Bool
  explanations : List String
  schemaVersion : String := "1.0"

namespace RegressionEngine

variable (engine : RegressionEngine ε)

/-- Source: `regression_report.py`, `compute_regression_report_id`. Kind: D -/
def computeRegressionReportId (new persistent resolved changed unknown : List String) : String :=
  engine.sha256 "E14-REPORT:" (Json.obj [("schema_version", .str "1.0"), ("new", .arr ((sortedSet new).map .str)),
    ("persistent", .arr ((sortedSet persistent).map .str)), ("resolved", .arr ((sortedSet resolved).map .str)),
    ("changed", .arr ((sortedSet changed).map .str)), ("unknown", .arr ((sortedSet unknown).map .str))]).sortKeys

/-- Source: `regression_report.py`, `RegressionReport.create`. Kind: D -/
def createReport (status : RegressionStatus) (new persistent resolved changed unknown explanations : List String) :
    RegressionReport where
  reportId := engine.computeRegressionReportId new persistent resolved changed unknown
  status := status
  newFingerprints := sortedSet new
  persistentFingerprints := sortedSet persistent
  resolvedFingerprints := sortedSet resolved
  changedFingerprints := sortedSet changed
  unknownFingerprints := sortedSet unknown
  regressionsDetected := !new.isEmpty || !changed.isEmpty
  explanations := sortedSet explanations

/-- `fp_id[:8]`. Kind: D -/
def short (fpId : String) : String := String.ofList (fpId.toList.take 8)

/-- The fingerprints of the clusters in their order. Source: `regression_engine.py`, `base_fp_map`, `curr_fp_map`. Kind: D -/
def fingerprintIds (clusters : List (VulnerabilityCluster F)) (findings : List (SecurityFinding ε)) : List String :=
  (SecurityRegressionStore.ofFingerprints (clusters.map (engine.deriveClusterFingerprint · findings))).sortedIds

/-- Nothing is ever counted as changed. Source: `regression_engine.py`, `compare`. Kind: D -/
def compare (baselineClusters currentClusters : List (VulnerabilityCluster F)) (currentAnalysisValid : Bool := true)
    (baselineFindings currentFindings : List (SecurityFinding ε) := []) : RegressionReport :=
  let baseIds := engine.fingerprintIds baselineClusters baselineFindings
  let currIds := engine.fingerprintIds currentClusters currentFindings
  let newFps := currIds.filter (· ∉ baseIds)
  let persistentFps := currIds.filter (· ∈ baseIds)
  let missing := baseIds.filter (· ∉ currIds)
  let resolvedFps := if currentAnalysisValid then missing else []
  let unknownFps := if currentAnalysisValid then [] else missing
  let found :=
    newFps.map (fun i => s!"NEW: Vulnerability fingerprint {short i} detected in current analysis") ++
    persistentFps.map (fun i => s!"PERSISTENT: Vulnerability fingerprint {short i} persists from baseline") ++
    resolvedFps.map (fun i => s!"RESOLVED: Vulnerability fingerprint {short i} confirmed resolved") ++
    unknownFps.map fun i => s!"UNKNOWN: Analysis invalid/incomplete; fingerprint {short i} status uncertain"
  if !currentAnalysisValid ∨ unknownFps ≠ [] then
    engine.createReport .unknown newFps persistentFps resolvedFps [] unknownFps
      (found ++ ["FAIL-CLOSED: Current analysis integrity is invalid or incomplete"])
  else if newFps ≠ [] then
    engine.createReport .fail newFps persistentFps resolvedFps [] unknownFps
      (found ++ ["REGRESSION DETECTED: New or escalated vulnerability fingerprints found"])
  else
    engine.createReport .pass newFps persistentFps resolvedFps [] unknownFps
      (found ++ ["REGRESSION PASS: No new or persistent vulnerabilities detected"])

/-! ## What the status says -/

/-- A current cluster with a fingerprint that no cluster of the baseline has. Kind: D -/
def HasNew (baselineClusters currentClusters : List (VulnerabilityCluster F))
    (baselineFindings currentFindings : List (SecurityFinding ε)) : Prop :=
  ∃ cluster ∈ currentClusters, ∀ base ∈ baselineClusters,
    (engine.deriveClusterFingerprint base baselineFindings).fingerprintId ≠
      (engine.deriveClusterFingerprint cluster currentFindings).fingerprintId

variable {engine} {baselineClusters currentClusters : List (VulnerabilityCluster F)} {currentAnalysisValid : Bool}
  {baselineFindings currentFindings : List (SecurityFinding ε)}

theorem mem_fingerprintIds {clusters : List (VulnerabilityCluster F)} {findings : List (SecurityFinding ε)} {i : String} :
    i ∈ engine.fingerprintIds clusters findings ↔
      ∃ cluster ∈ clusters, (engine.deriveClusterFingerprint cluster findings).fingerprintId = i := by
  unfold fingerprintIds
  rw [SecurityRegressionStore.mem_sortedIds_ofFingerprints, List.map_map, List.mem_map]
  rfl

/-- No fingerprint is new where no cluster has one. Kind: L -/
theorem filter_new_eq_nil_iff :
    (engine.fingerprintIds currentClusters currentFindings).filter
        (· ∉ engine.fingerprintIds baselineClusters baselineFindings) = [] ↔
      ¬engine.HasNew baselineClusters currentClusters baselineFindings currentFindings := by
  rw [List.filter_eq_nil_iff]
  constructor
  · rintro hnone ⟨cluster, hcluster, hbase⟩
    refine hnone _ (mem_fingerprintIds.mpr ⟨cluster, hcluster, rfl⟩) (decide_eq_true ?_)
    intro hmem
    obtain ⟨base, hmem', heq⟩ := mem_fingerprintIds.mp hmem
    exact hbase base hmem' heq
  · intro hnone i hi hnew
    obtain ⟨cluster, hcluster, rfl⟩ := mem_fingerprintIds.mp hi
    refine hnone ⟨cluster, hcluster, fun base hbase heq => ?_⟩
    exact of_decide_eq_true hnew (mem_fingerprintIds.mpr ⟨base, hbase, heq⟩)

theorem status_compare_eq_fail :
    (engine.compare baselineClusters currentClusters currentAnalysisValid baselineFindings currentFindings).status =
      .fail ↔
        currentAnalysisValid = true ∧ engine.HasNew baselineClusters currentClusters baselineFindings currentFindings := by
  unfold compare
  dsimp only
  cases currentAnalysisValid with
  | false =>
    rw [if_pos (.inl rfl)]
    exact iff_of_false (fun h => nomatch h) fun h => nomatch h.1
  | true =>
    rw [if_neg (fun h => h.elim (fun h' => nomatch h') fun h' => h' rfl)]
    by_cases hnone : (engine.fingerprintIds currentClusters currentFindings).filter
        (· ∉ engine.fingerprintIds baselineClusters baselineFindings) = []
    · rw [if_neg (not_not_intro hnone)]
      exact iff_of_false (fun h => nomatch h) fun h => filter_new_eq_nil_iff.mp hnone h.2
    · rw [if_pos hnone]
      exact iff_of_true rfl ⟨rfl, not_not.mp fun h => hnone (filter_new_eq_nil_iff.mpr h)⟩

end RegressionEngine

end KarsaSec.Analysis
