import KarsaSec.Analysis.RegressionReport
import Mathlib.Data.Rat.Defs
import Mathlib.Algebra.Order.Ring.Rat

/-!
# The security gate

`SecurityGate.evaluate` decides on a release from objects of which it reads attributes by name, each with a default.

* `verdict` is the cascade of rules; `evaluate` makes the decision and the result of the gate from it.
* `status_verdict_eq_allow`: the gate passes exactly where no rule of the cascade objects.
* The rule on regressions reads the attribute `change`. A `RegressionReport` has no such attribute, and the default
  raises no objection: `evaluate_compare_safe_iff` says when a release with a regression is held back all the same.
-/

namespace KarsaSec.Analysis

open KarsaSec.Found

/-! ## Numbers -/

/-- A float; the finite ones stand for their exact values. Kind: D -/
inductive Number
  | finite (x : ℚ)
  | infinite (negative : Bool)
  | nan
  deriving DecidableEq

namespace Number

/-- `a < b`. Kind: D -/
def lt : Number → Number → Bool
  | finite x, finite y => x < y
  | infinite true, finite _ => true
  | infinite true, infinite false => true
  | finite _, infinite false => true
  | _, _ => false

/-- Source: `e15_models.py`, `_is_valid_bounded_float`. Kind: D -/
def isValidBounded : Number → Bool
  | finite x => 0 ≤ x ∧ x ≤ 1
  | _ => false

end Number

/-! ## Attributes -/

/-- The value of an attribute; an enum member has a `value` and is shown in its own way. Kind: D -/
inductive Attribute
  | text (s : String)
  | member (value shown : String)
  | texts (items : List String)
  | flag (b : Bool)
  deriving DecidableEq

/-- How the language writes what the gate reads: the upper case of a character outside ASCII, a tuple of texts, and a
float; and the digest of a tag with a document. Kind: D -/
structure Writing where
  upperOf : Char → List Char
  showTexts : List String → String
  showNumber : Number → String
  sha256 : String → Json Empty → String

namespace Writing

variable (w : Writing)

/-- `s.upper()`. Kind: D -/
def upper (s : String) : String :=
  String.ofList (s.toList.flatMap fun c => if c.toNat < 128 then [c.toUpper] else w.upperOf c)

/-- A text that is in upper case already stays. Kind: L -/
theorem upper_eq {s : String} (h : (s.toList.all fun c => c.toNat < 128 ∧ c.toUpper = c) = true) : w.upper s = s := by
  have hflat : ∀ l : List Char, (∀ c ∈ l, c.toNat < 128 ∧ c.toUpper = c) →
      l.flatMap (fun c => if c.toNat < 128 then [c.toUpper] else w.upperOf c) = l := by
    intro l hl
    induction l with
    | nil => rfl
    | cons c l ih =>
      obtain ⟨hascii, hupper⟩ := hl c List.mem_cons_self
      rw [List.flatMap_cons, if_pos hascii, hupper, ih fun d hd => hl d (List.mem_cons_of_mem c hd)]
      rfl
  unfold upper
  rw [hflat _ fun c hc => of_decide_eq_true (List.all_eq_true.mp h c hc), String.ofList_toList]

/-- `str(x)`. Kind: D -/
def shown : Attribute → String
  | .text s => s
  | .member _ shown => shown
  | .texts items => w.showTexts items
  | .flag b => if b then "True" else "False"

/-- `str(getattr(x, "value", x)).upper()`. Kind: D -/
def status : Attribute → String
  | .member value _ => w.upper value
  | x => w.upper (w.shown x)

end Writing

/-- An object by its attributes. Kind: D -/
abbrev Attributes := Dict String Attribute

/-- `getattr(obj, name, default)`. Kind: D -/
def Attributes.getattr (obj : Attributes) (name default : String) : Attribute :=
  (obj.get? name).getD (.text default)

/-- The attributes of a report. Source: `regression_report.py`, `RegressionReport`. Kind: D -/
def RegressionReport.attributes (report : RegressionReport) : Attributes :=
  Dict.ofList [("report_id", .text report.reportId),
    ("status", .member report.status.value report.status.value),
    ("new_fingerprints", .texts report.newFingerprints),
    ("persistent_fingerprints", .texts report.persistentFingerprints),
    ("resolved_fingerprints", .texts report.resolvedFingerprints),
    ("changed_fingerprints", .texts report.changedFingerprints),
    ("unknown_fingerprints", .texts report.unknownFingerprints),
    ("regressions_detected", .flag report.regressionsDetected),
    ("explanations", .texts report.explanations),
    ("schema_version", .text report.schemaVersion)]

/-- What the gate reads of a priority. Source: `e15_security_gate.py`, `evaluate`, `priority`. Kind: D -/
structure Priority where
  priorityStatus : Option Attribute := none
  status : Option Attribute := none
  confidence : Option Number := none
  priorityId : Option String := none

/-- What the gate reads of a plan. Source: `e15_security_gate.py`, `evaluate`, `remediation_plan`. Kind: D -/
structure Plan where
  status : Option Attribute := none
  planId : Option String := none

/-- What validation reads of a finding. Source: `e15_evidence_validator.py`, `validate`, `findings`. Kind: D -/
structure FindingFacts where
  vulnerabilityClass : Option String := none
  sinkCategory : Option String := none
  hasSource : Bool := false
  hasSink : Bool := false
  confidence : Option Number := none

/-- What the gate reads of a cluster. Source: `e15_security_gate.py`, `evaluate`, `cluster`. Kind: D -/
structure ClusterFacts where
  status : Option Attribute := none
  findings : List FindingFacts := []

/-! ## Models -/

/-- Source: `e15_models.py`, `DecisionStatus`. Kind: D -/
inductive DecisionStatus
  | allow
  | block
  | review
  | unknown
  deriving DecidableEq

/-- Source: `e15_models.py`, `DecisionStatus`. Kind: D -/
def DecisionStatus.value : DecisionStatus → String
  | allow => "ALLOW"
  | block => "BLOCK"
  | review => "REVIEW"
  | unknown => "UNKNOWN"

/-- Source: `e15_models.py`, `EvidenceValidation`, `__post_init__`. Kind: D -/
structure EvidenceValidation where
  evidenceValid : Bool
  completeness : Number
  contradictions : ℕ
  missingDimensions : List String
  validationReason : String
  complete : evidenceValid = true → completeness.isValidBounded = true

/-- Source: `e15_models.py`, `ExploitabilityAssessment`, `__post_init__`. Kind: D -/
structure ExploitabilityAssessment where
  exploitabilityScore : Number
  attackSurface : Number
  controllability : Number
  reachability : Number
  privilegeRequirement : Number
  exploitChainComplete : Bool
  assessmentValid : Bool
  rationale : String
  bounded : assessmentValid = true →
    ∀ m ∈ [exploitabilityScore, attackSurface, controllability, reachability, privilegeRequirement],
      m.isValidBounded = true

/-- Source: `e15_models.py`, `SecurityPolicy`. Kind: D -/
structure SecurityPolicy where
  policyId : String
  policyVersion : String
  minimumConfidence : Number
  blockUnknown : Bool

/-- Source: `e15_models.py`, `SecurityPolicy.is_valid`. Kind: D -/
def SecurityPolicy.isValid (policy : SecurityPolicy) : Bool :=
  policy.policyId ≠ "" ∧ policy.policyVersion ≠ "" ∧ policy.minimumConfidence.isValidBounded

/-- Source: `e15_models.py`, `SecurityDecision`. Kind: D -/
structure SecurityDecision where
  decisionId : String
  priorityId : String
  remediationPlanId : String
  fingerprintId : String
  decision : DecisionStatus
  confidence : Number
  rationale : String
  policyVersion : String
  evidenceValid : Bool
  exploitabilityValid : Bool
  regressionStatus : String
  createdFromSchemaVersion : String := "1.0.0"

/-- Source: `e15_models.py`, `SecurityGateResult`. Kind: D -/
structure SecurityGateResult where
  gateId : String
  decisionId : String
  passed : Bool
  blocked : Bool
  requiresReview : Bool
  unknown : Bool
  failedRules : List String
  evaluatedRules : List String
  policyVersion : String

/-! ## Evidence -/

/-- `EvidenceValidation(…)`, where an incomplete one is not valid. Source: `e15_models.py`, `__post_init__`. Kind: D -/
def EvidenceValidation.make (evidenceValid : Bool) (completeness : Number) (contradictions : ℕ)
    (missingDimensions : List String) (validationReason : String) : EvidenceValidation where
  evidenceValid := evidenceValid && completeness.isValidBounded
  completeness := completeness
  contradictions := contradictions
  missingDimensions := missingDimensions
  validationReason := validationReason
  complete h := (Bool.and_eq_true_iff.mp h).2

/-- The texts that are there and not empty, each once. Kind: D -/
def distinctTexts (texts : List (Option String)) : List String := ((texts.filterMap id).filter (· ≠ "")).dedup

/-- Source: `e15_evidence_validator.py`, `validate`, `missing`. Kind: D -/
def ClusterFacts.missing (w : Writing) (cluster : ClusterFacts) : List String :=
  (if w.upper ((cluster.status.map w.shown).getD "UNKNOWN") = "UNKNOWN" then ["cluster_status_known"] else []) ++
    (if cluster.findings = [] then ["findings"] else []) ++
    (if cluster.findings.any FindingFacts.hasSource then [] else ["source_fact"]) ++
    if cluster.findings.any FindingFacts.hasSink then [] else ["sink_fact"]

/-- Source: `e15_evidence_validator.py`, `validate`, `contradictions`. Kind: D -/
def ClusterFacts.contradictions (cluster : ClusterFacts) : ℕ :=
  (cluster.findings.filter fun f => !(f.confidence.getD (.finite 1)).isValidBounded).length +
    (if 1 < (distinctTexts (cluster.findings.map FindingFacts.vulnerabilityClass)).length then 1 else 0) +
    if 1 < (distinctTexts (cluster.findings.map FindingFacts.sinkCategory)).length then 1 else 0

/-- Source: `e15_evidence_validator.py`, `validate`. Kind: D -/
def validateEvidence (w : Writing) : Option ClusterFacts → EvidenceValidation
  | none => .make false (.finite 0) 1 ["cluster"] "Null cluster object provided"
  | some cluster =>
    let missing := cluster.missing w
    let contradictions := cluster.contradictions
    let completeness : ℚ := (4 - missing.length) / 4
    let isValid := missing = [] ∧ contradictions = 0 ∧ 3 / 4 ≤ completeness
    let reasons := (if missing = [] then [] else ["Missing dimensions: " ++ joinStr ", " missing]) ++
      if 0 < contradictions then [s!"Contradictions detected: {contradictions}"] else []
    .make isValid (.finite completeness) contradictions missing
      (if isValid then "Evidence validation passed" else joinStr "; " reasons)

theorem isValidBounded_of_mem_default : ∀ m ∈ [Number.finite 1, .finite 1, .finite 1, .finite 1, .finite 0],
    m.isValidBounded = true := by
  decide

/-- The assessment with the default metrics; no cluster changes it. Source: `e15_exploitability.py`, `assess`. Kind: D -/
def assessExploitability (_ : Option ClusterFacts) : ExploitabilityAssessment where
  exploitabilityScore := .finite 1
  attackSurface := .finite 1
  controllability := .finite 1
  reachability := .finite 1
  privilegeRequirement := .finite 0
  exploitChainComplete := true
  assessmentValid := true
  rationale := "Exploitability score calculated: 1.0"
  bounded _ := isValidBounded_of_mem_default

/-- The least confidence is the float next to `0.70`. Source: `e15_security_policy.py`, `__init__`. Kind: D -/
def strictDefaultPolicy : SecurityPolicy where
  policyId := "POL-STRICT-DEFAULT"
  policyVersion := "1.0.0"
  minimumConfidence := .finite (3152519739159347 / 4503599627370496)
  blockUnknown := true

/-! ## The gate -/

/-- Source: `e15_security_gate.py`, `SecurityGate`. Kind: D -/
structure SecurityGate where
  evidenceValidator : Option ClusterFacts → EvidenceValidation
  exploitabilityEngine : Option ClusterFacts → ExploitabilityAssessment := assessExploitability
  defaultPolicy : SecurityPolicy := strictDefaultPolicy

/-- The gate made without arguments. Source: `e15_security_gate.py`, `__init__`. Kind: D -/
def SecurityGate.standard (w : Writing) : SecurityGate where
  evidenceValidator := validateEvidence w

/-- The arguments of a call. Source: `e15_security_gate.py`, `evaluate`. Kind: D -/
structure GateRequest where
  priority : Option Priority := none
  remediationPlan : Option Plan := none
  regressionReport : Option Attributes := none
  cluster : Option ClusterFacts := none
  evidence : Option EvidenceValidation := none
  exploitability : Option ExploitabilityAssessment := none
  policy : Option SecurityPolicy := none

/-- The call with a given report. Kind: D -/
def GateRequest.withReport (request : GateRequest) (report : RegressionReport) : GateRequest :=
  { request with regressionReport := some report.attributes }

/-- The attribute that the rule on regressions reads. Source: `e15_security_gate.py`, `raw_reg_change`. Kind: D -/
def regressionField : String := "change"

namespace GateRequest

variable (w : Writing) (request : GateRequest)

/-- Source: `e15_security_gate.py`, `p_status`. Kind: D -/
def priorityStatus : String :=
  w.status (((request.priority.bind fun p => p.priorityStatus.or p.status)).getD (.text "UNKNOWN"))

/-- Source: `e15_security_gate.py`, `r_status`. Kind: D -/
def remediationStatus : String :=
  match request.remediationPlan with
  | some plan => w.status (plan.status.getD (.text "UNKNOWN"))
  | none => "UNKNOWN"

/-- Source: `e15_security_gate.py`, `reg_status`. Kind: D -/
def regressionStatus : String :=
  match request.regressionReport with
  | some report => w.status (report.getattr "status" "NOT_TESTED")
  | none => "NOT_TESTED"

/-- Source: `e15_security_gate.py`, `reg_change`. Kind: D -/
def regressionChange : String :=
  match request.regressionReport with
  | some report => w.status (report.getattr regressionField "UNKNOWN")
  | none => "UNKNOWN"

/-- Source: `e15_security_gate.py`, `c_status`. Kind: D -/
def clusterStatus : String := w.upper (((request.cluster.bind ClusterFacts.status).map w.shown).getD "")

/-- Source: `e15_security_gate.py`, `p_conf`. Kind: D -/
def confidence : Number := (request.priority.bind Priority.confidence).getD (.finite 1)

end GateRequest

/-- Source: `e15_security_gate.py`, `KNOWN_PRIORITY_STATUSES`. Kind: D -/
def knownPriorityStatuses : List String := ["CRITICAL", "HIGH", "MEDIUM", "LOW", "INFO", "BLOCKED", "UNKNOWN", "NONE"]

/-- Source: `e15_security_gate.py`, `KNOWN_REMEDIATION_STATUSES`. Kind: D -/
def knownRemediationStatuses : List String := ["REQUIRED", "RECOMMENDED", "OPTIONAL", "NONE", "BLOCKED", "UNKNOWN"]

/-- The rules in the order in which they are evaluated. Source: `e15_security_gate.py`, `evaluated_rules`. Kind: D -/
def ruleOrder : List String :=
  ["Rule_01_Valid_Policy", "Rule_02_Valid_Evidence", "Rule_03_Valid_Exploitability", "Rule_04_Upstream_State_Known",
    "Rule_05_No_Security_Regression", "Rule_09_Upstream_Not_Blocked", "Rule_06_Confirmed_Critical_Guard",
    "Rule_07_Confirmed_High_Guard", "Rule_08_Candidate_Remediation", "Rule_10_Safe_Terminal_State"]

/-- Where the cascade ends. Kind: D -/
structure Verdict where
  status : DecisionStatus
  evaluatedRules : List String
  failedRules : List String
  rationale : String

/-- The cascade ends at its `n`-th rule, which fails. Kind: D -/
def Verdict.failing (n : ℕ) (status : DecisionStatus) (rationale : String) : Verdict :=
  ⟨status, ruleOrder.take n, (ruleOrder.take n).drop (n - 1), rationale⟩

/-- The cascade ends at its `n`-th rule without a failure. Kind: D -/
def Verdict.passing (n : ℕ) (status : DecisionStatus) (rationale : String) : Verdict :=
  ⟨status, ruleOrder.take n, [], rationale⟩

namespace SecurityGate

variable (w : Writing) (gate : SecurityGate) (request : GateRequest)

/-- Source: `e15_security_gate.py`, `active_policy`. Kind: D -/
def activePolicy : SecurityPolicy := request.policy.getD gate.defaultPolicy

/-- Source: `e15_security_gate.py`, `active_evidence`. Kind: D -/
def activeEvidence : EvidenceValidation := request.evidence.getD (gate.evidenceValidator request.cluster)

/-- Source: `e15_security_gate.py`, `active_exploitability`. Kind: D -/
def activeExploitability : ExploitabilityAssessment :=
  request.exploitability.getD (gate.exploitabilityEngine request.cluster)

/-- Source: `e15_security_gate.py`, `evaluate`. Kind: D -/
def verdict : Verdict :=
  let policy := gate.activePolicy request
  let p := request.priorityStatus w
  let r := request.remediationStatus w
  if policy.isValid = false then .failing 1 .unknown "Invalid or missing security policy"
  else if (gate.activeEvidence request).evidenceValid = false then
    .failing 2 .unknown s!"Invalid evidence: {(gate.activeEvidence request).validationReason}"
  else if (gate.activeExploitability request).assessmentValid = false then
    .failing 3 .unknown s!"Invalid exploitability: {(gate.activeExploitability request).rationale}"
  else if p ∉ knownPriorityStatuses ∨ r ∉ knownRemediationStatuses then
    .failing 4 .unknown
      s!"Unrecognized upstream status injection detected: priority='{p}', remediation='{r}'"
  else if p = "UNKNOWN" ∨ r = "UNKNOWN" ∨ request.regressionStatus w = "UNKNOWN" then
    .failing 4 .unknown "Upstream priority, remediation, or regression status is UNKNOWN"
  else if request.regressionChange w ∈ ["FAIL", "PERSISTENT", "CHANGED"] then
    .failing 5 .block s!"Security regression detected: status {request.regressionStatus w}, change {request.regressionChange w}"
  else if p = "BLOCKED" ∨ r = "BLOCKED" ∨ request.clusterStatus w = "BLOCKED" then
    .failing 6 .block "Upstream vulnerability cluster or remediation status is BLOCKED"
  else if p = "CRITICAL" ∧ r = "REQUIRED" then
    .failing 7 (if policy.blockUnknown then .block else .review) "Confirmed CRITICAL vulnerability requires remediation"
  else if p = "HIGH" ∧ r = "REQUIRED" then .failing 8 .review "Confirmed HIGH vulnerability requires review"
  else if r = "RECOMMENDED" then .passing 9 .review "Vulnerability remediation is RECOMMENDED"
  else if request.confidence.lt policy.minimumConfidence then
    .failing 10 .review
      s!"Confidence {w.showNumber request.confidence} below minimum policy threshold {w.showNumber policy.minimumConfidence}"
  else .passing 10 .allow "All security policy predicates satisfied"

/-- Source: `e15_models.py`, `compute_decision_id`. Kind: D -/
def computeDecisionId (priorityId remediationPlanId fingerprintId : String) (decision : DecisionStatus)
    (evidenceValid exploitabilityValid : Bool) (regressionStatus policyVersion : String) : String :=
  w.sha256 "E15-DECISION:" (Json.obj [("priority_id", .str priorityId), ("remediation_plan_id", .str remediationPlanId),
    ("fingerprint_id", .str fingerprintId), ("decision", .str decision.value), ("evidence_valid", .bool evidenceValid),
    ("exploitability_valid", .bool exploitabilityValid), ("regression_status", .str regressionStatus),
    ("policy_version", .str policyVersion), ("schema_version", .str "1.0.0")]).sortKeys

/-- Source: `e15_models.py`, `compute_gate_id`. Kind: D -/
def computeGateId (decisionId policyId : String) (evaluatedRules failedRules : List String) : String :=
  w.sha256 "E15-GATE:" (Json.obj [("decision_id", .str decisionId), ("policy_id", .str policyId),
    ("evaluated_rules", .arr ((sortBy id evaluatedRules).map .str)),
    ("failed_rules", .arr ((sortBy id failedRules).map .str)), ("schema_version", .str "1.0.0")]).sortKeys

/-- The record of a decision; a fingerprint is read as a text. Source: `e15_security_gate.py`, `_build_decision`. Kind: D -/
def decisionOf (verdict : Verdict) : SecurityDecision :=
  let priorityId := (request.priority.bind Priority.priorityId).getD "UNKNOWN-PRIORITY"
  let planId := (request.remediationPlan.bind Plan.planId).getD "UNKNOWN-PLAN"
  let fingerprintId := (request.regressionReport.map fun report =>
    w.shown (report.getattr "fingerprint_id" "UNKNOWN-FINGERPRINT")).getD "UNKNOWN-FINGERPRINT"
  let regressionStatus := (request.regressionReport.map fun report =>
    w.shown (report.getattr "status" "UNKNOWN")).getD "UNKNOWN"
  let known := verdict.status ≠ .unknown
  let version := (gate.activePolicy request).policyVersion
  { decisionId := computeDecisionId w priorityId planId fingerprintId verdict.status known known regressionStatus version
    priorityId := priorityId
    remediationPlanId := planId
    fingerprintId := fingerprintId
    decision := verdict.status
    confidence := request.confidence
    rationale := verdict.rationale
    policyVersion := version
    evidenceValid := known
    exploitabilityValid := known
    regressionStatus := regressionStatus }

/-- The result of the gate. Source: `e15_security_gate.py`, `_build_decision`, `gate_result`. Kind: D -/
def resultOf (verdict : Verdict) : SecurityGateResult :=
  let decisionId := (gate.decisionOf w request verdict).decisionId
  { gateId := computeGateId w decisionId (gate.activePolicy request).policyId verdict.evaluatedRules verdict.failedRules
    decisionId := decisionId
    passed := verdict.status = .allow
    blocked := verdict.status = .block
    requiresReview := verdict.status = .review
    unknown := verdict.status = .unknown
    failedRules := sortBy id verdict.failedRules
    evaluatedRules := sortBy id verdict.evaluatedRules
    policyVersion := (gate.activePolicy request).policyVersion }

/-- Source: `e15_security_gate.py`, `evaluate`. Kind: D -/
def evaluate : SecurityDecision × SecurityGateResult :=
  (gate.decisionOf w request (gate.verdict w request), gate.resultOf w request (gate.verdict w request))

/-! ## When the gate passes -/

/-- No rule but those on the regression objects. Kind: D -/
structure ClearsOthers : Prop where
  policy : (gate.activePolicy request).isValid = true
  evidence : (gate.activeEvidence request).evidenceValid = true
  exploitability : (gate.activeExploitability request).assessmentValid = true
  known : request.priorityStatus w ∈ knownPriorityStatuses ∧ request.remediationStatus w ∈ knownRemediationStatuses
  notUnknown : request.priorityStatus w ≠ "UNKNOWN" ∧ request.remediationStatus w ≠ "UNKNOWN"
  notBlocked : request.priorityStatus w ≠ "BLOCKED" ∧ request.remediationStatus w ≠ "BLOCKED" ∧
    request.clusterStatus w ≠ "BLOCKED"
  notCritical : ¬(request.priorityStatus w = "CRITICAL" ∧ request.remediationStatus w = "REQUIRED")
  notHigh : ¬(request.priorityStatus w = "HIGH" ∧ request.remediationStatus w = "REQUIRED")
  notRecommended : request.remediationStatus w ≠ "RECOMMENDED"
  confident : request.confidence.lt (gate.activePolicy request).minimumConfidence = false

variable {w gate request}

/-- One rule of the cascade: to pass it is not to meet it, and to pass what follows. Kind: L -/
theorem status_rule {c : Prop} [Decidable c] {stopped rest : Verdict} (h : stopped.status ≠ .allow) :
    (if c then stopped else rest).status = .allow ↔ ¬c ∧ rest.status = .allow := by
  by_cases hc : c
  · rw [if_pos hc]
    exact iff_of_false h fun h' => h'.1 hc
  · simp_all

/-- The gate passes where no rule objects. Kind: P -/
theorem status_verdict_eq_allow : (gate.verdict w request).status = .allow ↔ gate.ClearsOthers w request ∧
    request.regressionStatus w ≠ "UNKNOWN" ∧ request.regressionChange w ∉ ["FAIL", "PERSISTENT", "CHANGED"] := by
  have hcritical : (Verdict.failing 7 (if (gate.activePolicy request).blockUnknown then .block else .review)
      "Confirmed CRITICAL vulnerability requires remediation").status ≠ .allow := by
    cases hblock : (gate.activePolicy request).blockUnknown <;> exact fun h => nomatch h
  have hpassing : (Verdict.passing 10 .allow "All security policy predicates satisfied").status = .allow ↔ True :=
    iff_of_true rfl trivial
  unfold verdict
  dsimp only
  rw [status_rule, status_rule, status_rule, status_rule, status_rule, status_rule, status_rule, status_rule hcritical,
    status_rule, status_rule, status_rule, hpassing]
  -- a rule that stops the cascade does not allow
  rotate_left
  all_goals first
    | exact fun h => nomatch h
    | skip
  simp only [not_or, not_not, Bool.not_eq_false, Bool.not_eq_true]
  constructor
  · rintro ⟨hpolicy, hevidence, hexploit, hknown, ⟨hp, hr, hreg⟩, hchange, hblocked, hcrit, hhigh, hrec, hconf, _⟩
    exact ⟨⟨hpolicy, hevidence, hexploit, hknown, ⟨hp, hr⟩, hblocked, hcrit, hhigh, hrec, hconf⟩, hreg, hchange⟩
  · rintro ⟨h, hreg, hchange⟩
    exact ⟨h.policy, h.evidence, h.exploitability, h.known, ⟨h.notUnknown.1, h.notUnknown.2, hreg⟩, hchange,
      h.notBlocked, h.notCritical, h.notHigh, h.notRecommended, h.confident, trivial⟩

theorem passed_iff : (gate.evaluate w request).2.passed = true ↔ (gate.evaluate w request).1.decision = .allow :=
  decide_eq_true_iff

/-! ## Reports of a comparison -/

theorem get?_attributes_status (report : RegressionReport) :
    report.attributes.get? "status" = some (.member report.status.value report.status.value) := rfl

/-- A report has no attribute of the name that the rule on regressions reads. Kind: L -/
theorem regressionField_not_mem (report : RegressionReport) : regressionField ∉ report.attributes.keys := by
  rw [← Dict.get?_eq_none]
  rfl

variable {report : RegressionReport}

theorem regressionStatus_withReport : (request.withReport report).regressionStatus w = report.status.value := by
  unfold GateRequest.regressionStatus GateRequest.withReport Attributes.getattr
  dsimp only
  rw [get?_attributes_status]
  apply w.upper_eq
  cases report.status <;> decide

theorem regressionChange_withReport : (request.withReport report).regressionChange w = "UNKNOWN" := by
  unfold GateRequest.regressionChange GateRequest.withReport Attributes.getattr
  dsimp only
  rw [Dict.get?_eq_none.mpr (regressionField_not_mem report)]
  have hplain : w.upper "UNKNOWN" = "UNKNOWN" := w.upper_eq (by decide)
  exact hplain

theorem clearsOthers_withReport : gate.ClearsOthers w (request.withReport report) ↔ gate.ClearsOthers w request := by
  constructor
  all_goals
    intro h
    exact ⟨h.policy, h.evidence, h.exploitability, h.known, h.notUnknown, h.notBlocked, h.notCritical, h.notHigh,
      h.notRecommended, h.confident⟩

/-- Of a report the gate only asks that it is not unknown. Kind: L -/
theorem decision_withReport_eq_allow : (gate.evaluate w (request.withReport report)).1.decision = .allow ↔
    gate.ClearsOthers w request ∧ report.status ≠ .unknown := by
  have hdecision : (gate.evaluate w (request.withReport report)).1.decision =
      (gate.verdict w (request.withReport report)).status := rfl
  have hunknown : report.status.value ≠ "UNKNOWN" ↔ report.status ≠ .unknown := by
    cases report.status <;> decide
  rw [hdecision, status_verdict_eq_allow, regressionStatus_withReport, regressionChange_withReport,
    clearsOthers_withReport, hunknown]
  exact ⟨fun h => ⟨h.1, h.2.1⟩, fun h => ⟨h.1, h.2, by decide⟩⟩

/-- A release with a failed or unknown regression status does not pass. Kind: D -/
def HoldsBack (w : Writing) (gate : SecurityGate) (request : GateRequest) (report : RegressionReport) : Prop :=
  report.status = .fail ∨ report.status = .unknown →
    (gate.evaluate w (request.withReport report)).1.decision ≠ .allow ∧
      (gate.evaluate w (request.withReport report)).2.passed = false

theorem holdsBack_iff : HoldsBack w gate request report ↔ ¬(report.status = .fail ∧ gate.ClearsOthers w request) := by
  have hpassed : (gate.evaluate w (request.withReport report)).2.passed = false ↔
      (gate.evaluate w (request.withReport report)).1.decision ≠ .allow := by
    rw [Ne, ← passed_iff, Bool.not_eq_true]
  unfold HoldsBack
  rw [hpassed, and_self, Ne, decision_withReport_eq_allow]
  constructor
  · grind
  · grind

/-- The gate holds a regression back except after a valid analysis with a new fingerprint, where no other rule objects; the
attribute that its rule reads is in no report. Kind: P -/
theorem evaluate_compare_safe_iff {ε F : Type} (w : Writing) (gate : SecurityGate) (request : GateRequest)
    (engine : RegressionEngine ε) (baselineClusters currentClusters : List (VulnerabilityCluster F))
    (currentAnalysisValid : Bool) (baselineFindings currentFindings : List (SecurityFinding ε)) :
    regressionField ∉ (engine.compare baselineClusters currentClusters currentAnalysisValid baselineFindings
        currentFindings).attributes.keys ∧
      (HoldsBack w gate request
          (engine.compare baselineClusters currentClusters currentAnalysisValid baselineFindings currentFindings) ↔
        ¬(currentAnalysisValid = true ∧
          engine.HasNew baselineClusters currentClusters baselineFindings currentFindings ∧
          gate.ClearsOthers w request)) := by
  refine ⟨regressionField_not_mem _, ?_⟩
  rw [holdsBack_iff, RegressionEngine.status_compare_eq_fail, and_assoc]

/-! ## A new vulnerability that passes -/

/-- Plain capitals, and a digest that keeps the tag only. Kind: D -/
def plainWriting : Writing where
  upperOf c := [c]
  showTexts := joinStr ", "
  showNumber _ := "0.9"
  sha256 tag _ := tag

/-- Kind: D -/
def plainEngine : RegressionEngine String where
  chars := ⟨fun _ => false, fun _ => false⟩
  upper := upper
  lower := lower
  ruleKey := id
  sha256 tag _ := tag

/-- Kind: D -/
def newCluster : VulnerabilityCluster ℚ where
  clusterId := "C1"
  vulnerabilityClass := "SQL_INJECTION"
  findingIds := ["F1"]
  sourceFactIds := ["n1"]
  sinkFactIds := ["n2"]
  flowIds := ["f1"]
  sourceNodes := ["n1"]
  sinkNodes := ["n2"]
  sharedContexts := []
  confidence := 9 / 10
  severity := "MEDIUM"
  status := .confirmed
  evidenceCount := 1

/-- Valid evidence, and a vulnerability of medium priority with an optional remedy. Kind: D -/
def mediumRequest : GateRequest where
  priority := some { status := some (.text "MEDIUM"), confidence := some (.finite (9 / 10)), priorityId := some "P1" }
  remediationPlan := some { status := some (.text "OPTIONAL"), planId := some "PL1" }
  evidence := some (.make true (.finite 1) 0 [] "OK")

theorem clearsOthers_mediumRequest : (SecurityGate.standard plainWriting).ClearsOthers plainWriting mediumRequest where
  policy := by decide +kernel
  evidence := by decide
  exploitability := by decide
  known := by decide
  notUnknown := by decide
  notBlocked := by decide
  notCritical := by decide
  notHigh := by decide
  notRecommended := by decide
  confident := by decide +kernel

/-- A report of a new vulnerability has the status FAIL, and the gate passes. Kind: P -/
theorem new_vulnerability_allowed : ¬HoldsBack plainWriting (.standard plainWriting) mediumRequest
    (plainEngine.compare [] [newCluster] true [] []) := by
  intro hholds
  have hnew : plainEngine.HasNew [] [newCluster] [] [] :=
    ⟨newCluster, List.mem_cons_self, fun _ hbase => absurd hbase List.not_mem_nil⟩
  exact holdsBack_iff.mp hholds ⟨RegressionEngine.status_compare_eq_fail.mpr ⟨rfl, hnew⟩, clearsOthers_mediumRequest⟩

end SecurityGate

end KarsaSec.Analysis
