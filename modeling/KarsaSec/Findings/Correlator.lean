import KarsaSec.Findings.Model
import KarsaSec.Found.Ranking
import Mathlib.Algebra.Ring.Nat
import Mathlib.Data.List.Dedup
import Mathlib.Data.Prod.Lex
import Mathlib.Data.String.Basic

/-!
# Correlation of findings

`FindingCorrelator.correlate` in its passes: exact duplicates are grouped by file, line and rule and
replaced by their strongest member; what is left is grouped by file, line and category; each group
becomes one `CanonicalFinding`, with a conflict if the evidence of two members contradicts.

* `rank` is the sort key of a finding; groups are sorted and their primaries picked by it.
* `detectEvidenceConflict` and `firstConflict` are the conflict detection over pairs.
* `mem_correlate`: the output has one canonical finding for the semantic group of each primary;
  `InGroup` says which of them an input finding ends up in.
* `firstConflict_isSome`: the pair loop finds a conflict exactly when two members have one.
-/

namespace KarsaSec.Findings

open KarsaSec.Found KarsaSec.Dataflow

/-! ## Evidence conflicts -/

/-- Categories of evidence conflicts. Source: `conflict.py`, `ConflictCategory`. Kind: D -/
inductive ConflictCategory
  | taintStateConflict
  | sanitizerConflict
  | sinkCategoryConflict
  | sourceCategoryConflict
  | qualificationConflict
  | ruleEvidenceConflict
  deriving DecidableEq, Repr

/-- The string value of a category. Source: `conflict.py`, `ConflictCategory`. Kind: D -/
def ConflictCategory.value : ConflictCategory → String
  | taintStateConflict => "TAINT_STATE_CONFLICT"
  | sanitizerConflict => "SANITIZER_CONFLICT"
  | sinkCategoryConflict => "SINK_CATEGORY_CONFLICT"
  | sourceCategoryConflict => "SOURCE_CATEGORY_CONFLICT"
  | qualificationConflict => "QUALIFICATION_CONFLICT"
  | ruleEvidenceConflict => "RULE_EVIDENCE_CONFLICT"

/-- What conflict detection looks at: plain evidence or enriched evidence. Kind: D -/
inductive AnyEvidence
  | plain (e : Evidence)
  | enriched (e : FindingEvidence)
  deriving DecidableEq

/-- Contradictory evidence of two findings. Source: `conflict.py`, `EvidenceConflict`. Kind: D -/
structure EvidenceConflict where
  conflictType : ConflictCategory
  evidenceA : AnyEvidence
  evidenceB : AnyEvidence
  originatingRules : List String
  reason : String
  resolution : String
  deriving DecidableEq

/-- The qualification state of a piece of evidence, if it has one.
Source: `conflict.py`, `detect_evidence_conflict`, `state_a`
Kind: D -/
def AnyEvidence.state : AnyEvidence → Option String
  | .plain _ => none
  | .enriched e => if e.qualificationState = "" then none else some e.qualificationState

/-- The taint state of a piece of evidence, if it has one.
Source: `conflict.py`, `detect_evidence_conflict`, `ts_a`
Kind: D -/
def AnyEvidence.taintState : AnyEvidence → Option String
  | .plain _ => none
  | .enriched e => some e.taintState.value

/-- `{a, b} == {x, y}` for `a ≠ b`: the two values are the two given ones, in some order. Kind: D -/
def opposed (x y : String) (a b : Option String) : Bool :=
  (a = some x && b = some y) || (a = some y && b = some x)

/-- `sorted({r for r in rules if r})`. Kind: D -/
def ruleSet (rules : List String) : List String :=
  sortStrings ((rules.filter (· ≠ "")).dedup)

/-- Source: `conflict.py`, `detect_evidence_conflict`. Kind: D -/
def detectEvidenceConflict (evA evB : Option AnyEvidence) (ruleA ruleB : String) :
    Option EvidenceConflict :=
  match evA, evB with
  | some a, some b =>
    if opposed "CONFIRMED" "REJECTED" a.state b.state then
      some ⟨.qualificationConflict, a, b, ruleSet [ruleA, ruleB],
        "Rule/qualification disagreement: " ++ a.state.getD "" ++ " vs " ++ b.state.getD ""
          ++ ".", "UNRESOLVED"⟩
    else if opposed "TAINTED" "SANITIZED" a.taintState b.taintState then
      some ⟨.taintStateConflict, a, b, ruleSet [ruleA, ruleB],
        "Contradictory taint state: " ++ a.taintState.getD "" ++ " vs "
          ++ b.taintState.getD "" ++ ".", "UNRESOLVED"⟩
    else none
  | _, _ => none

/-- `getattr(f, "enriched_evidence", f.evidence)`. Kind: D -/
def Finding.anyEvidence (f : Finding) : Option AnyEvidence :=
  match f.qualified with
  | some q => q.enrichedEvidence.map .enriched
  | none => f.evidence.map .plain

/-- The conflict of two findings.
Source: `correlator.py`, `correlate`, body of the pair loop
Kind: D -/
def conflictOf (f g : Finding) : Option EvidenceConflict :=
  detectEvidenceConflict f.anyEvidence g.anyEvidence f.ruleId g.ruleId

/-- The first conflict in the pair loop.
Source: `correlator.py`, `correlate`, loops over `i` and `j`
Kind: D -/
def firstConflict : List Finding → Option EvidenceConflict
  | [] => none
  | f :: rest => (rest.findSome? (conflictOf f)).or (firstConflict rest)

/-! ## Primaries -/

/-- Source: `correlator.py`, `_SEVERITY_WEIGHT`. Kind: D -/
def severityWeight : Severity → ℕ
  | .critical => 5
  | .high => 4
  | .medium => 3
  | .low => 2
  | .info => 1

/-- Source: `correlator.py`, `_CONFIDENCE_WEIGHT`. Kind: D -/
def confidenceWeight : Confidence → ℕ
  | .confident => 3
  | .likely => 2
  | .possible => 1

/-- The sort key of a finding: severity, confidence, rule.
Source: `correlator.py`, `correlate`, `key`
Kind: D -/
def rank (f : Finding) : ℕ ×ₗ ℕ ×ₗ String :=
  toLex (severityWeight f.severity, toLex (confidenceWeight f.confidence, f.ruleId))

/-! ## The passes -/

/-- A deduplicated, correlated finding. Source: `correlator.py`, `CanonicalFinding`. Kind: D -/
structure CanonicalFinding where
  primary : Finding
  correlatedRuleIds : List String
  semanticFingerprint : String
  exactFingerprint : String
  evidenceConflict : Option EvidenceConflict
  deriving DecidableEq

/-- The output of a correlation and the counters it leaves.
Source: `correlator.py`, `FindingCorrelator`
Kind: D -/
structure Correlation where
  canonical : List CanonicalFinding
  exactDuplicateCount : ℕ
  semanticDuplicateCount : ℕ
  conflictCount : ℕ

variable (sha256 : ByteArray → String)

/-- The exact key of a finding. Source: `model.py`, `CanonicalFindingIdentity`. Kind: D -/
def exactKey (f : Finding) : String := (CanonicalFindingIdentity.ofFinding sha256 f).exactKey

/-- The semantic key of a finding. Source: `model.py`, `CanonicalFindingIdentity`. Kind: D -/
def semanticKey (f : Finding) : String :=
  (CanonicalFindingIdentity.ofFinding sha256 f).semanticKey

/-- The primaries of the exact groups, in order of first appearance.
Source: `correlator.py`, `correlate`, first pass
Kind: D -/
def exactPrimaries (findings : List Finding) : List Finding :=
  primariesBy rank (exactKey sha256) findings

/-- The primary of a group in conflict: a qualified finding becomes unresolved and loses its verdict.
Source: `correlator.py`, `correlate`, `if conflict`
Kind: D -/
def resolvePrimary (primary : Finding) : Option EvidenceConflict → Finding
  | none => primary
  | some conflict =>
    match primary.qualified with
    | none => primary
    | some q => { primary with
        verdict := none
        qualified := some { q with
          qualificationState := .unresolved
          rejectionReason := some conflict.conflictType.value } }

/-- The canonical finding of a semantic group.
Source: `correlator.py`, `correlate`, second pass, loop body
Kind: D -/
def canonicalOf (semKey : String) (group : List Finding) : Option CanonicalFinding :=
  (pickMax rank group).map fun primary =>
    let conflict := firstConflict (sortDesc rank group)
    { primary := resolvePrimary primary conflict
      correlatedRuleIds := sortStrings ((group.map Finding.ruleId).dedup)
      semanticFingerprint := semKey
      exactFingerprint := exactKey sha256 primary
      evidenceConflict := conflict }

/-- The canonical findings before the final sort.
Source: `correlator.py`, `correlate`, second pass
Kind: D -/
def canonicalList (findings : List Finding) : List CanonicalFinding :=
  (Dict.groupBy (semanticKey sha256) (exactPrimaries sha256 findings)).entries.filterMap
    fun e => canonicalOf sha256 e.1 e.2

/-- The sort key of the output. Source: `correlator.py`, `correlate`, `canonical_list.sort`.
Kind: D -/
def outputRank (c : CanonicalFinding) : String ×ₗ ℤ ×ₗ String :=
  toLex (normSlashes c.primary.filePath, toLex (c.primary.line, c.primary.ruleId))

/-- Source: `correlator.py`, `FindingCorrelator.correlate`. Kind: D -/
def correlate (findings : List Finding) : Correlation :=
  { canonical := (canonicalList sha256 findings).insertionSort
      fun c d => outputRank c ≤ outputRank d
    exactDuplicateCount :=
      ((Dict.groupBy (exactKey sha256) findings).values.map fun g => g.length - 1).sum
    semanticDuplicateCount :=
      ((Dict.groupBy (semanticKey sha256) (exactPrimaries sha256 findings)).values.map
        fun g => g.length - 1).sum
    conflictCount := ((canonicalList sha256 findings).filter
      fun c => c.evidenceConflict.isSome).length }

/-! ## What the output consists of -/

/-- The group of an input finding: the semantic group of the primary of its exact group.
Source: `correlator.py`, `correlate`, both passes
Kind: D -/
def InGroup (findings : List Finding) (f : Finding) (c : CanonicalFinding) : Prop :=
  ∃ p, pickMax rank (groupOf (exactKey sha256) findings f) = some p ∧
    semanticKey sha256 p = c.semanticFingerprint

/-- The semantic group of a primary. Kind: D -/
def semanticGroup (findings : List Finding) (p : Finding) : List Finding :=
  groupOf (semanticKey sha256) (exactPrimaries sha256 findings) p

/-- The output has one canonical finding for the semantic group of each primary.
Source: `correlator.py`, `correlate`
Kind: L -/
theorem mem_correlate {findings : List Finding} {c : CanonicalFinding} :
    c ∈ (correlate sha256 findings).canonical ↔ ∃ p ∈ exactPrimaries sha256 findings,
      canonicalOf sha256 (semanticKey sha256 p) (semanticGroup sha256 findings p) = some c := by
  unfold correlate canonicalList
  simp only [List.mem_insertionSort, List.mem_filterMap, Prod.exists]
  constructor
  · rintro ⟨k, g, he, hc⟩
    obtain ⟨⟨p, hp, rfl⟩, rfl⟩ := Dict.mem_entries_groupBy.mp he
    exact ⟨p, hp, hc⟩
  · rintro ⟨p, hp, hc⟩
    exact ⟨_, _, Dict.mem_entries_groupBy.mpr ⟨⟨p, hp, rfl⟩, rfl⟩, hc⟩

variable {sha256}

/-- The group of a canonical finding is named after it. Kind: L -/
theorem canonicalOf_some {k : String} {g : List Finding} {c : CanonicalFinding}
    (h : canonicalOf sha256 k g = some c) :
    c.semanticFingerprint = k ∧ c.evidenceConflict = firstConflict (sortDesc rank g) ∧
      ∀ r, r ∈ c.correlatedRuleIds ↔ ∃ f ∈ g, f.ruleId = r := by
  obtain ⟨p, hp, rfl⟩ := Option.map_eq_some_iff.mp h
  refine ⟨rfl, rfl, fun r => ?_⟩
  simp [sortStrings]

/-- A nonempty group has a canonical finding. Kind: L -/
theorem exists_canonicalOf {k : String} {g : List Finding} (h : g ≠ []) :
    ∃ c, canonicalOf sha256 k g = some c := by
  obtain ⟨p, hp⟩ := exists_pickMax rank h
  exact ⟨_, by rw [canonicalOf, hp]; rfl⟩

theorem opposed_comm (x y : String) (a b : Option String) : opposed x y a b = opposed x y b a := by
  simp [Bool.or_comm, Bool.and_comm, opposed]

/-- Whether two findings are in conflict does not depend on their order.
Source: `conflict.py`, `detect_evidence_conflict`
Kind: L -/
theorem conflictOf_isSome_comm (f g : Finding) :
    (conflictOf f g).isSome = (conflictOf g f).isSome := by
  unfold conflictOf detectEvidenceConflict
  rcases f.anyEvidence with _ | a
  · rcases g.anyEvidence with _ | b <;> rfl
  · rcases g.anyEvidence with _ | b
    · rfl
    · dsimp only
      rw [opposed_comm _ _ b.state, opposed_comm _ _ b.taintState]
      split
      · rfl
      split
      · rfl
      · rfl

/-- The pair loop finds a conflict of any two different members that have one.
Source: `correlator.py`, `correlate`, loops over `i` and `j`
Kind: L -/
theorem firstConflict_isSome {l : List Finding} {f g : Finding} (hf : f ∈ l) (hg : g ∈ l)
    (hne : f ≠ g) (hc : (conflictOf f g).isSome) : (firstConflict l).isSome := by
  induction l with
  | nil => exact absurd hf List.not_mem_nil
  | cons h rest ih =>
    have hfound : ∀ x y, x = h → y ∈ rest → (conflictOf x y).isSome →
        (firstConflict (h :: rest)).isSome := by
      rintro x y rfl hy hxy
      have hsome : (rest.findSome? (conflictOf x)).isSome :=
        List.findSome?_isSome_iff.mpr ⟨y, hy, hxy⟩
      simp only [firstConflict, Option.isSome_or, hsome, Bool.true_or]
    rcases List.mem_cons.mp hf with rfl | hf'
    · rcases List.mem_cons.mp hg with rfl | hg'
      · exact absurd rfl hne
      · exact hfound f g rfl hg' hc
    · rcases List.mem_cons.mp hg with rfl | hg'
      · rw [conflictOf_isSome_comm] at hc
        exact hfound g f rfl hf' hc
      · simp_all [firstConflict]

/-- A finding is not in conflict with itself. Source: `conflict.py`, `detect_evidence_conflict`.
Kind: L -/
theorem conflictOf_self (f : Finding) : conflictOf f f = none := by
  have hself : ∀ (x y : String), x ≠ y → ∀ a, opposed x y a a = false := by
    rintro x y hxy (_ | a)
    · rfl
    · by_cases hx : a = x
      · subst hx; simp [opposed, hxy]
      · simp [opposed, hx]
  unfold conflictOf detectEvidenceConflict
  rcases f.anyEvidence with _ | a
  · rfl
  · simp_all

/-- A conflict that the pair loop finds is one of two members.
Source: `correlator.py`, `correlate`, loops over `i` and `j`
Kind: L -/
theorem exists_conflictOf {l : List Finding} (h : (firstConflict l).isSome) :
    ∃ f ∈ l, ∃ g ∈ l, (conflictOf f g).isSome := by
  induction l with
  | nil => cases h
  | cons f rest ih =>
    rw [firstConflict, Option.isSome_or, Bool.or_eq_true] at h
    rcases h with hhead | htail
    · simp_all
    · obtain ⟨d, hd, e, he, hde⟩ := ih htail
      exact ⟨d, List.mem_cons_of_mem _ hd, e, List.mem_cons_of_mem _ he, hde⟩

end KarsaSec.Findings
