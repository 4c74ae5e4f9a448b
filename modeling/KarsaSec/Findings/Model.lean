import KarsaSec.Dataflow.Model
import KarsaSec.Dataflow.SecurityVerdict

/-!
# Findings

The finding records and the two identities that correlation groups them by.

* `Finding` carries an optional `Qualified` part: a finding with it is a `QualifiedFinding` of the
  source.
* `normalizeFindingPath` collapses a path to its canonical components.
* `exactRaw` and `semanticRaw` are the strings behind the exact and the semantic key: file, line and
  rule, and file, line and category. `CanonicalFindingIdentity.ofFinding` hashes them.
-/

namespace KarsaSec.Findings

open KarsaSec.Found KarsaSec.Dataflow

/-- State of a finding after qualification. Source: `model.py`, `QualificationState`. Kind: D -/
inductive QualificationState
  | confirmed
  | supported
  | unresolved
  | rejected
  deriving DecidableEq, Repr

/-- The string value of a state. Source: `model.py`, `QualificationState`. Kind: D -/
def QualificationState.value : QualificationState → String
  | confirmed => "CONFIRMED"
  | supported => "SUPPORTED"
  | unresolved => "UNRESOLVED"
  | rejected => "REJECTED"

/-- The code snippet of a finding. Source: `evidence.py`, `Evidence`. Kind: D -/
structure Evidence where
  snippet : String
  line : ℤ
  column : ℤ
  contextLines : List String
  deriving DecidableEq

/-- Enriched evidence of a qualified finding. Source: `evidence.py`, `FindingEvidence`. Kind: D -/
structure FindingEvidence where
  snippet : String
  line : ℤ
  column : ℤ
  ruleId : String
  nodeType : String
  matchedText : String
  sinkSymbol : String
  sinkCategory : String
  sourceSymbol : String
  sourceCategory : String
  taintState : TaintState
  constantResolution : String
  sanitizerSymbol : String
  sanitizerCapability : String
  taintPath : List TaintPathHop
  astMatch : Bool
  semanticMatch : Bool
  qualificationState : String
  rejectionReason : String
  contextLines : List String
  deriving DecidableEq

/-- What qualification adds to a finding. Source: `model.py`, `QualifiedFinding`. Kind: D -/
structure Qualified where
  qualificationState : QualificationState
  rejectionReason : Option String
  enrichedEvidence : Option FindingEvidence
  deriving DecidableEq

/-- A detected vulnerability; with `qualified` it is a `QualifiedFinding`.
Source: `model.py`, `Finding`, `QualifiedFinding`
Kind: D -/
structure Finding where
  findingId : String
  ruleId : String
  fingerprint : String
  title : String
  severity : Severity
  confidence : Confidence
  cweId : String
  owasp : String
  filePath : String
  evidence : Option Evidence
  description : String
  remediation : String
  ruleVersion : String
  verdict : Option SecurityVerdict
  qualified : Option Qualified
  deriving DecidableEq

/-! ## Canonical identities -/

/-- `s.split(c)`. Kind: D -/
def splitChar (c : Char) : List Char → List (List Char)
  | [] => [[]]
  | x :: xs =>
    if x = c then [] :: splitChar c xs
    else match splitChar c xs with
      | [] => [[x]]
      | part :: parts => (x :: part) :: parts

/-- The leading `./` segments dropped. Source: `model.py`, `normalize_finding_path`. Kind: D -/
def dropDotSlash : List Char → List Char
  | '.' :: '/' :: rest => dropDotSlash rest
  | s => s

/-- One component of the collapse: `..` takes back the last component, unless that is `..`.
Source: `model.py`, `normalize_finding_path`, loop
Kind: D -/
def collapseStep (normParts : List (List Char)) (p : List Char) : List (List Char) :=
  match normParts.getLast? with
  | some last => if p = ['.', '.'] ∧ last ≠ ['.', '.'] then normParts.dropLast
      else normParts ++ [p]
  | none => normParts ++ [p]

/-- Canonical form of a file path.
Source: `model.py`, `normalize_finding_path`
Kind: D -/
def normalizeFindingPath (filePath : String) : String :=
  let rawStr := dropDotSlash (normSlashes filePath).toList
  let parts := (splitChar '/' rawStr).filter fun p => p ≠ [] ∧ p ≠ ['.']
  joinStr "/" ((parts.foldl collapseStep []).map String.ofList)

/-- The categories that CWE identifiers stand for.
Source: `model.py`, `CanonicalFindingIdentity.create`, `_CWE_MAP`
Kind: D -/
def cweMap : List (String × String) :=
  [("CWE-89", "SQL_EXECUTION"), ("CWE-78", "COMMAND_EXECUTION"), ("CWE-74", "COMMAND_EXECUTION"),
    ("CWE-98", "FILE_INCLUSION"), ("CWE-22", "FILE_READ"), ("CWE-326", "CRYPTOGRAPHIC_OPERATION"),
    ("CWE-916", "CRYPTOGRAPHIC_OPERATION"), ("CWE-287", "AUTHENTICATION"), ("CWE-918", "SSRF"),
    ("CWE-862", "BROKEN_ACCESS_CONTROL")]

/-- The category of the semantic key: the sink category, or what the CWE stands for.
Source: `model.py`, `CanonicalFindingIdentity.create`, `cat_key`
Kind: D -/
def catKey (sinkCategory cweId : String) : String :=
  let cwe := upper (if cweId = "" then "CWE-0" else cweId)
  if sinkCategory ≠ "" ∧ sinkCategory ≠ "UNKNOWN" then upper sinkCategory
  else (cweMap.lookup cwe).getD cwe

/-- Canonical identity of a finding.
Source: `model.py`, `CanonicalFindingIdentity`
Kind: D -/
structure CanonicalFindingIdentity where
  exactKey : String
  semanticKey : String
  normalizedFile : String
  line : ℤ
  ruleId : String
  sinkCategory : String
  canonicalSink : String
  deriving DecidableEq

/-- The string behind the exact key.
Source: `model.py`, `CanonicalFindingIdentity.create`, `exact_raw`
Kind: D -/
def exactRaw (filePath : String) (line : ℤ) (ruleId : String) : String :=
  joinStr "|" ["EXACT", normalizeFindingPath filePath, toString line, ruleId]

/-- The string behind the semantic key.
Source: `model.py`, `CanonicalFindingIdentity.create`, `semantic_raw`
Kind: D -/
def semanticRaw (filePath : String) (line : ℤ) (sinkCategory cweId : String) : String :=
  joinStr "|" ["SEM", normalizeFindingPath filePath, toString line, catKey sinkCategory cweId]

/-- Source: `model.py`, `CanonicalFindingIdentity.create`. Kind: D -/
def CanonicalFindingIdentity.create (sha256 : ByteArray → String) (filePath : String) (line : ℤ)
    (ruleId snippet sinkCategory sinkSymbol cweId : String) : CanonicalFindingIdentity :=
  { exactKey := shortDigest sha256 32 (exactRaw filePath line ruleId)
    semanticKey := shortDigest sha256 32 (semanticRaw filePath line sinkCategory cweId)
    normalizedFile := normalizeFindingPath filePath
    line, ruleId, sinkCategory
    canonicalSink := if strip sinkSymbol = "" then String.ofList ((strip snippet).toList.take 64)
      else strip sinkSymbol }

namespace Finding

/-- `getattr(finding, "enriched_evidence", None)`. Kind: D -/
def enrichedEvidence (f : Finding) : Option FindingEvidence :=
  f.qualified.bind Qualified.enrichedEvidence

/-- The line of a finding, `0` without evidence. Kind: D -/
def line (f : Finding) : ℤ := (f.evidence.map Evidence.line).getD 0

/-- The sink category of a finding, `UNKNOWN` without enriched evidence.
Source: `model.py`, `CanonicalFindingIdentity.from_finding`
Kind: D -/
def sinkCategory (f : Finding) : String :=
  (f.enrichedEvidence.map FindingEvidence.sinkCategory).getD "UNKNOWN"

end Finding

/-- The identity of a finding.
Source: `model.py`, `CanonicalFindingIdentity.from_finding`
Kind: D -/
def CanonicalFindingIdentity.ofFinding (sha256 : ByteArray → String) (f : Finding) :
    CanonicalFindingIdentity :=
  CanonicalFindingIdentity.create sha256 f.filePath f.line f.ruleId
    ((f.evidence.map Evidence.snippet).getD "") f.sinkCategory
    ((f.enrichedEvidence.map FindingEvidence.sinkSymbol).getD "") f.cweId

end KarsaSec.Findings
