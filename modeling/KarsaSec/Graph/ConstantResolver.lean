import KarsaSec.Found.Dict
import KarsaSec.Found.Regex
import Mathlib.Data.List.Forall2

/-!
# Constants of one file

`graph/constant_resolver.py`: declarations of constants as two patterns find them, and where the value of a constant comes from.

* `declared`, `discoverDeclarations`: the declarations of a text.
* `resolve`, `classifyPart`: the functions that call each other, with fuel; `classifyValue`, `partBody` and `resolveConcat` are bodies
  with the calls they make. `none` is a call that does not return.
-/

namespace KarsaSec.Graph

open KarsaSec.Found

/-- Source: `graph/constant_resolver.py`, `ConstantResolution`. Kind: D -/
inductive ConstantResolution
  | unknown
  | staticLiteral
  | staticConstant
  | derivedStatic
  | dynamic
  | tainted
  deriving DecidableEq, Repr

/-- Source: `graph/constant_resolver.py`, `_STATIC_RESOLUTIONS`. Kind: D -/
def ConstantResolution.isStatic : ConstantResolution → Bool
  | staticLiteral | staticConstant | derivedStatic => true
  | unknown | dynamic | tainted => false

/-- The two kinds of declarations. Source: `graph/constant_resolver.py`, `decl_kind`. Kind: D -/
inductive DeclKind
  | define
  | const
  deriving DecidableEq, Repr

/-- Source: `graph/constant_resolver.py`, `ConstantDeclaration`. Kind: D -/
structure ConstantDeclaration where
  name : String
  valueExpr : String
  declKind : DeclKind
  deriving DecidableEq, Repr

/-- Source: `graph/constant_resolver.py`, `ConstantEvidence`. Kind: D -/
structure ConstantEvidence where
  name : String
  resolution : ConstantResolution
  resolvedValue : String := ""
  provenance : String := ""
  deriving DecidableEq, Repr

/-! ## Patterns -/

/-- Nothing is known of characters outside ASCII. Kind: D -/
def ascii : CharTable := ⟨fun _ => false, fun _ => false⟩

section patterns

variable (t : CharTable)

/-- Source: `graph/constant_resolver.py`, `_PHP_TAINT_SOURCES`. Kind: D -/
def phpTaintSources : List String :=
  ["$_GET", "$_POST", "$_REQUEST", "$_SERVER", "$_COOKIE", "$_FILES", "$_ENV", "$HTTP_RAW_POST_DATA"]

/-- Source: `graph/constant_resolver.py`, `_RE_DEFINE`. Kind: D -/
def reDefine : String := "\\bdefine\\s*\\(\\s*['\"]([A-Za-z_][A-Za-z0-9_]*)['\"]\\s*,\\s*([^)]+?)\\s*\\)"

/-- Source: `graph/constant_resolver.py`, `_RE_CONST`. Kind: D -/
def reConst : String := "\\bconst\\s+([A-Za-z_][A-Za-z0-9_]*)\\s*=\\s*([^;]+?)\\s*;"

/-- Source: `graph/constant_resolver.py`, `_RE_STRING_LITERAL`. Kind: D -/
def isStringLiteral (s : String) : Bool := (matchPrefix t {} "^(['\"])(?:(?!\\1).)*\\1$" s).isSome

/-- Source: `graph/constant_resolver.py`, `_RE_SCALAR`. Kind: D -/
def isScalar (s : String) : Bool :=
  (matchPrefix t { ignoreCase := true } "^(?:true|false|null|-?\\d+(?:\\.\\d+)?)$" s).isSome

/-- Source: `graph/constant_resolver.py`, `_RE_ENV`. Kind: D -/
def readsEnv (s : String) : Bool := found t { ignoreCase := true } "\\b(?:getenv|env)\\s*\\(" s

/-- A variable of PHP in an expression. Source: `graph/constant_resolver.py`, `_classify_value`. Kind: D -/
def hasVariable (s : String) : Bool := found t {} "\\$[A-Za-z_]" s

/-- A name of a constant. Source: `graph/constant_resolver.py`, `_classify_value`. Kind: D -/
def isName (s : String) : Bool := (matchPrefix t {} "^[A-Za-z_][A-Za-z0-9_]*$" s).isSome

/-- A constant in an expression. Kind: D -/
def isConstant (s : String) : Bool := isName t s && !isScalar t s

/-- An expression that is split at its dots. Source: `graph/constant_resolver.py`, `_classify_value`. Kind: D -/
def reachesConcat (s : String) : Bool :=
  !isStringLiteral t s && !isScalar t s && (phpTaintSources.find? (inStr · s)).isNone && !readsEnv t s && !hasVariable t s &&
    inStr "." s

/-- `s[:n]`. Kind: D -/
def clip (n : ℕ) (s : String) : String := String.ofList (s.toList.take n)

/-- `s[1:-1]`. Kind: D -/
def inner (s : String) : String := String.ofList (s.toList.drop 1).dropLast

/-- The declaration of a match. Source: `graph/constant_resolver.py`, `discover_declarations`. Kind: D -/
def toDeclaration (kind : DeclKind) (m : Regex.Match) : ConstantDeclaration where
  name := String.ofList ((m.group 1).getD [])
  valueExpr := strip (String.ofList ((m.group 2).getD []))
  declKind := kind

/-- The matches of the two patterns. Source: `graph/constant_resolver.py`, `discover_declarations`. Kind: D -/
def declarationMatches (sourceText : String) : List (DeclKind × Regex.Match) :=
  (finditer t { dotAll := true } reDefine sourceText).map (Prod.mk .define) ++
    (finditer t { dotAll := true } reConst sourceText).map (Prod.mk .const)

/-- The declarations of a text. Source: `graph/constant_resolver.py`, `discover_declarations`. Kind: D -/
def declared (sourceText : String) : List ConstantDeclaration :=
  (declarationMatches t sourceText).map fun m => toDeclaration m.1 m.2

/-- Source: `graph/constant_resolver.py`, `discover_declarations`. Kind: D -/
def discoverDeclarations (sourceText : String) : Dict String (List ConstantDeclaration) :=
  Dict.groupBy ConstantDeclaration.name (declared t sourceText)

end patterns

/-! ## Concatenations -/

/-- The pieces between the dots that stand outside quotes. Source: `graph/constant_resolver.py`, `_split_php_concat`. Kind: D -/
def pieces (inSingle inDouble : Bool) (current : List Char) : List Char → List (List Char)
  | [] => [current]
  | ch :: rest =>
    if ch = '\'' && !inDouble then pieces (!inSingle) inDouble (current ++ [ch]) rest
    else if ch = '"' && !inSingle then pieces inSingle (!inDouble) (current ++ [ch]) rest
    else if ch = '.' && !inSingle && !inDouble then current :: pieces inSingle inDouble [] rest
    else pieces inSingle inDouble (current ++ [ch]) rest

/-- Source: `graph/constant_resolver.py`, `_split_php_concat`. Kind: D -/
def splitPhpConcat (expr : String) : List String :=
  match ((pieces false false [] expr.toList).map fun piece => strip (String.ofList piece)).filter (· ≠ "") with
  | [] => [expr]
  | parts => parts

/-- The loop over the parts: the first tainted one ends it. Source: `graph/constant_resolver.py`, `_resolve_concat`. Kind: D -/
def concatLoop (classify : String → Option ConstantEvidence) : List String → Option (Except String (Bool × List String))
  | [] => some (.ok (true, []))
  | part :: rest =>
    (classify part).bind fun ev =>
      if ev.resolution = .tainted then some (.error part)
      else (concatLoop classify rest).map fun r =>
        r.map fun acc => (ev.resolution.isStatic && acc.1, ev.resolvedValue :: acc.2)

/-- Source: `graph/constant_resolver.py`, `_resolve_concat`. Kind: D -/
def resolveConcat (classify : String → Option ConstantEvidence) (name expr : String) : Option ConstantEvidence :=
  (concatLoop classify (splitPhpConcat expr)).map fun
    | .error part => { name := name, resolution := .tainted, provenance := "Concat part tainted: " ++ part }
    | .ok (true, resolved) =>
      { name := name, resolution := .derivedStatic, resolvedValue := String.join resolved,
        provenance := "All concat parts static: " ++ clip 80 expr }
    | .ok (false, _) =>
      { name := name, resolution := .unknown, provenance := "Concat has non-static part: " ++ clip 80 expr }

/-! ## Resolution -/

section resolution

variable (t : CharTable) (decls : Dict String (List ConstantDeclaration))

/-- The body, with the calls it makes. Source: `graph/constant_resolver.py`, `_classify_value`. Kind: D -/
def classifyValue (concat look : String → Option ConstantEvidence) (name valueExpr : String) : Option ConstantEvidence :=
  let expr := strip valueExpr
  if isStringLiteral t expr then
    some { name := name, resolution := .staticConstant, resolvedValue := inner expr, provenance := "String literal: " ++ expr }
  else if isScalar t expr then
    some { name := name, resolution := .staticConstant, resolvedValue := expr, provenance := "Scalar literal: " ++ expr }
  else
    match phpTaintSources.find? (inStr · expr) with
    | some src => some { name := name, resolution := .tainted, provenance := "Tainted source: " ++ src }
    | none =>
      if readsEnv t expr then
        some { name := name, resolution := .unknown, provenance := "Environment reference: " ++ clip 60 expr }
      else if hasVariable t expr then
        some { name := name, resolution := .dynamic, provenance := "Variable reference in value: " ++ clip 60 expr }
      else if inStr "." expr then concat expr
      else if isName t expr && !isScalar t expr then
        (look expr).map fun nested =>
          if nested.resolution = .staticConstant then
            { name := name, resolution := .staticConstant, resolvedValue := nested.resolvedValue,
              provenance := "Nested constant '" ++ expr ++ "': " ++ nested.provenance }
          else
            { name := name, resolution := nested.resolution, resolvedValue := nested.resolvedValue,
              provenance := "Inherits from '" ++ expr ++ "': " ++ nested.provenance }
      else some { name := name, resolution := .unknown, provenance := "Cannot classify: " ++ clip 60 expr }

/-- The body, with the calls it makes. Source: `graph/constant_resolver.py`, `_classify_part`. Kind: D -/
def partBody (concat look : String → Option ConstantEvidence) (part : String) : Option ConstantEvidence :=
  let p := strip part
  if inStr "." p && !isStringLiteral t p then concat p
  else if isStringLiteral t p then
    some { name := p, resolution := .staticLiteral, resolvedValue := inner p, provenance := "String literal" }
  else if isScalar t p then
    some { name := p, resolution := .staticLiteral, resolvedValue := p, provenance := "Scalar literal" }
  else
    match phpTaintSources.find? (inStr · p) with
    | some src => some { name := p, resolution := .tainted, provenance := "Tainted: " ++ src }
    | none =>
      if readsEnv t p then some { name := p, resolution := .unknown, provenance := "Env reference" }
      else if hasVariable t p then
        some { name := p, resolution := .dynamic, provenance := "Variable reference: " ++ clip 40 p }
      else if isName t p && !isScalar t p then look p
      else some { name := p, resolution := .unknown, provenance := "Unknown: " ++ clip 40 p }

mutual

/-- Source: `graph/constant_resolver.py`, `resolve`. Kind: D -/
def resolve : ℕ → String → List String → ℕ → Option ConstantEvidence
  | 0, _, _, _ => none
  | fuel + 1, identifier, visited, depth =>
    if 8 < depth then
      some { name := identifier, resolution := .unknown, provenance := "Max resolution depth exceeded" }
    else if identifier ∈ visited then
      some { name := identifier, resolution := .unknown, provenance := "Cycle detected: " ++ identifier }
    else
      match decls.get? identifier with
      | none =>
        some { name := identifier, resolution := .unknown,
               provenance := "No declaration found for '" ++ identifier ++ "'" }
      | some [decl] =>
        classifyValue t
          (fun expr => resolveConcat (fun part => classifyPart fuel part (identifier :: visited) depth) identifier expr)
          (fun expr => resolve fuel expr (identifier :: visited) (depth + 1)) identifier decl.valueExpr
      | some _ =>
        some { name := identifier, resolution := .unknown,
               provenance := "Multiple declarations for '" ++ identifier ++ "' (ambiguous scope)" }

/-- Source: `graph/constant_resolver.py`, `_classify_part`. Kind: D -/
def classifyPart : ℕ → String → List String → ℕ → Option ConstantEvidence
  | 0, _, _, _ => none
  | fuel + 1, part, visited, depth =>
    partBody t (fun expr => resolveConcat (fun part => classifyPart fuel part visited depth) expr expr)
      (fun expr => resolve fuel expr visited (depth + 1)) part

end

end resolution

end KarsaSec.Graph
