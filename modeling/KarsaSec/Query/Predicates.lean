import KarsaSec.Found.Asking
import KarsaSec.Query.Model

/-!
# Predicates

`query/ast.py` and `query/predicates.py`: predicates, the mappings they travel as, and what they say of a node.

* `toDict` and `fromDict` write a predicate as a mapping and read one; `fromDict_toDict` is the round trip. A mapping
  that cannot be read raises, `none`.
* `evaluate` is `PredicateEngine.evaluate` at a node; `none` is an exception (of `re.search`, or of a hash that a set
  asks for). `evaluateAll` is the order of `all`: it ends at the first predicate that does not hold.
* `evaluateAll_append`, `evaluateAll_singleton`, `evaluate_and` take conjunctions apart.
-/

namespace KarsaSec.Query

open KarsaSec.Found

variable {F : Type}

/-- Source: `ast.py`, `PredicateNode`. Kind: D -/
inductive PredicateNode (F : Type) where
  | mk (operator target : String) (value : Value F) (args : List (PredicateNode F))

namespace PredicateNode

mutual
/-- Source: `ast.py`, `PredicateNode.to_dict`. Kind: D -/
def toDict : PredicateNode F → Value F
  | mk operator target value args =>
    .dict [("operator", .str operator), ("target", .str target), ("value", value), ("args", .list (toDicts args))]

/-- `[a.to_dict() for a in args]`. Kind: D -/
def toDicts : List (PredicateNode F) → List (Value F)
  | [] => []
  | p :: ps => toDict p :: toDicts ps
end

mutual
/-- Source: `ast.py`, `PredicateNode.from_dict`. Kind: D -/
def fromDict : Value F → Option (PredicateNode F)
  | .dict members =>
    match Dict.lookup "operator" members, Dict.lookup "target" members, argsOf members with
    | some (.str operator), some (.str target), some args =>
      some (mk operator target ((Dict.lookup "value" members).getD .none) args)
    | _, _, _ => none
  | _ => none

/-- The predicates of `data.get("args", [])`. Kind: D -/
def argsOf : List (String × Value F) → Option (List (PredicateNode F))
  | [] => some []
  | (key, v) :: members => if key = "args" then fromItems v else argsOf members

/-- `cls.from_dict(a)` for every `a` in a value; a character of a text and a key of a mapping are no mappings.
Kind: D -/
def fromItems : Value F → Option (List (PredicateNode F))
  | .list items => fromDicts items
  | .tuple items => fromDicts items
  | .set items => fromDicts items
  | .str s => if s = "" then some [] else none
  | .dict members => if members.isEmpty then some [] else none
  | _ => none

/-- `cls.from_dict(a)` for every `a` of a list. Kind: D -/
def fromDicts : List (Value F) → Option (List (PredicateNode F))
  | [] => some []
  | v :: vs =>
    match fromDict v, fromDicts vs with
    | some p, some ps => some (p :: ps)
    | _, _ => none
end

mutual
/-- A predicate is read back from the mapping it is written as. Kind: P -/
theorem fromDict_toDict : (p : PredicateNode F) → fromDict p.toDict = some p
  | mk operator target value args => by
    have hargs : argsOf [("operator", .str operator), ("target", .str target), ("value", value),
        ("args", .list (toDicts args))] = some args := fromDicts_toDicts args
    rw [toDict, fromDict, hargs]
    rfl

theorem fromDicts_toDicts : (ps : List (PredicateNode F)) → fromDicts (toDicts ps) = some ps
  | [] => by rw [toDicts, fromDicts]
  | p :: ps => by rw [toDicts, fromDicts, fromDict_toDict p, fromDicts_toDicts ps]
end

end PredicateNode

namespace PredicateEngine

variable (L : Language F)

/-- The field of a node under a name; a node without a language of its own has none under `language`.
Source: `predicates.py`, `_extract_field`
Kind: D -/
def fieldOf (n : CPGNode F) : String → Option (Value F)
  | "id" => some (.str n.id)
  | "node_type" => some (.str n.nodeType.value)
  | "label" => some (.str n.label)
  | "file_path" => some (.str n.filePath)
  | "line_number" => some (.int n.lineNumber)
  | "column" => some (.int n.column)
  | "language" => if n.language = "Generic" then none else some (.str n.language)
  | "labels" => some (.tuple (n.labels.map .str))
  | "attributes" => some (.dict n.attributes.entries)
  | name => L.nodeAttribute n name

/-- Source: `predicates.py`, `_extract_field`. Kind: D -/
def extractField (name : String) (n : CPGNode F) : Value F :=
  match n.attributes.get? name with
  | some v => v
  | none =>
    match fieldOf L n name with
    | some v => v
    | none => if name = "type" then .str n.nodeType.value else .none

/-- The operators that compare the value of a field.
Source: `predicates.py`, `evaluate`
Kind: D -/
def compare (op : String) (v value : Value F) : Option Bool :=
  match op with
  | "EQUALS" => some (L.eq v value)
  | "NOT_EQUALS" => some (!L.eq v value)
  | "CONTAINS" => some (L.truthy v && inStr (L.text value) (L.text v))
  | "STARTSWITH" => some (L.truthy v && startsWith (L.text value) (L.text v))
  | "ENDSWITH" => some (L.truthy v && (L.text value).toList.isSuffixOf (L.text v).toList)
  | "REGEX" => if L.truthy v && L.truthy value then L.search (L.text value) (L.text v) else some false
  | "MATCHES" => if L.truthy v && L.truthy value then L.search (L.text value) (L.text v) else some false
  | "IN" => L.within v value
  | "NOT_IN" => (L.within v value).map not
  | "EXISTS" => some (!v.isNone)
  | "COUNT" =>
    match v.size? with
    | some n => some (L.eqInt n value)
    | none => some false
  | _ => some (L.eq v value)

mutual
/-- Source: `predicates.py`, `evaluate`. Kind: D -/
def evaluate (n : CPGNode F) : PredicateNode F → Option Bool
  | .mk operator target value args =>
    match L.upper operator with
    | "AND" => evaluateAll n args
    | "OR" => evaluateAny n args
    | "NOT" => (evaluateAll n args).map not
    | op => compare L op (extractField L target n) value

/-- `all(cls.evaluate(arg, target_obj) for arg in args)`. Kind: D -/
def evaluateAll (n : CPGNode F) : List (PredicateNode F) → Option Bool
  | [] => some true
  | p :: ps =>
    match evaluate n p with
    | some true => evaluateAll n ps
    | r => r

/-- `any(cls.evaluate(arg, target_obj) for arg in args)`. Kind: D -/
def evaluateAny (n : CPGNode F) : List (PredicateNode F) → Option Bool
  | [] => some false
  | p :: ps =>
    match evaluate n p with
    | some false => evaluateAny n ps
    | r => r
end

@[simp] theorem evaluateAll_nil (n : CPGNode F) : evaluateAll L n [] = some true := by
  rw [evaluateAll]

/-- The other predicates are asked after a yes. Kind: L -/
theorem evaluateAll_cons (n : CPGNode F) (p : PredicateNode F) (ps : List (PredicateNode F)) :
    evaluateAll L n (p :: ps) = andThen (fun n => evaluate L n p) (fun n => evaluateAll L n ps) n := by
  rw [evaluateAll]
  rfl

@[simp] theorem evaluateAll_singleton (n : CPGNode F) (p : PredicateNode F) :
    evaluateAll L n [p] = evaluate L n p := by
  rw [evaluateAll_cons, andThen]
  split
  · rename_i hp
    rw [hp, evaluateAll_nil]
  · rfl

/-- A conjunction of two lists asks the second after the first. Kind: P -/
theorem evaluateAll_append (n : CPGNode F) (ps qs : List (PredicateNode F)) :
    evaluateAll L n (ps ++ qs) = andThen (fun n => evaluateAll L n ps) (fun n => evaluateAll L n qs) n := by
  induction ps with
  | nil =>
    rw [List.nil_append, andThen, evaluateAll_nil]
  | cons p ps ih =>
    rw [List.cons_append, evaluateAll_cons, andThen, ih, andThen, andThen, evaluateAll_cons, andThen]
    cases evaluate L n p with
    | none => rfl
    | some answer => cases answer <;> rfl

/-- The capital letters of an operator stay. Kind: L -/
theorem evaluate_and (n : CPGNode F) (target : String) (value : Value F) (args : List (PredicateNode F)) :
    evaluate L n (.mk "AND" target value args) = evaluateAll L n args := by
  rw [evaluate, L.upper_of_capital "AND" (by decide)]
  rfl

/-- A comparison with a value never raises. Kind: L -/
theorem evaluate_equals (n : CPGNode F) (target : String) (value : Value F) (args : List (PredicateNode F)) :
    evaluate L n (.mk "EQUALS" target value args) = some (L.eq (extractField L target n) value) := by
  rw [evaluate, L.upper_of_capital "EQUALS" (by decide)]
  rfl

theorem evaluateAll_of_answers {n : CPGNode F} {answer : PredicateNode F → Bool} {ps : List (PredicateNode F)}
    (h : ∀ p ∈ ps, evaluate L n p = some (answer p)) : evaluateAll L n ps = some (ps.all answer) := by
  induction ps with
  | nil => rw [evaluateAll_nil, List.all_nil]
  | cons p ps ih =>
    have hps := ih fun q hq => h q (List.mem_cons_of_mem _ hq)
    rw [evaluateAll_cons, andThen, h p List.mem_cons_self, hps, List.all_cons]
    cases answer p <;> rfl

/-- Predicates that answer may be asked in any order. Kind: P -/
theorem evaluateAll_perm {n : CPGNode F} {ps qs : List (PredicateNode F)} (hperm : ps.Perm qs)
    (h : ∀ p ∈ ps, (evaluate L n p).isSome = true) : evaluateAll L n ps = evaluateAll L n qs := by
  have hanswer : ∀ p ∈ ps, evaluate L n p = some ((evaluate L n p).getD false) := by grind [Option.isSome_iff_exists]
  rw [evaluateAll_of_answers L hanswer, evaluateAll_of_answers L fun p hp => hanswer p (hperm.mem_iff.mpr hp),
    hperm.all_eq]

end PredicateEngine

end KarsaSec.Query
