import KarsaSec.Found.Dict
import KarsaSec.Found.Text
import Mathlib.Data.List.Nodup
import Mathlib.Data.List.Perm.Basic

/-!
# The code property graph and the values at its nodes

`cpg/models.py`: nodes with attributes of any type, typed edges between them, and the graph.

* `Value F` is a value of the language; `F` is the type of the floats and of the objects of other classes, which stay
  outside. A member of an enumeration of texts (`StrEnum`) is its text.
* `Language F` holds what the model takes from the language as it is: the upper case of a text, `str(v)`, `re.search`,
  the floats, and the names that every class and object has as attributes. `none` of `re.search` is an exception.
* `eq`, `truthy`, `hashable`, `within` are `==`, `bool`, `hash` and `in`.
* `CPGGraph` carries what `add_node` and `add_edge` make of its tables: a node is held under its id, and the edges
  that leave or reach a node are those of the graph, in order.
-/

namespace KarsaSec.Query

open KarsaSec.Found

/-! ## Values -/

/-- A value of the language. Kind: D -/
inductive Value (F : Type) where
  | none
  | bool (b : Bool)
  | int (n : ℤ)
  | str (s : String)
  | list (items : List (Value F))
  | tuple (items : List (Value F))
  | set (items : List (Value F))
  | dict (members : List (String × Value F))
  | atom (x : F)

namespace Value

variable {F : Type}

/-- `v is None`. Kind: D -/
def isNone : Value F → Bool
  | none => true
  | _ => false

/-- The items of a list, a tuple or a set. Kind: D -/
def items? : Value F → Option (List (Value F))
  | list items => some items
  | tuple items => some items
  | set items => some items
  | _ => Option.none

/-- `len(v)` of a list, a tuple, a set or a mapping. Kind: D -/
def size? : Value F → Option ℕ
  | dict members => some members.length
  | v => v.items?.map List.length

end Value

/-- Source: `models.py`, `NodeType`. Kind: D -/
inductive NodeType
  | ast
  | ir
  | cfg
  | ssa
  | dataflow
  | taint
  | symbol
  | function
  | callsite
  deriving DecidableEq, Repr

/-- `NodeType.value`, which is the name of the member. Kind: D -/
def NodeType.value : NodeType → String
  | ast => "AST"
  | ir => "IR"
  | cfg => "CFG"
  | ssa => "SSA"
  | dataflow => "DATAFLOW"
  | taint => "TAINT"
  | symbol => "SYMBOL"
  | function => "FUNCTION"
  | callsite => "CALLSITE"

/-- `NodeType[name]`. Kind: D -/
def NodeType.named (name : String) : Option NodeType :=
  [NodeType.ast, .ir, .cfg, .ssa, .dataflow, .taint, .symbol, .function, .callsite].find? fun t => t.value = name

/-- Source: `models.py`, `EdgeType`. Kind: D -/
inductive EdgeType
  | represents
  | loweredTo
  | ssaVersion
  | cfgFlow
  | call
  | returnEdge
  | dataflow
  | dominate
  | postDominate
  | taint
  | importEdge
  | symbol
  deriving DecidableEq, Repr

/-- `EdgeType.name`. Kind: D -/
def EdgeType.name : EdgeType → String
  | represents => "REPRESENTS"
  | loweredTo => "LOWERED_TO"
  | ssaVersion => "SSA_VERSION"
  | cfgFlow => "CFG_FLOW"
  | call => "CALL"
  | returnEdge => "RETURN"
  | dataflow => "DATAFLOW"
  | dominate => "DOMINATE"
  | postDominate => "POST_DOMINATE"
  | taint => "TAINT"
  | importEdge => "IMPORT"
  | symbol => "SYMBOL"

/-- `EdgeType.value`, which is the name of the member. Kind: D -/
def EdgeType.value (t : EdgeType) : String := t.name

/-- Source: `models.py`, `CPGNode`. Kind: D -/
structure CPGNode (F : Type) where
  id : String
  nodeType : NodeType
  label : String
  filePath : String := ""
  lineNumber : ℤ := 1
  column : ℤ := 0
  language : String := "Generic"
  labels : List String := []
  attributes : Dict String (Value F) := .empty

/-- Source: `models.py`, `CPGEdge`. Kind: D -/
structure CPGEdge where
  sourceId : String
  targetId : String
  edgeType : EdgeType
  deriving DecidableEq

/-! ## What the language does with values -/

/-- The parts of the language that are taken as they are. Kind: D -/
structure Language (F : Type) where
  upper : String → String
  /-- A text of capital letters is its own upper case. -/
  upper_of_capital : ∀ s : String, s.toList.all Char.isUpper = true → upper s = s
  text : Value F → String
  /-- A text is written as it is. -/
  text_str : ∀ s, text (.str s) = s
  /-- `re.search(pattern, s)`. -/
  search : String → String → Option Bool
  atomTruthy : F → Bool
  atomEq : F → F → Bool
  atomEqInt : F → ℤ → Bool
  atomHashable : F → Bool
  /-- `hasattr(NodeType, name)` of a name that is not a member's. -/
  typeAttribute : String → Bool
  /-- `getattr(node, name)` of a name that is not a field's. -/
  nodeAttribute : CPGNode F → String → Option (Value F)

namespace Language

variable {F : Type} (L : Language F)

/-- `bool(v)`. Kind: D -/
def truthy : Value F → Bool
  | .none => false
  | .bool b => b
  | .int n => n ≠ 0
  | .str s => s ≠ ""
  | .list items => !items.isEmpty
  | .tuple items => !items.isEmpty
  | .set items => !items.isEmpty
  | .dict members => !members.isEmpty
  | .atom x => L.atomTruthy x

/-- `v == n` of an integer. Kind: D -/
def eqInt (n : ℤ) : Value F → Bool
  | .bool b => n = if b then 1 else 0
  | .int m => n = m
  | .atom x => L.atomEqInt x n
  | _ => false

mutual
/-- `v == w`. A list is no tuple, a truth value is a number, and sets and mappings have no order. Kind: D -/
def eq : Value F → Value F → Bool
  | .none, w => w.isNone
  | .bool b, w => L.eqInt (if b then 1 else 0) w
  | .int n, w => L.eqInt n w
  | .str s, .str t => s = t
  | .list items, .list items' => eqItems items items'
  | .tuple items, .tuple items' => eqItems items items'
  | .set items, .set items' => items.length = items'.length && eqSome items items'
  | .dict members, .dict members' => members.length = members'.length && eqMembers members members'
  | .atom x, .bool b => L.atomEqInt x (if b then 1 else 0)
  | .atom x, .int n => L.atomEqInt x n
  | .atom x, .atom y => L.atomEq x y
  | _, _ => false

/-- Two sequences are equal item by item. Kind: D -/
def eqItems : List (Value F) → List (Value F) → Bool
  | [], [] => true
  | v :: vs, w :: ws => eq v w && eqItems vs ws
  | _, _ => false

/-- Every item is one of the others. Kind: D -/
def eqSome : List (Value F) → List (Value F) → Bool
  | [], _ => true
  | v :: vs, ws => ws.any (fun w => eq v w) && eqSome vs ws

/-- Every member is there with an equal value. Kind: D -/
def eqMembers : List (String × Value F) → List (String × Value F) → Bool
  | [], _ => true
  | (key, v) :: members, members' =>
    (match Dict.lookup key members' with
      | some w => eq v w
      | none => false) && eqMembers members members'
end

mutual
/-- Whether `hash(v)` returns. Kind: D -/
def hashable : Value F → Bool
  | .list _ => false
  | .set _ => false
  | .dict _ => false
  | .tuple items => hashableItems items
  | .atom x => L.atomHashable x
  | _ => true

/-- Whether every item has a hash. Kind: D -/
def hashableItems : List (Value F) → Bool
  | [] => true
  | v :: vs => hashable v && hashableItems vs
end

/-- `v in container` for the value of a membership predicate: a value that is no container stands for the list of it,
and a set wants the hash of what is not a set. Kind: D -/
def within (v : Value F) : Value F → Option Bool
  | .list items => some (items.any (L.eq v))
  | .tuple items => some (items.any (L.eq v))
  | .set items =>
    match v with
    | .set _ => some (items.any (L.eq v))
    | v => if L.hashable v then some (items.any (L.eq v)) else none
  | w => some (L.eq v w)

end Language

/-- A capital letter is its own upper case. Kind: L -/
theorem toUpper_of_isUpper {c : Char} (h : c.isUpper = true) : c.toUpper = c := by
  have hval : c.val ≥ 65 ∧ c.val ≤ 90 := of_decide_eq_true h
  have hlow : ¬ (97 ≤ c.val ∧ c.val ≤ 122) := by grind
  exact dif_neg hlow

/-- A text of capital letters is its own upper case. Kind: L -/
theorem upper_of_capital {s : String} (h : s.toList.all Char.isUpper = true) : upper s = s := by
  have hmap : s.toList.map Char.toUpper = s.toList :=
    (List.map_congr_left fun c hc => toUpper_of_isUpper (List.all_eq_true.mp h c hc)).trans (List.map_id _)
  rw [upper, hmap, String.ofList_toList]

/-- A language without floats and other objects, that cannot search. Kind: D -/
def plainLanguage : Language Empty where
  upper := upper
  upper_of_capital _ := upper_of_capital
  text
    | .str s => s
    | _ => "?"
  text_str _ := rfl
  search _ _ := none
  atomTruthy := Empty.elim
  atomEq x _ := x.elim
  atomEqInt x _ := x.elim
  atomHashable := Empty.elim
  typeAttribute _ := false
  nodeAttribute _ _ := none

/-! ## The graph -/

/-- The edges at a node id, `d.get(node_id, [])`. Kind: D -/
def edgesAt (d : Dict String (List CPGEdge)) (nodeId : String) : List CPGEdge := d.getD nodeId []

/-- A node id gets an entry without edges, if it has none. Kind: D -/
def openEntry (d : Dict String (List CPGEdge)) (nodeId : String) : Dict String (List CPGEdge) :=
  if d.contains nodeId then d else d.set nodeId []

theorem edgesAt_openEntry (d : Dict String (List CPGEdge)) (nodeId k : String) :
    edgesAt (openEntry d nodeId) k = edgesAt d k := by
  unfold openEntry
  split
  · rfl
  · rename_i habsent
    have hnone : d.get? nodeId = none := by
      simpa [Dict.contains] using habsent
    by_cases hk : k = nodeId
    · subst hk
      simp [edgesAt, Dict.getD, hnone]
    · exact Dict.getD_set_ne d hk [] []

theorem edgesAt_pushAt {key : CPGEdge → String} {d : Dict String (List CPGEdge)} {edges : List CPGEdge}
    (h : ∀ k, edgesAt d k = edges.filter fun e => key e = k) (edge : CPGEdge) (k : String) :
    edgesAt (d.pushAt (key edge) edge) k = (edges ++ [edge]).filter fun e => key e = k := by
  have hpush := Dict.getD_foldl_pushAt key k [edge] d
  rw [show d.getD k [] = _ from h k, ← List.filter_append] at hpush
  exact hpush

/-- Source: `models.py`, `CPGGraph`. Kind: D -/
structure CPGGraph (F : Type) where
  nodes : Dict String (CPGNode F)
  edges : List CPGEdge
  adjacencyOut : Dict String (List CPGEdge)
  adjacencyIn : Dict String (List CPGEdge)
  /-- A node is held under its id. -/
  keyed : ∀ k n, nodes.get? k = some n → n.id = k
  out_eq : ∀ k, edgesAt adjacencyOut k = edges.filter fun e => e.sourceId = k
  in_eq : ∀ k, edgesAt adjacencyIn k = edges.filter fun e => e.targetId = k

namespace CPGGraph

variable {F : Type}

theorem keyed_empty (k : String) (n : CPGNode F) (h : Dict.empty.get? k = some n) : n.id = k := by
  cases h

/-- Source: `models.py`, `CPGGraph.__init__`. Kind: D -/
def empty : CPGGraph F where
  nodes := .empty
  edges := []
  adjacencyOut := .empty
  adjacencyIn := .empty
  keyed := keyed_empty
  out_eq _ := rfl
  in_eq _ := rfl

variable (g : CPGGraph F)

theorem keyed_set (node : CPGNode F) (k : String) (n : CPGNode F)
    (h : (g.nodes.set node.id node).get? k = some n) : n.id = k := by
  rw [Dict.get?_set] at h
  split at h
  · rename_i hk
    cases h
    exact hk.symm
  · exact g.keyed k n h

/-- Source: `models.py`, `add_node`. Kind: D -/
def addNode (node : CPGNode F) : CPGGraph F where
  nodes := g.nodes.set node.id node
  edges := g.edges
  adjacencyOut := openEntry g.adjacencyOut node.id
  adjacencyIn := openEntry g.adjacencyIn node.id
  keyed := g.keyed_set node
  out_eq k := (edgesAt_openEntry _ _ _).trans (g.out_eq k)
  in_eq k := (edgesAt_openEntry _ _ _).trans (g.in_eq k)

/-- Source: `models.py`, `add_edge`. Kind: D -/
def addEdge (edge : CPGEdge) : CPGGraph F where
  nodes := g.nodes
  edges := g.edges ++ [edge]
  adjacencyOut := g.adjacencyOut.pushAt edge.sourceId edge
  adjacencyIn := g.adjacencyIn.pushAt edge.targetId edge
  keyed := g.keyed
  out_eq := edgesAt_pushAt g.out_eq edge
  in_eq := edgesAt_pushAt g.in_eq edge

/-- Source: `models.py`, `get_outgoing_edges`. Kind: D -/
def getOutgoingEdges (nodeId : String) : List CPGEdge := edgesAt g.adjacencyOut nodeId

/-- Source: `models.py`, `get_incoming_edges`. Kind: D -/
def getIncomingEdges (nodeId : String) : List CPGEdge := edgesAt g.adjacencyIn nodeId

theorem map_id_values : g.nodes.values.map CPGNode.id = g.nodes.keys := by
  unfold Dict.values Dict.keys
  rw [List.map_map]
  refine List.map_congr_left fun e he => ?_
  exact g.keyed e.1 e.2 (Dict.mem_entries.mp he)

/-- The nodes of a graph have different ids. Kind: L -/
theorem nodup_ids : (g.nodes.values.map CPGNode.id).Nodup := by
  rw [map_id_values]
  exact g.nodes.nodup_keys

end CPGGraph

end KarsaSec.Query
