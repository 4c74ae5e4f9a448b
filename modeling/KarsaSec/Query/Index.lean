import KarsaSec.Found.Copies
import KarsaSec.Query.Model

/-!
# The index

`cpg/index.py`: the tables of nodes by id, file, function, label and type that the executor looks up.

* `indexNode` enters one node under its keys. The tables by line, language and further attributes are never read by
  the executor and are left out, and so are function names that are no texts, which no lookup asks for. A function name
  without a hash raises, `none`.
* `buildIndex` enters the nodes of a graph in their order. `buildIndex_eq` says when it returns and what.
* `byId_build`, `byFile_build`, `byFunction_build`, `byLabel_build`, `byType_build`: what the index of a graph holds
  under a key, as copies of the nodes of the graph.
-/

namespace KarsaSec.Query

open KarsaSec.Found

variable {F : Type} (L : Language F)

/-- Source: `index.py`, `GraphIndex`. Kind: D -/
structure GraphIndex (F : Type) where
  byId : Dict String (CPGNode F) := .empty
  byFile : Dict String (List (CPGNode F)) := .empty
  byFunction : Dict String (List (CPGNode F)) := .empty
  byLabel : Dict String (List (CPGNode F)) := .empty
  byType : Dict NodeType (List (CPGNode F)) := .empty

namespace CPGNode

variable (n : CPGNode F)

/-- The key of a node in the table of files: a path that is not empty. Kind: D -/
def fileKeys : List String := if n.filePath = "" then [] else [n.filePath]

/-- `node.attributes.get("function_name")`, unless it counts as false. Kind: D -/
def functionName : Option (Value F) := (n.attributes.get? "function_name").filter L.truthy

/-- The key of a node in the table of functions, of those that are texts. Kind: D -/
def functionKeys : List String :=
  match n.functionName L with
  | some (.str name) => [name]
  | _ => []

/-- The function name of a node can be a key. Kind: D -/
def indexable : Bool :=
  match n.functionName L with
  | some name => L.hashable name
  | none => true

end CPGNode

namespace GraphIndex

/-- A node is entered in every table. Kind: D -/
def enter (idx : GraphIndex F) (node : CPGNode F) : GraphIndex F where
  byId := idx.byId.set node.id node
  byFile := idx.byFile.pushAll node.fileKeys node
  byFunction := idx.byFunction.pushAll (node.functionKeys L) node
  byLabel := idx.byLabel.pushAll node.labels node
  byType := idx.byType.pushAll [node.nodeType] node

/-- Source: `index.py`, `index_node`. Kind: D -/
def indexNode (idx : GraphIndex F) (node : CPGNode F) : Option (GraphIndex F) :=
  if node.indexable L then some (idx.enter L node) else none

/-- Source: `index.py`, `build_index`. Kind: D -/
def buildIndex (g : CPGGraph F) : Option (GraphIndex F) := g.nodes.values.foldlM (indexNode L) {}

/-- The index of a list of nodes. Kind: D -/
def ofNodes (nodes : List (CPGNode F)) : GraphIndex F := nodes.foldl (enter L) {}

theorem foldlM_indexNode (nodes : List (CPGNode F)) (idx : GraphIndex F) :
    nodes.foldlM (indexNode L) idx =
      if nodes.all (fun n => n.indexable L) then some (nodes.foldl (enter L) idx) else none := by
  induction nodes generalizing idx with
  | nil => rfl
  | cons n nodes ih =>
    rw [List.foldlM_cons, indexNode, List.all_cons, List.foldl_cons]
    by_cases hn : n.indexable L = true
    · simp [hn, ih]
    · simp [hn]

/-- The index of a graph is built exactly if all function names have a hash. Kind: P -/
theorem buildIndex_eq (g : CPGGraph F) :
    buildIndex L g = if g.nodes.values.all (fun n => n.indexable L) then some (ofNodes L g.nodes.values) else none :=
  foldlM_indexNode L g.nodes.values {}

variable (g : CPGGraph F)

/-- A node with one key stands under this key only. Kind: L -/
theorem copies_one_key {κ : Type} [DecidableEq κ] (key : CPGNode F → κ) (k : κ) (nodes : List (CPGNode F)) :
    copies (fun n => [key n].count k) nodes = nodes.filter fun n => key n = k := by
  rw [← copies_ite]
  apply copies_congr
  intro n _
  simp [List.count_singleton]

theorem byId_ofNodes : (ofNodes L g.nodes.values).byId = g.nodes := by
  have hids : g.nodes.values.map (fun n => (n.id, n)) = g.nodes.entries := by
    unfold Dict.values
    rw [List.map_map]
    conv_rhs => rw [← List.map_id g.nodes.entries]
    refine List.map_congr_left fun e he => ?_
    exact Prod.ext (g.keyed e.1 e.2 (Dict.mem_entries.mp he)) rfl
  have hfold : (ofNodes L g.nodes.values).byId = Dict.ofList g.nodes.entries := by
    rw [← hids, Dict.ofList, List.foldl_map]
    exact (List.foldl_hom GraphIndex.byId fun _ _ => rfl).symm
  rw [hfold]
  exact Dict.ext (Dict.entries_ofList g.nodes.nodup)

/-- What the index of a graph holds under an id. Kind: P -/
theorem byId_build (key : String) :
    ((ofNodes L g.nodes.values).byId.get? key).toList = copies (fun n => [n.id].count key) g.nodes.values := by
  rw [byId_ofNodes, copies_one_key, Dict.get?, Dict.toList_lookup key g.nodes.nodup, Dict.values, List.filter_map]
  congr 1
  apply List.filter_congr
  intro e he
  simp [g.keyed e.1 e.2 (Dict.mem_entries.mp he)]

/-- A table of the index holds under a key the nodes entered under it. Kind: L -/
theorem table_ofNodes {κ : Type} [DecidableEq κ] (table : GraphIndex F → Dict κ (List (CPGNode F)))
    (keys : CPGNode F → List κ) (hstart : table {} = .empty)
    (henter : ∀ idx n, table (enter L idx n) = (table idx).pushAll (keys n) n) (nodes : List (CPGNode F)) (key : κ) :
    (table (ofNodes L nodes)).getD key [] = copies (fun n => (keys n).count key) nodes := by
  have hfold : table (ofNodes L nodes) = nodes.foldl (fun d n => d.pushAll (keys n) n) (table {}) :=
    (List.foldl_hom table fun idx n => (henter idx n).symm).symm
  rw [hfold, Dict.getD_foldl_pushAll, hstart]
  rfl

variable (nodes : List (CPGNode F))

/-- What the index holds under a path. Kind: P -/
theorem byFile_build (key : String) :
    (ofNodes L nodes).byFile.getD key [] = copies (fun n => n.fileKeys.count key) nodes :=
  table_ofNodes L GraphIndex.byFile _ rfl (fun _ _ => rfl) nodes key

/-- What the index holds under a function name. Kind: P -/
theorem byFunction_build (key : String) :
    (ofNodes L nodes).byFunction.getD key [] = copies (fun n => (n.functionKeys L).count key) nodes :=
  table_ofNodes L GraphIndex.byFunction _ rfl (fun _ _ => rfl) nodes key

/-- What the index holds under a label. Kind: P -/
theorem byLabel_build (key : String) :
    (ofNodes L nodes).byLabel.getD key [] = copies (fun n => n.labels.count key) nodes :=
  table_ofNodes L GraphIndex.byLabel _ rfl (fun _ _ => rfl) nodes key

/-- What the index holds under a node type. Kind: P -/
theorem byType_build (key : NodeType) :
    (ofNodes L nodes).byType.getD key [] = nodes.filter fun n => n.nodeType = key :=
  (table_ofNodes L GraphIndex.byType _ rfl (fun _ _ => rfl) nodes key).trans (copies_one_key CPGNode.nodeType key nodes)

end GraphIndex

end KarsaSec.Query
