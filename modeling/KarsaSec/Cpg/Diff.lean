import KarsaSec.Found.KeyedDiff
import KarsaSec.Query.Model

/-!
# The difference of two graphs as a patch

`cpg/diff.py`: what has to be removed from one graph, replaced in it and added to it to come to another.

* `Edge` is an edge with its metadata, `Graph` is what the comparison reads of a graph.
* `compare` goes by the ids of the nodes, and by the two ends and the type of the edges.
* `patched_nodes`: the nodes come out right for any two graphs.
* `compare_complete_iff`: the patch is complete exactly if the graphs have the same edges, metadata included, for each
  pair of ends and type that both have. It does not count parallel edges, and it does not see metadata change. Edges are compared
  structurally: the order of the metadata keys counts, and `True` and `1` are two values, where Python's `==` says otherwise.
-/

namespace KarsaSec.Cpg

open KarsaSec.Found
open KarsaSec.Query (CPGEdge CPGNode EdgeType Value plainLanguage)

variable {F : Type}

/-- Source: `models.py`, `CPGEdge`, with its metadata. Kind: D -/
structure Edge (F : Type) extends CPGEdge where
  metadata : Dict String (Value F)

/-- The nodes and edges of a graph. Source: `models.py`, `CPGGraph`. Kind: D -/
structure Graph (F : Type) where
  nodes : Dict String (CPGNode F)
  edges : List (Edge F)
  /-- A node is held under its id. -/
  keyed : ∀ k n, nodes.get? k = some n → n.id = k

/-- Source: `diff.py`, `IncrementalPatch`. Kind: D -/
structure IncrementalPatch (F : Type) where
  addedNodes : List (CPGNode F)
  removedNodeIds : List String
  modifiedNodes : List (CPGNode F)
  addedEdges : List (Edge F)
  removedEdges : List (Edge F)

namespace GraphDiff

variable (L : Query.Language F) (old new : Graph F)

/-- `a == b` of two nodes: all fields, the attributes as mappings. Source: `models.py`, `CPGNode`. Kind: D -/
def nodeEq (a b : CPGNode F) : Bool :=
  a.id = b.id && a.nodeType = b.nodeType && a.label = b.label && a.filePath = b.filePath &&
    a.lineNumber = b.lineNumber && a.column = b.column && a.language = b.language && a.labels = b.labels &&
    L.eq (.dict a.attributes.entries) (.dict b.attributes.entries)

/-- `(e.source_id, e.target_id, e.edge_type.value)`. Kind: D -/
def edgeKey (e : Edge F) : String × String × String := (e.sourceId, e.targetId, e.edgeType.value)

/-- Whether the old graph has a node under the id that is not equal to this one. Kind: D -/
def modified (e : String × CPGNode F) : Bool :=
  match old.nodes.get? e.1 with
  | none => false
  | some n => !nodeEq L n e.2

/-- Source: `diff.py`, `compare`. Kind: D -/
def compare : IncrementalPatch F where
  addedNodes := (new.nodes.entries.filter fun e => !old.nodes.contains e.1).map Prod.snd
  removedNodeIds := old.nodes.keys.filter fun i => !new.nodes.contains i
  modifiedNodes := (new.nodes.entries.filter (modified L old)).map Prod.snd
  addedEdges := missingFrom edgeKey old.edges new.edges
  removedEdges := missingFrom edgeKey new.edges old.edges

/-! ## What a patch is for -/

/-- Nodes are put under their ids. Kind: D -/
def putNodes (d : Dict String (CPGNode F)) (ns : List (CPGNode F)) : Dict String (CPGNode F) :=
  (ns.map fun n => (n.id, n)).foldl (fun d p => d.set p.1 p.2) d

/-- The nodes after the patch: some are removed, some replaced, some added. Kind: D -/
def patchedNodes (p : IncrementalPatch F) : Dict String (CPGNode F) :=
  putNodes (putNodes (p.removedNodeIds.foldl Dict.erase old.nodes) p.modifiedNodes) p.addedNodes

/-- The same node, or an equal one. Kind: D -/
def SameNode (a b : CPGNode F) : Prop := a = b ∨ nodeEq L a b = true

/-- The same nodes under the same ids. Kind: D -/
def SameNodes (d d' : Dict String (CPGNode F)) : Prop := ∀ i, Option.Rel (SameNode L) (d.get? i) (d'.get? i)

/-- The same nodes, and the same edges as often. Kind: D -/
def Agrees : Prop := SameNodes L old.nodes new.nodes ∧ old.edges.Perm new.edges

/-- A patch that says nothing. Kind: D -/
def IsEmpty (p : IncrementalPatch F) : Prop :=
  p.addedNodes = [] ∧ p.removedNodeIds = [] ∧ p.modifiedNodes = [] ∧ p.addedEdges = [] ∧ p.removedEdges = []

/-- The patch leads from the old graph to the new one. Kind: D -/
structure Complete (p : IncrementalPatch F) : Prop where
  nodes : SameNodes L (patchedNodes old p) new.nodes
  edges : ∃ kept, old.edges.Perm (kept ++ p.removedEdges) ∧ (kept ++ p.addedEdges).Perm new.edges
  empty : IsEmpty p → Agrees L old new

/-- For each pair of ends and type that both graphs have, they have the same edges, as often and with the same metadata.
Kind: D -/
def EdgesSettled : Prop :=
  ∀ k ∈ old.edges.map edgeKey, k ∈ new.edges.map edgeKey → (withKey edgeKey k old.edges).Perm (withKey edgeKey k new.edges)

/-! ## The nodes -/

variable {L} {old new} {d : Dict String (CPGNode F)} {ns : List (CPGNode F)} {n : CPGNode F} {i : String}

theorem get?_putNodes (hns : (ns.map CPGNode.id).Nodup) : (putNodes d ns).get? i = some n ↔
    (n ∈ ns ∧ n.id = i) ∨ ((∀ m ∈ ns, m.id ≠ i) ∧ d.get? i = some n) := by
  have hfst : ((ns.map fun n => (n.id, n)).map Prod.fst) = ns.map CPGNode.id := by
    rw [List.map_map]
    rfl
  have hnodup : ((ns.map fun n => (n.id, n)).map Prod.fst).Nodup := hfst ▸ hns
  unfold putNodes
  rw [Dict.get?_foldl_set i _ hnodup]
  rcases hlookup : Dict.lookup i (ns.map fun n => (n.id, n)) with _ | m
  · have habsent : ∀ m ∈ ns, m.id ≠ i := by
      rintro m hm rfl
      have hsome := Dict.lookup_of_mem hnodup (List.mem_map.mpr ⟨m, hm, rfl⟩)
      rw [hlookup] at hsome
      cases hsome
    rw [hlookup, Option.none_or]
    exact ⟨fun h => .inr ⟨habsent, h⟩, fun h => h.elim (fun hm => absurd hm.2 (habsent n hm.1)) fun h => h.2⟩
  · obtain ⟨m', hm', heq⟩ := List.mem_map.mp (Dict.mem_of_lookup hlookup)
    obtain ⟨rfl, rfl⟩ := Prod.mk.inj heq
    rw [hlookup, Option.some_or]
    constructor
    · grind
    · rintro (⟨hn, hid⟩ | ⟨hnone, -⟩)
      · rw [List.inj_on_of_nodup_map hns hn hm' hid]
      · exact absurd rfl (hnone m' hm')

/-- A selection of the nodes of a graph. Kind: L -/
theorem mem_selected (g : Graph F) (p : String × CPGNode F → Bool) :
    n ∈ (g.nodes.entries.filter p).map Prod.snd ↔ g.nodes.get? n.id = some n ∧ p (n.id, n) = true := by
  simp only [List.mem_map, List.mem_filter]
  constructor
  · rintro ⟨⟨i, m⟩, ⟨he, hp⟩, rfl⟩
    have hget := Dict.mem_entries.mp he
    obtain rfl := g.keyed i m hget
    exact ⟨hget, hp⟩
  · grind [Dict.mem_entries]

theorem nodup_selected (g : Graph F) (p : String × CPGNode F → Bool) :
    (((g.nodes.entries.filter p).map Prod.snd).map CPGNode.id).Nodup := by
  have hids : ((g.nodes.entries.filter p).map Prod.snd).map CPGNode.id = (g.nodes.entries.filter p).map Prod.fst := by
    rw [List.map_map]
    refine List.map_congr_left fun e he => ?_
    exact g.keyed e.1 e.2 (Dict.mem_entries.mp (List.mem_of_mem_filter he))
  rw [hids]
  exact g.nodes.nodup.sublist (List.filter_sublist.map Prod.fst)

theorem contains_eq_false {d : Dict String (CPGNode F)} : (!d.contains i) = true ↔ d.get? i = none := by
  unfold Dict.contains
  cases d.get? i <;> simp

theorem mem_addedNodes : n ∈ (compare L old new).addedNodes ↔
    new.nodes.get? n.id = some n ∧ old.nodes.get? n.id = none :=
  (mem_selected new _).trans (and_congr_right fun _ => contains_eq_false)

theorem mem_modifiedNodes : n ∈ (compare L old new).modifiedNodes ↔
    new.nodes.get? n.id = some n ∧ modified L old (n.id, n) = true := mem_selected new _

theorem mem_removedNodeIds : i ∈ (compare L old new).removedNodeIds ↔ i ∈ old.nodes.keys ∧ new.nodes.get? i = none :=
  List.mem_filter.trans (and_congr_right fun _ => contains_eq_false)

/-- What is under an id after the patch. Kind: L -/
theorem get?_patchedNodes : (patchedNodes old (compare L old new)).get? i = some n ↔
    (n ∈ (compare L old new).addedNodes ∧ n.id = i) ∨ ((∀ m ∈ (compare L old new).addedNodes, m.id ≠ i) ∧
      ((n ∈ (compare L old new).modifiedNodes ∧ n.id = i) ∨ ((∀ m ∈ (compare L old new).modifiedNodes, m.id ≠ i) ∧
        old.nodes.get? i = some n ∧ i ∉ (compare L old new).removedNodeIds))) := by
  have hadded : ((compare L old new).addedNodes.map CPGNode.id).Nodup := nodup_selected new _
  have hmodified : ((compare L old new).modifiedNodes.map CPGNode.id).Nodup := nodup_selected new _
  unfold patchedNodes
  rw [get?_putNodes hadded, get?_putNodes hmodified, Dict.mem_foldl_erase]

/-- **The nodes come out right for any two graphs.** Kind: P -/
theorem patched_nodes (L : Query.Language F) (old new : Graph F) :
    SameNodes L (patchedNodes old (compare L old new)) new.nodes := by
  intro i
  rcases hnew : new.nodes.get? i with _ | n
  · rcases hpatched : (patchedNodes old (compare L old new)).get? i with _ | m
    · exact .none
    · exfalso
      rcases get?_patchedNodes.mp hpatched with ⟨hm, rfl⟩ | ⟨-, ⟨hm, rfl⟩ | ⟨-, hold, hstays⟩⟩
      · cases hnew.symm.trans (mem_addedNodes.mp hm).1
      · cases hnew.symm.trans (mem_modifiedNodes.mp hm).1
      · grind [mem_removedNodeIds, Dict.get?_isSome]
  · obtain rfl := new.keyed i n hnew
    rcases hold : old.nodes.get? n.id with _ | m
    · have hread : (patchedNodes old (compare L old new)).get? n.id = some n :=
        get?_patchedNodes.mpr (.inl ⟨mem_addedNodes.mpr ⟨hnew, hold⟩, rfl⟩)
      rw [hread]
      exact .some (.inl rfl)
    · have hnone : ∀ m ∈ (compare L old new).addedNodes, m.id ≠ n.id := by grind [mem_addedNodes]
      have hchanged : modified L old (n.id, n) = !nodeEq L m n := by
        unfold modified
        dsimp only
        rw [hold]
      by_cases heq : nodeEq L m n = true
      · have hsame : ∀ m' ∈ (compare L old new).modifiedNodes, m'.id ≠ n.id := by grind [mem_modifiedNodes]
        have hstays : n.id ∉ (compare L old new).removedNodeIds := by simp_all [mem_removedNodeIds]
        rw [get?_patchedNodes.mpr (.inr ⟨hnone, .inr ⟨hsame, hold, hstays⟩⟩)]
        exact .some (.inr heq)
      · have hmod : n ∈ (compare L old new).modifiedNodes := by simp_all [mem_modifiedNodes]
        rw [get?_patchedNodes.mpr (.inr ⟨hnone, .inl ⟨hmod, rfl⟩⟩)]
        exact .some (.inl rfl)

/-! ## The edges -/

/-- A patch that says nothing and leads to the new graph leaves nothing to say. Kind: L -/
theorem agrees_of_empty {p : IncrementalPatch F} (hnodes : SameNodes L (patchedNodes old p) new.nodes)
    (hedges : ∃ kept, old.edges.Perm (kept ++ p.removedEdges) ∧ (kept ++ p.addedEdges).Perm new.edges)
    (hempty : IsEmpty p) : Agrees L old new := by
  obtain ⟨hadded, hremoved, hmodified, haddedE, hremovedE⟩ := hempty
  obtain ⟨kept, hold, hnew⟩ := hedges
  constructor
  · unfold patchedNodes at hnodes
    rw [hadded, hremoved, hmodified] at hnodes
    exact hnodes
  · rw [hremovedE, List.append_nil] at hold
    rw [haddedE, List.append_nil] at hnew
    exact hold.trans hnew

/-- **The patch is complete exactly if the graphs have the same edges for each pair of ends and type that both have.**
Kind: P -/
theorem compare_complete_iff (L : Query.Language F) (old new : Graph F) :
    Complete L old new (compare L old new) ↔ EdgesSettled old new := by
  have hedges := diff_complete_iff edgeKey old.edges new.edges
  constructor
  · exact fun h => hedges.mp h.edges
  · intro h
    have hkept := hedges.mpr h
    exact ⟨patched_nodes L old new, hkept, agrees_of_empty (patched_nodes L old new) hkept⟩

/-! ## An example -/

/-- An edge with a number as metadata. Kind: D -/
def weighted (w : ℤ) : Edge Empty := ⟨⟨"a", "b", .cfgFlow⟩, .ofList [("weight", .int w)]⟩

/-- A graph with these edges. Kind: D -/
def edgesOnly (edges : List (Edge Empty)) : Graph Empty := ⟨.empty, edges, fun _ _ h => nomatch h⟩

/-- The metadata of an edge changes, or an edge is added beside an equal one: the patch is empty. Kind: P -/
theorem change_not_seen : ¬Complete plainLanguage (edgesOnly [weighted 1]) (edgesOnly [weighted 2])
      (compare plainLanguage (edgesOnly [weighted 1]) (edgesOnly [weighted 2])) ∧
    ¬Complete plainLanguage (edgesOnly [weighted 1]) (edgesOnly [weighted 1, weighted 1])
      (compare plainLanguage (edgesOnly [weighted 1]) (edgesOnly [weighted 1, weighted 1])) := by
  constructor
  · intro h
    have hempty : IsEmpty (compare plainLanguage (edgesOnly [weighted 1]) (edgesOnly [weighted 2])) :=
      ⟨rfl, rfl, rfl, rfl, rfl⟩
    have hsame := List.perm_singleton.mp (h.empty hempty).2.symm
    cases hsame
  · intro h
    have hempty : IsEmpty (compare plainLanguage (edgesOnly [weighted 1]) (edgesOnly [weighted 1, weighted 1])) :=
      ⟨rfl, rfl, rfl, rfl, rfl⟩
    have hlength := (h.empty hempty).2.length_eq
    cases hlength

end GraphDiff

end KarsaSec.Cpg
