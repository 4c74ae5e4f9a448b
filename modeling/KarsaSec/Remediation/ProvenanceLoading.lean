import KarsaSec.Remediation.Provenance
import KarsaSec.Remediation.LifecycleHistory

/-!
# Loading a provenance graph

What `from_dict` makes of a document, and what it leaves out without a word.

* `WellLinked` is the contract of a set of nodes; every graph has it (`validateIntegrity_iff`).
* `addNode_of_linked` says when a node is taken; `fromDict_ok` that loading never fails on the nodes that the queue
  reaches.
* `arrange_perm_iff`: the queue reaches all nodes of a document just if they are well linked.
* `loading_exact` joins this with the round trip of a graph. `orphan_dropped` is a node that vanishes.
-/

namespace KarsaSec.Remediation

open KarsaSec.Found

namespace RemediationProvenanceGraph

variable {host : Host}

/-! ## Well-linked nodes -/

/-- The identities of nodes. Kind: D -/
def ids (nodes : List (ProvenanceNode host)) : List String := nodes.map (·.nodeId)

/-- Nodes that make a graph: each identity once, every predecessor there, and no node its own ancestor.
Source: `provenance.py`, invariants P2-P4
Kind: C -/
structure WellLinked (nodes : List (ProvenanceNode host)) : Prop where
  nodup : (ids nodes).Nodup
  linked : ∀ n ∈ nodes, ∀ pred ∈ n.predecessorNodeIds, pred ∈ ids nodes
  acyclic : ∀ k, ¬Relation.TransGen (fun p c => (p, c) ∈ edges nodes) k k

theorem mem_edges {nodes : List (ProvenanceNode host)} {p c : String} :
    (p, c) ∈ edges nodes ↔ ∃ n ∈ nodes, p ∈ n.predecessorNodeIds ∧ n.nodeId = c := by
  simp [edges]

theorem mem_ids {nodes : List (ProvenanceNode host)} {k : String} :
    k ∈ ids nodes ↔ ∃ n ∈ nodes, n.nodeId = k := by
  simp [ids]

theorem keys_nodeMap {nodes : List (ProvenanceNode host)} {k : String} :
    k ∈ (nodeMap nodes).keys ↔ k ∈ ids nodes := by
  simp [nodeMap, Dict.mem_keys_ofList, ids]

theorem edges_into (nodes : List (ProvenanceNode host)) :
    ∀ e ∈ edges nodes, e.2 ∈ (nodeMap nodes).keys := by
  rintro ⟨p, c⟩ he
  obtain ⟨n, hn, -, rfl⟩ := mem_edges.mp he
  exact keys_nodeMap.mpr (mem_ids.mpr ⟨n, hn, rfl⟩)

/-- With each identity once, the dictionary of the nodes lists them as they stand. Kind: L -/
theorem keys_nodeMap_of_nodup {nodes : List (ProvenanceNode host)} (h : (ids nodes).Nodup) :
    (nodeMap nodes).keys = ids nodes := by
  have hentries : (nodeMap nodes).entries = nodes.map fun n => (n.nodeId, n) := by
    refine Dict.entries_ofList ?_
    rw [List.map_map]
    exact h
  unfold Dict.keys
  rw [hentries, List.map_map]
  rfl

theorem get?_nodeMap {nodes : List (ProvenanceNode host)} {k : String} {n : ProvenanceNode host}
    (h : (nodeMap nodes).get? k = some n) : n ∈ nodes ∧ n.nodeId = k := by
  have hmem := Dict.mem_of_get?_ofList h
  obtain ⟨n', hn', heq⟩ := List.mem_map.mp hmem
  cases heq
  exact ⟨hn', rfl⟩

theorem WellLinked.perm {nodes nodes' : List (ProvenanceNode host)} (h : WellLinked nodes)
    (hperm : nodes.Perm nodes') : WellLinked nodes' := by
  have hids : ∀ k, k ∈ ids nodes' ↔ k ∈ ids nodes := fun k => (hperm.map _).mem_iff.symm
  have hedges : ∀ e, e ∈ edges nodes' ↔ e ∈ edges nodes := fun e =>
    (hperm.flatMap_right _).mem_iff.symm
  refine ⟨(hperm.map _).nodup_iff.mp h.nodup, fun n hn pred hpred => ?_, ?_⟩
  · exact (hids pred).mpr (h.linked n (hperm.mem_iff.mpr hn) pred hpred)
  · simp only [hedges]
    exact h.acyclic

/-- Among well-linked nodes no edge is left aside. Kind: L -/
theorem WellLinked.edges_within {nodes : List (ProvenanceNode host)} (h : WellLinked nodes) :
    ∀ e ∈ edges nodes, e.1 ∈ (nodeMap nodes).keys ∧ e.2 ∈ (nodeMap nodes).keys := by
  rintro ⟨p, c⟩ he
  refine ⟨?_, edges_into nodes (p, c) he⟩
  obtain ⟨n, hn, hpred, -⟩ := mem_edges.mp he
  exact keys_nodeMap.mpr (h.linked n hn p hpred)

/-! ## The checks of the constructor -/

theorem checkNodes_ok {nodes : List (ProvenanceNode host)} {seenIds : List String} :
    checkNodes seenIds nodes = .ok () ↔
      (ids nodes).Nodup ∧ (∀ k ∈ ids nodes, k ∉ seenIds) ∧
        ∀ n ∈ nodes, n.nodeId ∉ n.predecessorNodeIds := by
  induction nodes generalizing seenIds with
  | nil => simp [checkNodes, ids]
  | cons node rest ih =>
    have hfp : ¬node.fingerprint ≠ node.expectedFp host := not_not.mpr node.fingerprint_eq
    rw [checkNodes]
    by_cases hseen : node.nodeId ∈ seenIds
    · rw [if_pos hseen]
      refine iff_of_false (by simp) fun h => ?_
      exact h.2.1 node.nodeId (by simp [ids]) hseen
    · by_cases hself : node.nodeId ∈ node.predecessorNodeIds
      · simp_all
      · rw [if_neg hseen, if_neg hself, if_neg hfp, ih]
        have hcons : ids (node :: rest) = node.nodeId :: ids rest := rfl
        simp only [hcons, List.nodup_cons, List.forall_mem_cons, List.mem_append,
          List.mem_singleton, not_or]
        constructor
        · grind
        · grind

theorem checkPredecessors_ok {seenIds : List String} {nodes : List (ProvenanceNode host)} :
    checkPredecessors seenIds nodes = .ok () ↔
      ∀ n ∈ nodes, ∀ pred ∈ n.predecessorNodeIds, pred ∈ seenIds := by
  induction nodes with
  | nil => simp [checkPredecessors]
  | cons node rest ih =>
    rw [checkPredecessors, List.forall_mem_cons]
    split
    · grind
    · simp_all

/-- The cycle check on nodes whose predecessors are all there: the queue reaches every node. Kind: L -/
theorem detectCycle_ok {nodes : List (ProvenanceNode host)} (hnodup : (ids nodes).Nodup)
    (hlinked : ∀ n ∈ nodes, ∀ pred ∈ n.predecessorNodeIds, pred ∈ ids nodes) :
    detectCycle nodes = .ok () ↔
      ∀ k, ¬Relation.TransGen (fun p c => (p, c) ∈ edges nodes) k k := by
  have hkeys := keys_nodeMap_of_nodup hnodup
  have hwithin : ∀ e ∈ edges nodes, e.1 ∈ ids nodes ∧ e.2 ∈ ids nodes := by grind [mem_edges, mem_ids]
  have hfilter : (edges nodes).filter (fun e => e.1 ∈ ids nodes) = edges nodes := by grind [List.filter_eq_self]
  have horder := Topo.order_spec hnodup fun e he => (hwithin e he).2
  have hlength : (ids nodes).length = nodes.length := List.length_map _
  unfold detectCycle
  simp only [hkeys, hfilter]
  constructor
  · intro h
    split at h
    · cases h
    · next hlen =>
        have hsub : ∀ k ∈ ids nodes, k ∈ Topo.order (ids nodes) (edges nodes) := by
          have hperm := horder.nodup.subperm fun k => horder.subset k
          have hperm' := hperm.perm_of_length_le (by omega)
          exact fun k hk => hperm'.mem_iff.mpr hk
        exact horder.before.acyclic fun e he => hsub e.2 (hwithin e he).2
  · intro h
    have hsub := Topo.mem_order_of_acyclic hnodup hwithin h
    have hle := horder.nodup.length_le_of_subset fun k => horder.subset k
    have hge := hnodup.length_le_of_subset hsub
    rw [if_neg (by omega)]

/-- The constructor takes just the well-linked nodes.
Source: `provenance.py`, `validate_integrity`
Kind: P -/
theorem validateIntegrity_iff {nodes : List (ProvenanceNode host)} :
    validateIntegrity nodes = .ok () ↔ WellLinked nodes := by
  constructor
  · intro h
    obtain ⟨_, hnodes, h⟩ := bind_ok h
    obtain ⟨_, hpreds, h⟩ := bind_ok h
    have hnodup := (checkNodes_ok.mp hnodes).1
    have hlinked := checkPredecessors_ok.mp hpreds
    exact ⟨hnodup, hlinked, (detectCycle_ok hnodup hlinked).mp h⟩
  · intro h
    have hself : ∀ n ∈ nodes, n.nodeId ∉ n.predecessorNodeIds := fun n hn hmem =>
      h.acyclic n.nodeId (Relation.TransGen.single (mem_edges.mpr ⟨n, hn, hmem, rfl⟩))
    have hnodes : checkNodes [] nodes = .ok () :=
      checkNodes_ok.mpr ⟨h.nodup, fun _ _ => List.not_mem_nil, hself⟩
    have hpreds : checkPredecessors (nodes.map (·.nodeId)) nodes = .ok () :=
      checkPredecessors_ok.mpr h.linked
    unfold validateIntegrity
    rw [hnodes, hpreds]
    exact (detectCycle_ok h.nodup h.linked).mpr h.acyclic

theorem wellLinked (g : RemediationProvenanceGraph host) : WellLinked g.nodes :=
  validateIntegrity_iff.mp g.checked

/-! ## Adding nodes -/

theorem create_of_wellLinked {nodes : List (ProvenanceNode host)} (h : WellLinked nodes) :
    ∃ g, create nodes = .ok g ∧ g.nodes = nodes := by
  have hchecked := validateIntegrity_iff.mpr h
  unfold create
  split
  · exact ⟨_, rfl, rfl⟩
  · simp_all

/-- A new node whose predecessors are there closes no cycle: nothing names it. Kind: L -/
theorem WellLinked.snoc {nodes : List (ProvenanceNode host)} {node : ProvenanceNode host}
    (h : WellLinked nodes) (hnew : node.nodeId ∉ ids nodes)
    (hpreds : ∀ pred ∈ node.predecessorNodeIds, pred ∈ ids nodes) : WellLinked (nodes ++ [node]) := by
  have hids : ids (nodes ++ [node]) = ids nodes ++ [node.nodeId] := by simp [ids]
  have hedge : ∀ p c, (p, c) ∈ edges (nodes ++ [node]) →
      p ∈ ids nodes ∧ (c ≠ node.nodeId → (p, c) ∈ edges nodes) := by
    intro p c he
    obtain ⟨n, hn, hpred, rfl⟩ := mem_edges.mp he
    rcases List.mem_append.mp hn with hn | hn
    · exact ⟨h.linked n hn p hpred, fun _ => mem_edges.mpr ⟨n, hn, hpred, rfl⟩⟩
    · simp_all
  have hold : ∀ a b, Relation.TransGen (fun p c => (p, c) ∈ edges (nodes ++ [node])) a b →
      b ≠ node.nodeId → Relation.TransGen (fun p c => (p, c) ∈ edges nodes) a b := by
    intro a b hab
    induction hab with
    | single hstep => exact fun hb => Relation.TransGen.single ((hedge _ _ hstep).2 hb)
    | tail _ hstep ih =>
      intro hb
      have hmid := ih fun heq => hnew (heq ▸ (hedge _ _ hstep).1)
      exact hmid.tail ((hedge _ _ hstep).2 hb)
  constructor
  · rw [hids, List.nodup_append]
    refine ⟨h.nodup, List.nodup_singleton _, fun k hk k' hk' heq => ?_⟩
    rw [List.mem_singleton] at hk'
    exact hnew (hk' ▸ heq ▸ hk)
  · intro n hn pred hpred
    rw [hids, List.mem_append]
    rcases List.mem_append.mp hn with hn | hn
    · exact Or.inl (h.linked n hn pred hpred)
    · rw [List.mem_singleton.mp hn] at hpred
      exact Or.inl (hpreds pred hpred)
  · intro k hcycle
    obtain ⟨c, hstep, -⟩ := Relation.TransGen.head'_iff.mp hcycle
    have hk : k ≠ node.nodeId := fun heq => hnew (heq ▸ (hedge k c hstep).1)
    exact h.acyclic k (hold k k hcycle hk)

/-- A node is taken if it is new and its predecessors are there. Kind: L -/
theorem addNode_of_linked {g : RemediationProvenanceGraph host} {node : ProvenanceNode host}
    (hnew : node.nodeId ∉ ids g.nodes)
    (hpreds : ∀ pred ∈ node.predecessorNodeIds, pred ∈ ids g.nodes) :
    ∃ g', g.addNode node = .ok g' ∧ g'.nodes = g.nodes ++ [node] := by
  have hlinked := g.wellLinked.snoc hnew hpreds
  have hself : node.nodeId ∉ node.predecessorNodeIds := fun hmem => hnew (hpreds _ hmem)
  have hfind : node.predecessorNodeIds.find? (fun pred => pred ∉ ids g.nodes) = none :=
    List.find?_eq_none.mpr fun pred hpred => by simpa using hpreds pred hpred
  have hcycle : detectCycle (g.nodes ++ [node]) = .ok () :=
    (detectCycle_ok hlinked.nodup hlinked.linked).mpr hlinked.acyclic
  obtain ⟨g', hg', hnodes⟩ := create_of_wellLinked hlinked
  refine ⟨g', ?_, hnodes⟩
  unfold addNode
  unfold ids at hnew hfind
  simp only [if_neg hnew, if_neg hself, hfind, hcycle]
  exact hg'

/-- Nodes in order are added one by one, and none is turned away. Kind: L -/
theorem addNodes_ok {l : List (ProvenanceNode host)} (hnodup : (ids l).Nodup)
    (hbefore : ∀ pre n post, l = pre ++ n :: post → ∀ pred ∈ n.predecessorNodeIds, pred ∈ ids pre) :
    ∃ g, l.foldlM addNode (empty : RemediationProvenanceGraph host) = .ok g ∧ g.nodes = l := by
  induction l using List.reverseRecOn with
  | nil => exact ⟨empty, rfl, rfl⟩
  | append_singleton l n ih =>
    have hids : ids (l ++ [n]) = ids l ++ [n.nodeId] := by simp [ids]
    rw [hids, List.nodup_append] at hnodup
    obtain ⟨g, hg, hnodes⟩ := ih hnodup.1 fun pre m post heq =>
      hbefore pre m (post ++ [n]) (by rw [heq]; simp)
    have hnew : n.nodeId ∉ ids g.nodes := by grind
    have hpreds : ∀ pred ∈ n.predecessorNodeIds, pred ∈ ids g.nodes := by
      rw [hnodes]
      exact hbefore l n [] rfl
    obtain ⟨g', hg', hnodes'⟩ := addNode_of_linked hnew hpreds
    refine ⟨g', ?_, by rw [hnodes', hnodes]⟩
    rw [List.foldlM_append, hg]
    simp only [Bind.bind, Except.bind, List.foldlM_cons, List.foldlM_nil, hg']
    rfl

/-! ## What the queue reaches -/

theorem ids_arrange (raw : List (ProvenanceNode host)) :
    ids (arrange raw) = Topo.order (nodeMap raw).keys (edges raw) := by
  have hsub := (Topo.order_spec (nodeMap raw).nodup_keys (edges_into raw)).subset
  have hlist : ∀ l : List String, (∀ k ∈ l, k ∈ (nodeMap raw).keys) →
      ids (l.filterMap (nodeMap raw).get?) = l := by
    intro l hl
    induction l with
    | nil => rfl
    | cons k l ih =>
      rw [List.forall_mem_cons] at hl
      obtain ⟨n, hn⟩ := Option.isSome_iff_exists.mp (Dict.get?_isSome.mpr hl.1)
      have hid := (get?_nodeMap hn).2
      rw [List.filterMap_cons, hn]
      change n.nodeId :: ids (l.filterMap (nodeMap raw).get?) = k :: l
      rw [hid, ih hl.2]
  exact hlist _ hsub

theorem mem_arrange {raw : List (ProvenanceNode host)} {n : ProvenanceNode host}
    (h : n ∈ arrange raw) : n ∈ raw := by
  obtain ⟨k, -, hk⟩ := List.mem_filterMap.mp h
  exact (get?_nodeMap hk).1

/-- The nodes that the queue reaches are added without an error. Kind: L -/
theorem arrange_added (raw : List (ProvenanceNode host)) :
    ∃ g, (arrange raw).foldlM addNode (empty : RemediationProvenanceGraph host) = .ok g ∧
      g.nodes = arrange raw := by
  have horder := Topo.order_spec (nodeMap raw).nodup_keys (edges_into raw)
  rw [← ids_arrange] at horder
  refine addNodes_ok horder.nodup fun pre n post heq pred hpred => ?_
  have hn : n ∈ raw := mem_arrange (by rw [heq]; simp)
  refine horder.before (ids pre) n.nodeId (ids post) ?_ pred (mem_edges.mpr ⟨n, hn, hpred, rfl⟩)
  rw [heq]
  simp [ids]

/-- Reading a document raises only while its nodes are read, and gives the nodes that the queue reaches.
Source: `provenance.py`, `RemediationProvenanceGraph.from_dict`
Kind: P -/
theorem fromDict_ok {F : Type} {w : Wording F} {data : List (String × Json F)}
    {raw : List (ProvenanceNode host)} (h : readNodes host w data = .ok raw) :
    ∃ g, fromDict host w data = .ok g ∧ g.nodes = arrange raw := by
  obtain ⟨g, hg, hnodes⟩ := arrange_added raw
  refine ⟨g, ?_, hnodes⟩
  unfold fromDict
  rw [h]
  exact hg

theorem filterMap_nodeMap {raw : List (ProvenanceNode host)} (h : (ids raw).Nodup) :
    (ids raw).filterMap (nodeMap raw).get? = raw := by
  have hentries : (nodeMap raw).entries = raw.map fun n => (n.nodeId, n) := by
    refine Dict.entries_ofList ?_
    rw [List.map_map]
    exact h
  have hget : ∀ n ∈ raw, ((nodeMap raw).get? ∘ (·.nodeId)) n = some n := by grind [Dict.mem_entries, List.mem_map_of_mem]
  unfold ids
  rw [List.filterMap_map, List.filterMap_congr hget, List.filterMap_some]

/-- The queue reaches all nodes just if they are well linked. Kind: L -/
theorem arrange_perm_iff {raw : List (ProvenanceNode host)} :
    (arrange raw).Perm raw ↔ WellLinked raw := by
  constructor
  · intro hperm
    obtain ⟨g, -, hnodes⟩ := arrange_added raw
    have hlinked := g.wellLinked
    rw [hnodes] at hlinked
    exact hlinked.perm hperm
  · intro h
    have hkeys := keys_nodeMap_of_nodup h.nodup
    have horder := Topo.order_spec (nodeMap raw).nodup_keys (edges_into raw)
    have hall := Topo.mem_order_of_acyclic (nodeMap raw).nodup_keys h.edges_within h.acyclic
    have hperm : (Topo.order (nodeMap raw).keys (edges raw)).Perm (ids raw) := by
      rw [hkeys] at horder hall ⊢
      exact (List.perm_ext_iff_of_nodup horder.nodup h.nodup).mpr fun k =>
        ⟨horder.subset k, hall k⟩
    have hread := hperm.filterMap (nodeMap raw).get?
    rwa [filterMap_nodeMap h.nodup] at hread

/-! ## The round trip -/

/-- Metadata as the factories leave it: sorted, each key once. Kind: D -/
def Ascending (metadata : List (String × String)) : Prop :=
  metadata.Pairwise fun a b => a.1 < b.1

/-- A node read back from its own document. Kind: L -/
theorem fromDict_toDict_node {F : Type} (w : Wording F) (n : ProvenanceNode host) :
    ∃ fp, (n.fingerprint ≠ "" → fp = n.fingerprint) ∧
      (n.fingerprint = "" → fp = NodeFields.computeFingerprint host n.nodeId n.nodeType
        n.predecessorNodeIds (sortPairs (Dict.ofList n.metadata).entries)) ∧
      ProvenanceNode.fromDict host w n.toDict = ProvenanceNode.create host
        { nodeId := n.nodeId, nodeType := n.nodeType, fingerprint := fp
          predecessorNodeIds := n.predecessorNodeIds
          metadata := sortPairs (Dict.ofList n.metadata).entries } := by
  have hpreds : (n.predecessorNodeIds.map (Json.str (F := F))).mapM Json.asStr =
      .ok n.predecessorNodeIds := by
    rw [mapM_ok, List.forall₂_map_left_iff, List.forall₂_same]
    exact fun _ _ => rfl
  have hmeta : ((Dict.ofList n.metadata).entries.map fun m => (m.1, Json.str (F := F) m.2)).map
      (fun m => (m.1, w.text m.2)) = (Dict.ofList n.metadata).entries := by
    simp [Function.comp_def, w.text_str]
  by_cases hfp : n.fingerprint = ""
  · refine ⟨_, fun hne => absurd hfp hne, fun _ => rfl, ?_⟩
    simp [ProvenanceNode.fromDict, ProvenanceNode.toDict, Json.asObj, Json.getD, Json.require,
      Json.iterate, Json.asStr, Json.truthy, Dict.lookup, hpreds, hmeta, hfp, Bind.bind, Except.bind]
  · refine ⟨_, fun _ => rfl, fun h => absurd h hfp, ?_⟩
    simp [ProvenanceNode.fromDict, ProvenanceNode.toDict, Json.asObj, Json.getD, Json.require,
      Json.iterate, Json.asStr, Json.truthy, Dict.lookup, hpreds, hmeta, hfp, Bind.bind, Except.bind]

theorem ascending_keys {metadata : List (String × String)} (h : Ascending metadata) :
    (metadata.map Prod.fst).Nodup :=
  List.pairwise_map.mpr (h.imp fun hlt => ne_of_lt hlt)

/-- A node is read back as it was if its metadata ascend; the metadata that are read do. Kind: L -/
theorem node_roundTrip {F : Type} (w : Wording F) (n : ProvenanceNode host) :
    (Ascending n.metadata → ProvenanceNode.fromDict host w n.toDict = .ok n) ∧
      ∀ n', ProvenanceNode.fromDict host w n.toDict = .ok n' → Ascending n'.metadata := by
  obtain ⟨fp, hgiven, hmissing, hread⟩ := fromDict_toDict_node w n
  rw [hread]
  constructor
  · intro hascending
    have hentries := Dict.entries_ofList (ascending_keys hascending)
    rw [hentries, sortPairs_of_ascending hascending] at hmissing ⊢
    have hfp : fp = n.fingerprint := by
      by_cases h : n.fingerprint = ""
      · rw [hmissing h, n.fingerprint_eq]
        rfl
      · exact hgiven h
    rw [hfp]
    exact ProvenanceNode.create_ok.mpr rfl
  · intro n' hn'
    have hfields := ProvenanceNode.create_ok.mp hn'
    have hmeta : n'.metadata = sortPairs (Dict.ofList n.metadata).entries := by rw [← hfields]
    rw [hmeta]
    exact ascending_sortPairs (Dict.nodup _)

theorem sortNodes_perm (nodes : List (ProvenanceNode host)) : (sortNodes nodes).Perm nodes :=
  List.perm_insertionSort _ nodes

/-- Sorting forgets the order of nodes with different identities. Kind: L -/
theorem sortNodes_eq_of_perm {nodes nodes' : List (ProvenanceNode host)} (hnodup : (ids nodes).Nodup)
    (hperm : nodes.Perm nodes') : sortNodes nodes = sortNodes nodes' := by
  have : Std.Total fun a b : ProvenanceNode host => a.nodeId ≤ b.nodeId :=
    ⟨fun a b => le_total a.nodeId b.nodeId⟩
  have : IsTrans (ProvenanceNode host) fun a b => a.nodeId ≤ b.nodeId :=
    ⟨fun _ _ _ => le_trans⟩
  have hanti : ∀ a b, a ∈ sortNodes nodes → b ∈ sortNodes nodes' → a.nodeId ≤ b.nodeId →
      b.nodeId ≤ a.nodeId → a = b := by
    intro a b ha hb hab hba
    have ha' := (sortNodes_perm nodes).mem_iff.mp ha
    have hb' := hperm.mem_iff.mpr ((sortNodes_perm nodes').mem_iff.mp hb)
    exact List.inj_on_of_nodup_map hnodup ha' hb' (le_antisymm hab hba)
  refine List.Perm.eq_of_pairwise hanti (List.pairwise_insertionSort _ _)
    (List.pairwise_insertionSort _ _) ?_
  exact (sortNodes_perm nodes).trans (hperm.trans (sortNodes_perm nodes').symm)

theorem readNodes_toDict {F : Type} (w : Wording F) (g : RemediationProvenanceGraph host)
    (raw : List (ProvenanceNode host)) :
    readNodes host w g.toDict = .ok raw ↔
      List.Forall₂ (fun n n' => ProvenanceNode.fromDict host w n.toDict = .ok n') (sortNodes g.nodes)
        raw := by
  have hread : readNodes host w g.toDict =
      ((sortNodes g.nodes).map ProvenanceNode.toDict).mapM (ProvenanceNode.fromDict host w) := by
    simp [readNodes, toDict, Json.getD, Json.iterate, Dict.lookup, Bind.bind, Except.bind]
  rw [hread, mapM_ok, List.forall₂_map_left_iff]

/-- A graph is read back from its document just if the metadata of its nodes ascend.
Source: `provenance.py`, `to_dict`, `from_dict`
Kind: P -/
theorem roundTrip_iff {F : Type} (w : Wording F) (g : RemediationProvenanceGraph host) :
    (∃ g', fromDict host w g.toDict = .ok g' ∧ g'.nodes.Perm g.nodes ∧
        (edges g'.nodes).Perm (edges g.nodes) ∧ g'.graphFingerprint = g.graphFingerprint) ↔
      ∀ n ∈ g.nodes, Ascending n.metadata := by
  constructor
  · rintro ⟨g', hg', hperm, -, -⟩ n hn
    obtain ⟨raw, hraw, -⟩ := bind_ok hg'
    obtain ⟨g'', hg'', hnodes⟩ := fromDict_ok hraw
    rw [hg'] at hg''
    cases hg''
    have hmem : n ∈ raw := by grind [mem_arrange]
    obtain ⟨i, hi, rfl⟩ := List.getElem_of_mem hmem
    have hforall := (readNodes_toDict w g raw).mp hraw
    have hlength := hforall.length_eq
    have hnode := hforall.get (by omega) hi
    exact (node_roundTrip w _).2 _ hnode
  · intro hascending
    have hforall : List.Forall₂ (fun n n' : ProvenanceNode host =>
        ProvenanceNode.fromDict host w n.toDict = .ok n') (sortNodes g.nodes) (sortNodes g.nodes) := by
      refine List.forall₂_same.mpr fun n hn => ?_
      exact (node_roundTrip w n).1 (hascending n ((sortNodes_perm g.nodes).mem_iff.mp hn))
    obtain ⟨g', hg', hnodes⟩ := fromDict_ok ((readNodes_toDict w g _).mpr hforall)
    have hsorted := g.wellLinked.perm (sortNodes_perm g.nodes).symm
    have hperm : g'.nodes.Perm g.nodes := by grind [arrange_perm_iff, sortNodes_perm]
    refine ⟨g', hg', hperm, hperm.flatMap_right _, ?_⟩
    unfold graphFingerprint
    rw [sortNodes_eq_of_perm g'.wellLinked.nodup hperm]

/-! ## The contract -/

/-- A document is loaded with all its nodes just if they are well linked, a graph survives the round trip just
if its metadata ascend, and a graph is always well linked.
Source: `provenance.py`, `RemediationProvenanceGraph`
Kind: P -/
theorem loading_exact {F : Type} (host : Host) (w : Wording F) :
    (∀ data : List (String × Json F),
        (∀ g, fromDict host w data = .ok g → ∀ raw, readNodes host w data = .ok raw →
          g.nodes.Perm raw) ↔
        ∀ raw, readNodes host w data = .ok raw → WellLinked raw) ∧
      (∀ g : RemediationProvenanceGraph host,
        (∃ g', fromDict host w g.toDict = .ok g' ∧ g'.nodes.Perm g.nodes ∧
          (edges g'.nodes).Perm (edges g.nodes) ∧ g'.graphFingerprint = g.graphFingerprint) ↔
        ∀ n ∈ g.nodes, Ascending n.metadata) ∧
      ∀ g : RemediationProvenanceGraph host, WellLinked g.nodes := by
  refine ⟨fun data => ⟨fun h raw hraw => ?_, fun h g hg raw hraw => ?_⟩, roundTrip_iff w, wellLinked⟩
  · obtain ⟨g, hg, hnodes⟩ := fromDict_ok hraw
    have hperm := h g hg raw hraw
    rw [hnodes] at hperm
    exact arrange_perm_iff.mp hperm
  · obtain ⟨g', hg', hnodes⟩ := fromDict_ok hraw
    rw [hg] at hg'
    cases hg'
    rw [hnodes]
    exact arrange_perm_iff.mpr (h raw hraw)

/-- A document with one node, whose predecessor is missing. Kind: D -/
def orphanDocument : List (String × Json Empty) :=
  [("nodes", .arr [.obj [("node_id", .str "prov_rca_F-101"), ("node_type", .str "RCA"),
    ("predecessor_node_ids", .arr [.str "prov_finding_F-101"])]])]

/-- A node without its predecessor is read, and the graph is returned without it.
Source: `provenance.py`, `RemediationProvenanceGraph.from_dict`
Kind: T -/
theorem orphan_dropped :
    ∃ raw g, readNodes quietHost plainWording orphanDocument = .ok raw ∧
      fromDict quietHost plainWording orphanDocument = .ok g ∧ ¬g.nodes.Perm raw := by
  have hread : (readNodes quietHost plainWording orphanDocument).map List.length = .ok 1 := by
    decide +kernel
  have hload : (fromDict quietHost plainWording orphanDocument).map (·.nodes.length) = .ok 0 := by
    decide +kernel
  rcases hraw : readNodes quietHost plainWording orphanDocument with message | raw
  · rw [hraw] at hread
    cases hread
  · rcases hg : fromDict quietHost plainWording orphanDocument with message | g
    · rw [hg] at hload
      cases hload
    · rw [hraw] at hread
      rw [hg] at hload
      refine ⟨raw, g, rfl, rfl, fun hperm => ?_⟩
      have hone : raw.length = 1 := Except.ok.inj hread
      have hzero : g.nodes.length = 0 := Except.ok.inj hload
      have hlength := hperm.length_eq
      omega

end RemediationProvenanceGraph

end KarsaSec.Remediation
