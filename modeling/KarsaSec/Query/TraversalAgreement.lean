import KarsaSec.Found.DepthSearch
import KarsaSec.Found.Meeting
import KarsaSec.Query.TraversalEngine

/-!
# Whether the searches of the traversal engine agree

`MultiHopTraversalEngine`: reachability by depth and by breadth, the shortest path, and the search from both ends.

* The breadth-first searches are exact for every graph, filter and bound (`bfs_iff`, `shortest`).
* The search in depth marks a node also where nothing is left of the bound, and does not go on from it when it comes to
  it again by a shorter way. It is exact where some trail to the target is `Clear` (`dfs_iff`).
* The search from both ends takes the bound for a number of rounds. It finds a path of the right length where
  `RoundsFit`: the nodes nearer than the two halves of a shortest path are no more than the rounds, and no path with
  one edge more and without repeated nodes can be met first (`bidirectional_length`).
* `searches_agree` puts the two conditions together; `searches_differ` has a graph for each defect.
-/

namespace KarsaSec.Query.MultiHopTraversalEngine

open KarsaSec.Found

variable {F : Type} (L : Language F) (g : CPGGraph F)

/-! ## The searches -/

/-- `e.value if isinstance(e, EdgeType) else e`. Source: `traversal_engine.py`. Kind: D -/
def typeText : EdgeType ⊕ String → String
  | .inl t => t.value
  | .inr s => s

/-- The names in the filter; none where there is no filter or an empty one.
Source: `traversal_engine.py`, `str_edge_types`
Kind: D -/
def strEdgeTypes (edgeTypes : Option (List (EdgeType ⊕ String))) : List String := (edgeTypes.getD []).map typeText

/-- The ends of the edges that leave a node and pass the filter.
Source: `traversal_engine.py`, `if str_edge_types and edge.edge_type.value not in str_edge_types: continue`
Kind: D -/
def allowed (edgeTypes : Option (List (EdgeType ⊕ String))) (nodeId : String) : List String :=
  ((g.getOutgoingEdges nodeId).filter fun e =>
    (strEdgeTypes edgeTypes).isEmpty || e.edgeType.value ∈ strEdgeTypes edgeTypes).map CPGEdge.targetId

/-- Whether one of the two nodes is not in the graph. Kind: D -/
def missing (sourceId targetId : String) : Bool := !g.nodes.contains sourceId || !g.nodes.contains targetId

/-- A negative bound lets no node be expanded, as the bound zero does.
Source: `traversal_engine.py`, `shortest_path`
Kind: D -/
def shortestPath (sourceId targetId : String) (edgeTypes : Option (List (EdgeType ⊕ String))) (maxDepth : ℤ) :
    List String :=
  if missing g sourceId targetId then []
  else (shortestWalk (allowed g edgeTypes) (nodeState L g) (sourceId :: g.edges.map CPGEdge.targetId).length sourceId
    targetId maxDepth.toNat).getD []

/-- Source: `traversal_engine.py`, `bfs_reachability`. Kind: D -/
def bfsReachability (sourceId targetId : String) (edgeTypes : Option (List (EdgeType ⊕ String))) (maxDepth : ℤ) : Bool :=
  if maxDepth < 0 then false else 0 < (shortestPath L g sourceId targetId edgeTypes maxDepth).length

/-- Source: `traversal_engine.py`, `dfs_reachability`. Kind: D -/
def dfsReachability (sourceId targetId : String) (edgeTypes : Option (List (EdgeType ⊕ String))) (maxDepth : ℤ) : Bool :=
  if maxDepth < 0 then false
  else if missing g sourceId targetId then false
  else if sourceId = targetId then true
  else (dive (allowed g edgeTypes) (nodeState L g) targetId (maxDepth.toNat + 1) sourceId []).1

/-- The ends of the edges that leave a node. Kind: D -/
def nexts (nodeId : String) : List String := (g.getOutgoingEdges nodeId).map CPGEdge.targetId

/-- The beginnings of the edges that reach a node. Kind: D -/
def prevs (nodeId : String) : List String := (g.getIncomingEdges nodeId).map CPGEdge.sourceId

/-- Source: `traversal_engine.py`, `bidirectional_bfs`. Kind: D -/
def bidirectionalBfs (sourceId targetId : String) (maxDepth : ℤ) : List String :=
  if missing g sourceId targetId then []
  else if sourceId = targetId then [sourceId]
  else meet (nexts g) (prevs g) maxDepth.toNat (Front.start sourceId) (Front.start targetId)

/-! ## Breadth -/

/-- A path of allowed edges between two nodes of the graph, with at most so many edges. Kind: D -/
def Within (sourceId targetId : String) (edgeTypes : Option (List (EdgeType ⊕ String))) (maxDepth : ℤ) : Prop :=
  missing g sourceId targetId = false ∧
    ∃ path, IsWalk (allowed g edgeTypes) sourceId targetId path ∧ (path.length : ℤ) ≤ maxDepth + 1

variable {g} {sourceId targetId : String} {edgeTypes : Option (List (EdgeType ⊕ String))} {maxDepth : ℤ}

theorem mem_targets_of_mem_allowed {a b : String} (h : b ∈ allowed g edgeTypes a) : b ∈ g.edges.map CPGEdge.targetId := by
  obtain ⟨edge, hedge, rfl⟩ := List.mem_map.mp h
  have hout : edge ∈ edgesAt g.adjacencyOut a := List.mem_of_mem_filter hedge
  rw [g.out_eq] at hout
  exact List.mem_map_of_mem (List.mem_of_mem_filter hout)

theorem shortestPath_of_present (h : missing g sourceId targetId = false) :
    shortestPath L g sourceId targetId edgeTypes maxDepth =
      (firstWalk (allowed g edgeTypes) sourceId targetId maxDepth.toNat).getD [] := by
  have hpresent : ¬missing g sourceId targetId = true := by simp [h]
  unfold shortestPath
  rw [if_neg hpresent, shortestWalk_eq (nodeState_injective L g) List.mem_cons_self]
  exact fun a _ b hb => List.mem_cons_of_mem _ (mem_targets_of_mem_allowed hb)

/-- Breadth-first reachability is exact. Kind: P -/
theorem bfs_iff : bfsReachability L g sourceId targetId edgeTypes maxDepth = true ↔
    Within g sourceId targetId edgeTypes maxDepth := by
  unfold bfsReachability
  constructor
  · intro h
    split_ifs at h with hneg
    have hpos := of_decide_eq_true h
    rcases hmissing : missing g sourceId targetId with _ | _
    · refine ⟨hmissing, ?_⟩
      rw [shortestPath_of_present L hmissing] at hpos
      rcases hfound : firstWalk (allowed g edgeTypes) sourceId targetId maxDepth.toNat with _ | path
      · simp_all
      · obtain ⟨hwalk, hlength⟩ := isWalk_of_firstWalk hfound
        exact ⟨path, hwalk, by omega⟩
    · simp_all [shortestPath]
  · rintro ⟨hmissing, path, hwalk, hlength⟩
    have hne := List.length_pos_iff.mpr hwalk.ne_nil
    have hnat : ¬maxDepth < 0 := by omega
    rw [if_neg hnat, shortestPath_of_present L hmissing, decide_eq_true_iff]
    rcases hfound : firstWalk (allowed g edgeTypes) sourceId targetId maxDepth.toNat with _ | path'
    · grind [firstWalk_eq_none_iff]
    · exact List.length_pos_iff.mpr (isWalk_of_firstWalk hfound).1.ne_nil

/-- A walk of the fewest edges. Kind: D -/
def Shortest (succ : String → List String) (sourceId targetId : String) (path : List String) : Prop :=
  IsWalk succ sourceId targetId path ∧ ∀ q, IsWalk succ sourceId targetId q → path.length ≤ q.length

theorem exists_shortest {succ : String → List String} {q : List String} (h : IsWalk succ sourceId targetId q) :
    ∃ path, Shortest succ sourceId targetId path := by
  rcases hfound : firstWalk succ sourceId targetId q.length with _ | path
  · have hlong := firstWalk_eq_none_iff.mp hfound q h
    omega
  · exact ⟨path, (isWalk_of_firstWalk hfound).1, firstWalk_least hfound⟩

/-- The path is a shortest one. Kind: P -/
theorem shortest (h : shortestPath L g sourceId targetId edgeTypes maxDepth ≠ []) :
    Shortest (allowed g edgeTypes) sourceId targetId (shortestPath L g sourceId targetId edgeTypes maxDepth) := by
  rcases hmissing : missing g sourceId targetId with _ | _
  · rw [shortestPath_of_present L hmissing] at h ⊢
    rcases hfound : firstWalk (allowed g edgeTypes) sourceId targetId maxDepth.toNat with _ | path
    · rw [hfound] at h
      exact absurd rfl h
    · exact ⟨(isWalk_of_firstWalk hfound).1, firstWalk_least hfound⟩
  · simp_all [shortestPath]

/-! ## Depth -/

theorem dfs_sound (h : dfsReachability L g sourceId targetId edgeTypes maxDepth = true) :
    Within g sourceId targetId edgeTypes maxDepth := by
  unfold dfsReachability at h
  split_ifs at h with hneg hmissing heq
  · subst heq
    refine ⟨eq_false_of_ne_true hmissing, [sourceId], ⟨rfl, rfl, List.isChain_singleton _⟩, ?_⟩
    rw [List.length_singleton]
    omega
  · obtain ⟨path, hwalk, hlength⟩ := dive_sound h
    exact ⟨eq_false_of_ne_true hmissing, path, hwalk, by omega⟩

/-- What the search in depth asks of a graph: that the target is out of reach, or that some trail to it is clear.
Kind: D -/
def DepthFits (g : CPGGraph F) (sourceId targetId : String) (edgeTypes : Option (List (EdgeType ⊕ String)))
    (maxDepth : ℤ) : Prop :=
  Within g sourceId targetId edgeTypes maxDepth → sourceId ≠ targetId →
    Clear (allowed g edgeTypes) maxDepth.toNat sourceId targetId

/-- The search in depth is exact where some trail to the target is clear. Kind: P -/
theorem dfs_iff (hfits : DepthFits g sourceId targetId edgeTypes maxDepth) :
    dfsReachability L g sourceId targetId edgeTypes maxDepth = true ↔
      Within g sourceId targetId edgeTypes maxDepth := by
  refine ⟨dfs_sound L, fun hwithin => ?_⟩
  obtain ⟨hmissing, path, hwalk, hlength⟩ := hwithin
  have hpos := List.length_pos_iff.mpr hwalk.ne_nil
  have hnat : ¬maxDepth < 0 := by omega
  have hpresent : ¬missing g sourceId targetId = true := by simp [hmissing]
  unfold dfsReachability
  rw [if_neg hnat, if_neg hpresent]
  by_cases heq : sourceId = targetId
  · rw [if_pos heq]
  · rw [if_neg heq]
    exact dive_complete (nodeState_injective L g) (hfits ⟨hmissing, path, hwalk, hlength⟩ heq)

/-! ## From both ends -/

theorem mem_nexts_iff (a b : String) : b ∈ nexts g a ↔ a ∈ prevs g b := by
  unfold nexts prevs CPGGraph.getOutgoingEdges CPGGraph.getIncomingEdges
  rw [g.out_eq, g.in_eq]
  simp only [List.mem_map, List.mem_filter, decide_eq_true_eq]
  constructor
  · grind
  · grind

theorem allowed_none : allowed g none = nexts g := by
  funext a
  unfold allowed nexts
  congr 1
  exact List.filter_eq_self.mpr fun e _ => rfl

/-- What the search from both ends asks of a graph, for a shortest path of so many edges. Within the bound, the nodes
nearer than two distances that make up the path have to be no more than the rounds, and a path with one edge more, without repeated
nodes, may not be met instead; beyond the bound, the rounds have to be too few for distances that make up a path.
Kind: D -/
def RoundsFit (g : CPGGraph F) (sourceId targetId : String) (rounds : ℕ) : Prop :=
  ∀ path, Shortest (nexts g) sourceId targetId path →
    if path.length ≤ rounds + 1 then
      (path.length ≤ 3 ∨ ∀ q, IsWalk (nexts g) sourceId targetId q → q.Nodup → q.length ≠ path.length + 1) ∧
        ∃ x y, path.length = x + y + 1 ∧ (nearer (nexts g) sourceId x).card ≤ rounds ∧
          (nearer (prevs g) targetId y).card ≤ rounds
    else
      ∃ x y, x + y + 1 < path.length ∧ rounds ≤ (nearer (nexts g) sourceId x).card ∧
        rounds ≤ (nearer (prevs g) targetId y).card

/-- Within the bound. Kind: L -/
theorem meet_length {rounds : ℕ} {path : List String} (h : sourceId ≠ targetId) (hfits : RoundsFit g sourceId targetId rounds)
    (hshort : Shortest (nexts g) sourceId targetId path) (hlength : path.length ≤ rounds + 1) :
    (meet (nexts g) (prevs g) rounds (Front.start sourceId) (Front.start targetId)).length = path.length := by
  have hround := hfits path hshort
  rw [if_pos hlength] at hround
  obtain ⟨honly, x, y, hxy, hx, hy⟩ := hround
  have hne := meet_ne_nil mem_nexts_iff h hshort.1 hxy hx hy
  obtain ⟨hwalk, hnodup, hclose, hleast⟩ := meet_spec mem_nexts_iff h rfl hne
  have hle := hshort.2 _ hwalk
  have hge := hclose path hshort.1
  rcases honly with hfew | hnone
  · rcases hleast with hleast | hfour
    · have hmin := hleast path hshort.1
      omega
    · have hlong := hfour path hshort.1
      omega
  · have hnot := hnone _ hwalk hnodup
    omega

/-- Beyond the bound. Kind: L -/
theorem meet_length_zero {rounds : ℕ} (h : sourceId ≠ targetId) (hfits : RoundsFit g sourceId targetId rounds)
    (hfar : ∀ path, IsWalk (nexts g) sourceId targetId path → rounds + 1 < path.length) :
    meet (nexts g) (prevs g) rounds (Front.start sourceId) (Front.start targetId) = [] := by
  by_contra hne
  obtain ⟨hwalk, -, -⟩ := meet_spec mem_nexts_iff h rfl hne
  obtain ⟨path, hshort⟩ := exists_shortest hwalk
  have hround := hfits path hshort
  rw [if_neg (Nat.not_le.mpr (hfar path hshort.1))] at hround
  obtain ⟨x, y, hxy, hx, hy⟩ := hround
  exact hne (meet_eq_nil mem_nexts_iff h (fun q hq => Nat.lt_of_lt_of_le hxy (hshort.2 q hq)) hx hy)

/-- Where the rounds fit, the search from both ends finds a path as long as the shortest. Kind: P -/
theorem bidirectional_length (hfits : missing g sourceId targetId = false → sourceId ≠ targetId →
    RoundsFit g sourceId targetId maxDepth.toNat) :
    (bidirectionalBfs g sourceId targetId maxDepth).length =
      (shortestPath L g sourceId targetId none maxDepth).length := by
  rcases hmissing : missing g sourceId targetId with _ | _
  · have hpresent : ¬missing g sourceId targetId = true := by simp [hmissing]
    rw [shortestPath_of_present L hmissing, allowed_none]
    unfold bidirectionalBfs
    rw [if_neg hpresent]
    by_cases heq : sourceId = targetId
    · subst heq
      have hstay : IsWalk (nexts g) sourceId sourceId [sourceId] := ⟨rfl, rfl, List.isChain_singleton _⟩
      rw [if_pos rfl]
      rcases hfound : firstWalk (nexts g) sourceId sourceId maxDepth.toNat with _ | path
      · grind [firstWalk_eq_none_iff]
      · have hle := firstWalk_least hfound _ hstay
        have hpos := List.length_pos_iff.mpr (isWalk_of_firstWalk hfound).1.ne_nil
        exact Nat.le_antisymm hpos hle
    · rw [if_neg heq]
      rcases hfound : firstWalk (nexts g) sourceId targetId maxDepth.toNat with _ | path
      · simp_all [meet_length_zero, firstWalk_eq_none_iff]
      · obtain ⟨hwalk, hlength⟩ := isWalk_of_firstWalk hfound
        exact meet_length heq (hfits hmissing heq) ⟨hwalk, firstWalk_least hfound⟩ hlength
  · simp_all [bidirectionalBfs, shortestPath]

theorem isWalk_bidirectional (h : bidirectionalBfs g sourceId targetId maxDepth ≠ []) :
    IsWalk (nexts g) sourceId targetId (bidirectionalBfs g sourceId targetId maxDepth) := by
  unfold bidirectionalBfs at h ⊢
  split_ifs at h ⊢ with hmissing heq
  · exact absurd rfl h
  · rw [← heq]
    exact ⟨rfl, rfl, List.isChain_singleton _⟩
  · exact (meet_spec mem_nexts_iff heq rfl h).1

/-! ## Agreement -/

/-- The searches agree on two nodes, a filter and a bound. Kind: D -/
structure Agree (L : Language F) (g : CPGGraph F) (sourceId targetId : String)
    (edgeTypes : Option (List (EdgeType ⊕ String))) (maxDepth : ℤ) : Prop where
  bfs : bfsReachability L g sourceId targetId edgeTypes maxDepth = true ↔
    Within g sourceId targetId edgeTypes maxDepth
  dfs : dfsReachability L g sourceId targetId edgeTypes maxDepth =
    bfsReachability L g sourceId targetId edgeTypes maxDepth
  shortest : shortestPath L g sourceId targetId edgeTypes maxDepth ≠ [] →
    Shortest (allowed g edgeTypes) sourceId targetId (shortestPath L g sourceId targetId edgeTypes maxDepth)
  both : bidirectionalBfs g sourceId targetId maxDepth ≠ [] →
    IsWalk (nexts g) sourceId targetId (bidirectionalBfs g sourceId targetId maxDepth)
  length : (bidirectionalBfs g sourceId targetId maxDepth).length =
    (shortestPath L g sourceId targetId none maxDepth).length

/-- **The searches agree where the search in depth has a clear trail and the rounds fit.** Kind: P -/
theorem searches_agree (hdepth : DepthFits g sourceId targetId edgeTypes maxDepth)
    (hrounds : missing g sourceId targetId = false → sourceId ≠ targetId →
      RoundsFit g sourceId targetId maxDepth.toNat) : Agree L g sourceId targetId edgeTypes maxDepth where
  bfs := bfs_iff L
  dfs := Bool.eq_iff_iff.mpr ((dfs_iff L hdepth).trans (bfs_iff L).symm)
  shortest := shortest L
  both := isWalk_bidirectional
  length := bidirectional_length L hrounds

/-! ## Examples -/

/-- A graph with these edges. Kind: D -/
def drawn (edges : List (String × String)) : CPGGraph Empty :=
  edges.foldl (fun g e => ((g.addNode ⟨e.1, .ast, e.1, "", 1, 0, "Generic", [], .empty⟩).addNode
    ⟨e.2, .ast, e.2, "", 1, 0, "Generic", [], .empty⟩).addEdge ⟨e.1, e.2, .cfgFlow⟩) .empty

/-- A path of two edges. Kind: D -/
def straight : CPGGraph Empty := drawn [("s", "x"), ("x", "t")]

/-- A node with a way of two edges to it, and one of one edge after that. Kind: D -/
def dip : CPGGraph Empty := drawn [("s", "a"), ("a", "b"), ("s", "b"), ("b", "t")]

theorem straight_depthFits : DepthFits straight "s" "t" none 2 := by
  intro _ _
  have htrails : trails (allowed straight none) 3 [] "s" = [["s"], ["s", "x"]] ++ ["s", "x", "t"] :: [] := by
    decide +kernel
  refine ⟨[["s"], ["s", "x"]], ["s", "x", "t"], [], htrails, rfl, fun p hp hfull => ?_⟩
  have hshort : ∀ p ∈ [["s"], ["s", "x"]], p.length ≠ 3 := by decide +kernel
  exact absurd hfull (hshort p hp)

theorem straight_roundsFit : RoundsFit straight "s" "t" 2 := by
  intro path hshort
  have hwalk : IsWalk (nexts straight) "s" "t" ["s", "x", "t"] := by
    refine ⟨rfl, rfl, ?_⟩
    decide +kernel
  have hle : path.length ≤ 3 := hshort.2 _ hwalk
  have hge : 3 ≤ path.length := three_le_length (by decide) (by decide +kernel) hshort.1
  rw [if_pos hle]
  exact ⟨.inl hle, 1, 1, by omega, by decide +kernel, by decide +kernel⟩

theorem straight_agree : Agree plainLanguage straight "s" "t" none 2 :=
  searches_agree plainLanguage straight_depthFits fun _ _ => straight_roundsFit

/-- The search in depth uses a node up at the bound, and the search from both ends goes beyond the bound. Kind: P -/
theorem searches_differ : ¬Agree plainLanguage dip "s" "t" none 2 ∧ ¬Agree plainLanguage straight "s" "t" none 1 := by
  constructor
  · intro h
    have hno : dfsReachability plainLanguage dip "s" "t" none 2 = false := by decide +kernel
    have hyes : bfsReachability plainLanguage dip "s" "t" none 2 = true := by decide +kernel
    have hsame := h.dfs
    rw [hno, hyes] at hsame
    cases hsame
  · intro h
    have hlong : (bidirectionalBfs straight "s" "t" 1).length = 3 := by decide +kernel
    have hnone : (shortestPath plainLanguage straight "s" "t" none 1).length = 0 := by decide +kernel
    have hsame := h.length
    rw [hlong, hnone] at hsame
    cases hsame

end KarsaSec.Query.MultiHopTraversalEngine
