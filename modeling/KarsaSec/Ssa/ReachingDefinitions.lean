import KarsaSec.Found.Saturation
import KarsaSec.Ssa.Faithful
import KarsaSec.Ssa.IRBuilder

/-!
# The analysis of reaching definitions

`ReachingDefinitionsAnalysis`: sets of definitions that come in at the nodes of a graph and leave them. A definition belongs to
the nodes whose identifiers its own starts with.

* `exists_analyze`: the sweeps end, and a definition comes in exactly where a path leads from a node that generates it and no
  node on the way kills it.
* `not_startsWith`: the identifier of an assignment starts with that of no node. So no node generates an assignment.
* `reachingDefinitions_iff`: for the functions of the builder the sets are the definitions that reach along paths
  (`ReachingSound`) if and only if the function assigns nothing.
-/

namespace KarsaSec.Ssa

open KarsaSec.Found

/-! ## The analysis -/

/-- Variable, version and line. Source: `analysis/dataflow/reaching_definitions.py`, `def_tuple`. Kind: D -/
abbrev DefTuple := String × ℕ × ℤ

/-- Source: `analysis/dataflow/reaching_definitions.py`, `def_tuple`. Kind: D -/
def SSANode.defTuple (n : SSANode) : DefTuple := (n.target.baseName, n.target.version, n.lineNumber)

/-- Source: `analysis/cfg/models.py`, `CFG.get_predecessors`. Kind: D -/
def CFG.getPredecessors (cfg : CFG) (place : Place) : List Place :=
  (cfg.edges.filter fun e => e.targetId = place).map CFGEdge.sourceId

theorem CFG.mem_getPredecessors {cfg : CFG} {a b : Place} : a ∈ cfg.getPredecessors b ↔ cfg.Links a b := by
  unfold CFG.getPredecessors CFG.Links
  simp only [List.mem_map, List.mem_filter, decide_eq_true_eq]
  exact exists_congr fun e => ⟨fun ⟨⟨he, htarget⟩, hsource⟩ => ⟨he, hsource, htarget⟩,
    fun ⟨he, hsource, htarget⟩ => ⟨⟨he, htarget⟩, hsource⟩⟩

namespace ReachingDefinitionsAnalysis

variable (cfg : CFG) (ssa : SSAFunction)

/-- Source: `analysis/dataflow/reaching_definitions.py`, `all_defs`. Kind: D -/
def allDefs : Finset DefTuple := (ssa.nodes.map SSANode.defTuple).toFinset

/-- The definitions whose identifiers start with that of the node.
Source: `analysis/dataflow/reaching_definitions.py`, `node_defs`
Kind: D -/
def nodeDefs (place : Place) : List DefTuple :=
  (ssa.nodes.filter fun sn => startsWith (place.text cfg.cfgId) sn.id).map SSANode.defTuple

/-- Source: `analysis/dataflow/reaching_definitions.py`, `gen_sets`. Kind: D -/
def genSet (place : Place) : Finset DefTuple := (nodeDefs cfg ssa place).toFinset

/-- Source: `analysis/dataflow/reaching_definitions.py`, `kill_sets`. Kind: D -/
def killSet (place : Place) : Finset DefTuple :=
  (allDefs ssa).filter fun otherDef => ∃ d ∈ nodeDefs cfg ssa place, otherDef.1 = d.1 ∧ otherDef ≠ d

/-- Nothing where the loop goes on for ever or a predecessor is no node.
Source: `analysis/dataflow/reaching_definitions.py`, `analyze`
Kind: D -/
def analyze : Option (Saturation.Sets Place DefTuple) :=
  Saturation.solve cfg.nodes.keys cfg.getPredecessors (genSet cfg ssa) (killSet cfg ssa)

end ReachingDefinitionsAnalysis

/-! ## Definitions that reach -/

/-- A definition stands in a node: that of a phi node before everything, that of an assignment at its index.
Source: `analysis/ssa/builder.py`, `build_ssa`
Kind: D -/
inductive SSAFunction.StandsAt (ssa : SSAFunction) (cfg : CFG) (n : SSANode) : Place → ℕ → Prop
  | phi {place : Place} {phi : PhiNode} (hn : n ∈ ssa.nodes) (hphi : n.phiNode = some phi)
      (hblock : phi.basicBlockId = place.text cfg.cfgId) : StandsAt ssa cfg n place 0
  | assignment {o : Occurrence} (h : (o, n) ∈ ssa.definitions cfg) : StandsAt ssa cfg n o.place (o.index + 1)

/-- A node defines a variable. Kind: D -/
def SSAFunction.Defines (ssa : SSAFunction) (cfg : CFG) (v : String) (place : Place) : Prop :=
  ∃ n index, ssa.StandsAt cfg n place index ∧ n.target.baseName = v

/-- A definition is the last of its variable in its node, and a path leads from there without another definition of the variable
on the way.
Kind: D -/
def SSAFunction.ReachesNode (ssa : SSAFunction) (cfg : CFG) (d : DefTuple) (place : Place) : Prop :=
  ∃ n start index, n.defTuple = d ∧ ssa.StandsAt cfg n start index ∧
    (∀ m k, ssa.StandsAt cfg m start k → m.target.baseName = n.target.baseName → k ≤ index) ∧
    Arrives cfg.Links (ssa.Defines cfg n.target.baseName) start place

/-- The analysis ends, and what comes in at a node is what reaches it.
Source: `analysis/dataflow/reaching_definitions.py`, docstring
Kind: D -/
def ReachingSound (f : IRFunction) : Prop :=
  ∃ sets, ReachingDefinitionsAnalysis.analyze (buildCfg f) (buildSsa (buildCfg f)) = some sets ∧
    ∀ place ∈ (buildCfg f).nodes.keys, ∃ s, sets.ins.get? place = some s ∧
      ∀ d, d ∈ s ↔ (buildSsa (buildCfg f)).ReachesNode (buildCfg f) d place

/-! ## The ends of the edges -/

section ends

variable {f : IRFunction}

theorem exists_flowOf_prev (ps : List Piece) (idx : ℕ) (prev : Place) : ∃ b, (prev, b) ∈ flowOf idx ps prev := by
  induction ps generalizing idx with
  | nil => exact ⟨_, List.mem_cons_self⟩
  | cons p ps ih =>
    cases p with
    | block | branch | loop | ret => exact ⟨_, List.mem_cons_self⟩
    | skip => exact ih _

/-- Control goes on from every place of the pieces. Kind: L -/
theorem exists_flowOf {ps : List Piece} {idx : ℕ} {prev place : Place} (h : place ∈ (slotsOf idx ps).map Prod.fst) :
    ∃ b, (place, b) ∈ flowOf idx ps prev := by
  induction ps generalizing idx prev with
  | nil => exact absurd h List.not_mem_nil
  | cons p ps ih =>
    rw [places_slotsOf_cons] at h
    rcases List.mem_append.mp h with h | h
    · have hprev := exists_flowOf_prev ps (idx + p.length) (p.tail (idx + p.length) prev)
      by_cases htail : place = p.tail (idx + p.length) prev
      · obtain ⟨b, hb⟩ := hprev
        exact ⟨b, List.mem_append_right _ (htail ▸ hb)⟩
      · have hinner : ∃ b, (place, b) ∈ p.flow (idx + p.length) prev := by
          cases p with
          | block => exact absurd (List.mem_singleton.mp h) htail
          | branch line =>
            simp only [Piece.places, Piece.slots, List.map_cons, List.map_nil, List.mem_cons, List.not_mem_nil,
              or_false] at h
            rcases h with rfl | rfl | rfl | rfl
            · exact ⟨.thenArm line, by simp [Piece.flow]⟩
            · exact ⟨.merge line, by simp [Piece.flow]⟩
            · exact ⟨.merge line, by simp [Piece.flow]⟩
            · exact absurd rfl htail
          | loop line =>
            simp only [Piece.places, Piece.slots, List.map_cons, List.map_nil, List.mem_cons, List.not_mem_nil,
              or_false] at h
            rcases h with rfl | rfl | rfl
            · exact ⟨.body line, by simp [Piece.flow]⟩
            · exact ⟨.loop line, by simp [Piece.flow]⟩
            · exact absurd rfl htail
          | ret => exact absurd (List.mem_singleton.mp h) htail
          | skip => exact absurd h List.not_mem_nil
        obtain ⟨b, hb⟩ := hinner
        exact ⟨b, List.mem_append_left _ hb⟩
    · obtain ⟨b, hb⟩ := ih h
      exact ⟨b, List.mem_append_right _ hb⟩

/-- Control comes from before or from a place of the pieces, and goes to one or to the exit. Kind: L -/
theorem mem_places_of_flowOf {ps : List Piece} {idx : ℕ} {prev a b : Place} (h : (a, b) ∈ flowOf idx ps prev) :
    (a = prev ∨ a ∈ (slotsOf idx ps).map Prod.fst) ∧ (b = .exit ∨ b ∈ (slotsOf idx ps).map Prod.fst) := by
  induction ps generalizing idx prev with
  | nil =>
    obtain ⟨rfl, rfl⟩ := Prod.mk.inj (List.mem_singleton.mp h)
    exact ⟨.inl rfl, .inl rfl⟩
  | cons p ps ih =>
    rw [places_slotsOf_cons]
    have hpiece : ∀ {a b}, (a, b) ∈ p.flow (idx + p.length) prev →
        (a = prev ∨ a ∈ p.places (idx + p.length)) ∧ (b = .exit ∨ b ∈ p.places (idx + p.length)) := by
      intro a b hab
      cases p with
      | block | branch | loop | ret =>
        simp only [Piece.flow, List.mem_cons, List.not_mem_nil, or_false, Prod.mk.injEq] at hab
        simp only [Piece.places, Piece.slots, List.map_cons, List.map_nil, List.mem_cons, List.not_mem_nil, or_false]
        grind
      | skip => exact absurd hab List.not_mem_nil
    have htail : p.tail (idx + p.length) prev = prev ∨ p.tail (idx + p.length) prev ∈ p.places (idx + p.length) := by
      cases p with
      | block | branch | loop | ret => exact .inr (by simp [Piece.places, Piece.slots, Piece.tail])
      | skip => exact .inl rfl
    simp only [List.mem_append]
    rcases List.mem_append.mp h with h | h
    · grind
    · grind

theorem keys_buildCfg (f : IRFunction) : (buildCfg f).nodes.keys = (Dict.ofList f.slots).keys := by
  rw [← contents_buildCfg]
  show _ = ((buildCfg f).nodes.entries.map fun e => (e.1, e.2.statements)).map Prod.fst
  rw [List.map_map]
  rfl

theorem mem_keys_buildCfg {place : Place} : place ∈ (buildCfg f).nodes.keys ↔
    place = .entry ∨ place = .exit ∨ place ∈ (slotsOf 0 (pieces f.bodyStatements)).map Prod.fst := by
  rw [keys_buildCfg, Dict.mem_keys_ofList]
  simp only [IRFunction.slots, List.map_cons, List.mem_cons]

/-- The ends of an edge are nodes. Source: `analysis/cfg/builder.py`, `build_cfg`. Kind: P -/
theorem mem_keys_of_links {a b : Place} (h : (buildCfg f).Links a b) :
    a ∈ (buildCfg f).nodes.keys ∧ b ∈ (buildCfg f).nodes.keys := by
  obtain ⟨ha, hb⟩ := mem_places_of_flowOf ((links_buildCfg f a b).mp h)
  rw [mem_keys_buildCfg, mem_keys_buildCfg]
  exact ⟨ha.imp_right .inr, .inr hb⟩

end ends

/-! ## Functions of the builder -/

section produced

variable {f : IRFunction} {o : Occurrence} {n : SSANode}

/-- What a piece holds stands in a block, and is of the builder. Kind: D -/
def Piece.Plain (path : String) (p : Piece) : Prop :=
  ∀ idx, ∀ s ∈ p.slots idx, s.2 ≠ [] → (∃ line, s.1 = .stmt line idx) ∧ ∀ stmt ∈ s.2, IRStatement.Produced path stmt

theorem plain_pushBasic {path : String} {s : IRStatement} {ps : List Piece} (hs : IRStatement.Produced path s)
    (h : ∀ p ∈ ps, p.Plain path) : ∀ p ∈ Piece.pushBasic s ps, p.Plain path := by
  have hblock : ∀ stmts : List IRStatement, (∀ t ∈ stmts, IRStatement.Produced path t) → (Piece.block stmts).Plain path := by
    intro stmts hstmts idx t ht _
    obtain rfl := List.mem_singleton.mp ht
    exact ⟨⟨_, rfl⟩, hstmts⟩
  have hone : (Piece.block [s]).Plain path := hblock [s] (List.forall_mem_singleton.mpr hs)
  rcases ps with _ | ⟨q, ps⟩
  · exact List.forall_mem_singleton.mpr hone
  · cases q with
    | block stmts =>
      refine List.forall_mem_cons.mpr ⟨hblock _ (List.forall_mem_cons.mpr ⟨hs, fun t ht => ?_⟩), fun p hp => ?_⟩
      · exact ((h _ List.mem_cons_self) 0 _ List.mem_cons_self (List.ne_nil_of_mem ht)).2 t ht
      · exact h p (List.mem_cons_of_mem _ hp)
    | branch | loop | ret | skip => exact List.forall_mem_cons.mpr ⟨hone, h⟩

theorem plain_pieces {path : String} {stmts : List IRStatement} (h : ∀ s ∈ stmts, IRStatement.Produced path s) :
    ∀ p ∈ pieces stmts, p.Plain path := by
  induction stmts with
  | nil => exact fun p hp => absurd hp List.not_mem_nil
  | cons s stmts ih =>
    obtain ⟨hs, hrest⟩ := List.forall_mem_cons.mp h
    have hempty : ∀ {p : Piece}, (∀ idx, ∀ t ∈ p.slots idx, t.2 = []) → p.Plain path :=
      fun hp idx t ht hne => absurd (hp idx t ht) hne
    cases hs with
    | assignment hid => exact plain_pushBasic (.assignment hid) (ih hrest)
    | call line => exact plain_pushBasic (.call line) (ih hrest)
    | branch => exact List.forall_mem_cons.mpr ⟨hempty fun idx => by simp [Piece.slots], ih hrest⟩
    | loop => exact List.forall_mem_cons.mpr ⟨hempty fun idx => by simp [Piece.slots], ih hrest⟩

theorem lastHolds_slotsOf {path : String} {ps : List Piece} (hpos : ∀ p ∈ ps, 0 < p.length) (hplain : ∀ p ∈ ps, p.Plain path)
    (idx : ℕ) : LastHolds directAssignments (slotsOf idx ps) := by
  induction ps generalizing idx with
  | nil => exact List.Pairwise.nil
  | cons p ps ih =>
    obtain ⟨-, hrest⟩ := List.forall_mem_cons.mp hpos
    obtain ⟨hp, hps⟩ := List.forall_mem_cons.mp hplain
    refine List.pairwise_append.mpr ⟨?_, ih hrest hps _, fun s hs t ht heq => ?_⟩
    · exact (List.pairwise_map.mp (p.nodup_places _)).imp fun hne heq => absurd heq hne
    · by_cases hnil : s.2 = []
      · rw [hnil]
        rfl
      · -- the index of a block is behind those before it
        obtain ⟨line, hplace⟩ := (hp _ s hs hnil).1
        rcases mem_places_slotsOf hrest (List.mem_map_of_mem ht) with ⟨a, -, ha⟩ | ⟨line', j, hj, hlt⟩
        · rw [← heq, hplace] at ha
          cases ha
        · simp_all

/-- The builder nests nothing, so that nothing is lost. Kind: L -/
theorem IRFunction.Produced.kept (h : f.Produced) : f.Kept := by
  have hplain := plain_pieces h.statements
  constructor
  · intro s hs stmt hstmt hnone
    have hproduced : IRStatement.Produced f.filePath stmt := by
      rcases List.mem_cons.mp hs with rfl | hs
      · exact absurd hstmt List.not_mem_nil
      rcases List.mem_cons.mp hs with rfl | hs
      · exact absurd hstmt List.not_mem_nil
      obtain ⟨p, hp, idx, hslot⟩ : ∃ p ∈ pieces f.bodyStatements, ∃ idx, s ∈ p.slots idx := by
        revert hs
        generalize pieces f.bodyStatements = ps
        generalize 0 = idx
        intro hs
        induction ps generalizing idx with
        | nil => exact absurd hs List.not_mem_nil
        | cons p ps ih =>
          rcases List.mem_append.mp hs with hs | hs
          · exact ⟨p, List.mem_cons_self, _, hs⟩
          · grind
      exact ((hplain p hp idx s hslot (List.ne_nil_of_mem hstmt)).2) stmt hstmt
    cases hproduced with
    | assignment => exact absurd hnone (Option.some_ne_none _)
    | call | branch | loop => simp [assignmentsIn, allAssignments]
  · have hslots := lastHolds_slotsOf (pos_of_mem_pieces _) hplain 0
    refine List.pairwise_cons.mpr ⟨fun _ _ _ => rfl, List.pairwise_cons.mpr ⟨fun _ _ _ => rfl, hslots⟩⟩

/-- An assignment that stands in a node is one of the function. Kind: L -/
theorem IRFunction.Kept.mem_allAssignments (h : f.Kept) (ho : o ∈ (buildCfg f).occurrences) :
    o.stmt ∈ allAssignments f.bodyStatements := by
  obtain ⟨s, hs, -, hget⟩ := h.mem_occurrences.mp ho
  rw [← assignments_slots]
  exact List.mem_flatMap.mpr ⟨s, hs, (directAssignments_sublist s.2).subset (List.mem_of_getElem? hget)⟩

theorem IRFunction.Produced.id_of_mem (h : f.Produced) {a : IRAssignment} (ha : a ∈ allAssignments f.bodyStatements) :
    a.id = f.filePath ++ "::assign::" ++ toString a.lineNumber := by
  rw [allAssignments_eq] at ha
  obtain ⟨s, hs, ha⟩ := List.mem_flatMap.mp ha
  cases h.statements s hs with
  | assignment hid =>
    rw [assignmentsIn, List.mem_singleton] at ha
    exact ha ▸ hid
  | call | branch | loop => simp [assignmentsIn, allAssignments] at ha

/-- **No identifier of a node is a prefix of that of an assignment**: it has more colons behind the path.
Source: `ir/builder.py`, `_convert_statement`; `analysis/cfg/builder.py`
Kind: P -/
theorem not_startsWith (h : f.Produced) {a : IRAssignment} (ha : a ∈ allAssignments f.bodyStatements) (place : Place) :
    startsWith (place.text f.id) a.id = false := by
  obtain ⟨name, line, hid⟩ := h.named
  obtain ⟨rest, hrest⟩ : ∃ rest, place.text f.id = f.id ++ ("::" ++ rest) := by
    cases place <;> exact ⟨_, by rw [Place.text, Place.parts, List.map_cons, String.join_cons, String.append_assoc]⟩
  refine Bool.eq_false_iff.mpr fun hprefix => ?_
  have hle := (List.isPrefixOf_iff_prefix.mp hprefix).sublist.count_le ':'
  have hline := List.count_eq_zero_of_not_mem (colon_not_mem_int a.lineNumber)
  have hassign : "::assign::".toList.count ':' = 4 := by decide
  have hcolons : "::".toList.count ':' = 2 := by decide
  rw [hrest, hid, h.id_of_mem ha] at hle
  simp only [String.toList_append, List.count_append, hline, hassign, hcolons] at hle
  omega

end produced

@[simp] theorem CFG.cfgId_addNode (cfg : CFG) (place : Place) (node : CFGNode) : (cfg.addNode place node).cfgId = cfg.cfgId := rfl

@[simp] theorem CFG.cfgId_addEdge (cfg : CFG) (a b : Place) (t : CFGEdgeType) (c : String) :
    (cfg.addEdge a b t c).cfgId = cfg.cfgId := rfl

theorem cfgId_buildPieces (ps : List Piece) (idx : ℕ) (prev : Place) (cfg : CFG) :
    (buildPieces idx ps prev cfg).1.cfgId = cfg.cfgId := by
  induction ps generalizing idx prev cfg with
  | nil => rfl
  | cons p ps ih => exact (ih _ _ _).trans (by cases p <;> simp [buildPiece])

theorem cfgId_buildCfg (f : IRFunction) : (buildCfg f).cfgId = f.id := by
  unfold buildCfg
  dsimp only
  split_ifs
  · rfl
  all_goals exact cfgId_buildPieces _ _ _ _

/-! ## The sets -/

section sets

variable {f : IRFunction} {place : Place} {d : DefTuple} {o : Occurrence} {n : SSANode}

/-- **The sweeps end, and the sets have what the code's own sets generate along paths.**
Source: `analysis/dataflow/reaching_definitions.py`, `analyze`
Kind: P -/
theorem exists_analyze (f : IRFunction) (ssa : SSAFunction) :
    ∃ sets, ReachingDefinitionsAnalysis.analyze (buildCfg f) ssa = some sets ∧ ∀ place ∈ (buildCfg f).nodes.keys,
      ∃ s, sets.ins.get? place = some s ∧ ∀ d, d ∈ s ↔
        Saturation.ComesIn (buildCfg f).getPredecessors (ReachingDefinitionsAnalysis.genSet (buildCfg f) ssa)
          (ReachingDefinitionsAnalysis.killSet (buildCfg f) ssa) place d := by
  obtain ⟨sets, hsets, hspec⟩ := Saturation.solve_spec (ReachingDefinitionsAnalysis.genSet (buildCfg f) ssa)
    (ReachingDefinitionsAnalysis.killSet (buildCfg f) ssa)
    (fun b _ p hp => (mem_keys_of_links (CFG.mem_getPredecessors.mp hp)).1 : ∀ b ∈ (buildCfg f).nodes.keys,
      ∀ p ∈ (buildCfg f).getPredecessors b, p ∈ (buildCfg f).nodes.keys)
  exact ⟨sets, hsets, fun place hplace => (hspec place hplace).1⟩

/-- No node generates the definition of an assignment. Kind: L -/
theorem phi_of_mem_genSet (h : f.Produced)
    (hd : d ∈ ReachingDefinitionsAnalysis.genSet (buildCfg f) (buildSsa (buildCfg f)) place) :
    ∃ n ∈ (buildSsa (buildCfg f)).nodes, n.defTuple = d ∧ n.phiNode.isNone = false := by
  obtain ⟨n, hn, rfl⟩ := List.mem_map.mp (List.mem_toFinset.mp hd)
  obtain ⟨hn, hprefix⟩ := List.mem_filter.mp hn
  refine ⟨n, hn, rfl, Bool.eq_false_iff.mpr fun hnone => ?_⟩
  obtain ⟨entries, hentries⟩ := exists_entriesOf (buildCfg f)
  rw [hentries.nodes] at hn
  obtain ⟨e, he, rfl⟩ := List.mem_map.mp hn
  rw [hentries.numbered.phiNode_isNone he] at hnone
  obtain ⟨o, ho⟩ := Option.isSome_iff_exists.mp hnone
  obtain ⟨before, after, hsplit⟩ := List.append_of_mem he
  rw [((hentries.numbered before e after hsplit).assignment o ho).2.1] at hprefix
  have hmem : o ∈ (buildCfg f).occurrences := hentries.occurrences ▸ List.mem_filterMap.mpr ⟨e, he, ho⟩
  rw [cfgId_buildCfg, not_startsWith h (h.kept.mem_allAssignments hmem)] at hprefix
  cases hprefix

/-- Of the definitions that reach a node, those of assignments are not in its set. Kind: L -/
theorem not_comesIn (h : f.Produced) (hn : (o, n) ∈ (buildSsa (buildCfg f)).definitions (buildCfg f)) :
    ¬Saturation.ComesIn (buildCfg f).getPredecessors
      (ReachingDefinitionsAnalysis.genSet (buildCfg f) (buildSsa (buildCfg f)))
      (ReachingDefinitionsAnalysis.killSet (buildCfg f) (buildSsa (buildCfg f))) place n.defTuple := by
  rintro ⟨p, -, hleaves⟩
  obtain ⟨start, hgen⟩ := hleaves.exists_gen
  obtain ⟨m, hm, hsame, hphi⟩ := phi_of_mem_genSet h hgen
  obtain ⟨entries, hentries⟩ := exists_entriesOf (buildCfg f)
  have hentry := hentries.mem_definitions.mp hn
  rw [hentries.nodes] at hm
  obtain ⟨e, he, rfl⟩ := List.mem_map.mp hm
  -- the version is that of one node only
  have htarget : e.1.target = n.target := by
    obtain ⟨hbase, hversion⟩ := Prod.mk.inj hsame
    exact (SSAVar.mk.injEq ..).mpr ⟨hbase, (Prod.mk.inj hversion).1⟩
  obtain rfl := List.inj_on_of_nodup_map hentries.numbered.nodup_targets he hentry htarget
  rw [hentries.numbered.phiNode_isNone he] at hphi
  cases hphi

/-- The last assignment of a variable in a node reaches the next node. Kind: L -/
theorem exists_reachesNode (h : f.Produced) (ho : o ∈ (buildCfg f).occurrences) :
    ∃ d m next, (d, m) ∈ (buildSsa (buildCfg f)).definitions (buildCfg f) ∧ next ∈ (buildCfg f).nodes.keys ∧
      (buildSsa (buildCfg f)).ReachesNode (buildCfg f) m.defTuple next := by
  obtain ⟨entries, hentries⟩ := exists_entriesOf (buildCfg f)
  obtain ⟨d, hd, hplace, htarget, hlast⟩ := exists_last ⟨o, ho, rfl, rfl⟩
  obtain ⟨⟨m, _⟩, hm, rfl⟩ := List.mem_filterMap.mp (hentries.occurrences ▸ hd)
  have hbase : ∀ {n o}, (n, some o) ∈ entries → n.target.baseName = o.stmt.target := by
    intro n o hn
    obtain ⟨before, after, hsplit⟩ := List.append_of_mem hn
    exact ((hentries.numbered before _ after hsplit).assignment o rfl).2.2.2.1
  have hdef := hentries.mem_definitions.mpr hm
  obtain ⟨s, hs, hslot, hget⟩ := h.kept.mem_occurrences.mp ho
  obtain ⟨next, hnext⟩ : ∃ next, (buildCfg f).Links o.place next := by
    have hne : s.2 ≠ [] := by
      rintro hnil
      rw [hnil] at hget
      cases hget
    have hplaces : o.place ∈ (slotsOf 0 (pieces f.bodyStatements)).map Prod.fst := by
      rcases List.mem_cons.mp hs with rfl | hs
      · exact absurd rfl hne
      rcases List.mem_cons.mp hs with rfl | hs
      · exact absurd rfl hne
      exact hslot ▸ List.mem_map_of_mem hs
    obtain ⟨next, hnext⟩ := exists_flowOf hplaces
    exact ⟨next, (links_buildCfg f _ _).mpr hnext⟩
  refine ⟨d, m, next, hdef, (mem_keys_of_links hnext).2, m, o.place, d.index + 1, rfl, hplace ▸ .assignment hdef, ?_,
    .step hnext⟩
  intro m' k hstands hsame
  generalize hstart : o.place = start at hstands
  cases hstands with
  | phi => exact Nat.zero_le _
  | assignment hm' =>
    have hm' := hentries.mem_definitions.mp hm'
    refine Nat.succ_le_succ (Nat.not_lt.mp fun hlt => ?_)
    refine hlast _ (hentries.occurrences ▸ List.mem_filterMap.mpr ⟨_, hm', rfl⟩) hstart.symm hlt ?_
    rw [← hbase hm', hsame, hbase hm, htarget]

theorem reachingSound_iff (h : f.Produced) : ReachingSound f ↔ allAssignments f.bodyStatements = [] := by
  obtain ⟨sets, hsets, hspec⟩ := exists_analyze f (buildSsa (buildCfg f))
  constructor
  · rintro ⟨sets', hsets', hsound⟩
    obtain rfl := Option.some.inj (hsets.symm.trans hsets')
    by_contra hne
    obtain ⟨a, ha⟩ := List.exists_mem_of_ne_nil _ hne
    -- an assignment has a node, and its definition would have to come in somewhere
    obtain ⟨o, ho⟩ : ∃ o, o ∈ (buildCfg f).occurrences := by
      have hkey := ((all_iff_kept f).mpr h.kept).subset (List.mem_map_of_mem ha)
      rw [keys_assignmentNodes] at hkey
      obtain ⟨b, hb, -⟩ := List.mem_map.mp hkey
      obtain ⟨s, hs, hb⟩ := List.mem_flatMap.mp hb
      obtain ⟨i, hi⟩ := List.mem_iff_getElem?.mp hb
      rw [contents_buildCfg] at hs
      exact ⟨⟨s.1, i, b⟩, h.kept.mem_occurrences.mpr ⟨s, Dict.mem_of_get?_ofList (Dict.mem_entries.mp hs), rfl, hi⟩⟩
    obtain ⟨d, m, next, hdef, hnext, hreaches⟩ := exists_reachesNode h ho
    obtain ⟨s, hs, hmem⟩ := hsound next hnext
    obtain ⟨s', hs', hmem'⟩ := hspec next hnext
    obtain rfl := Option.some.inj (hs.symm.trans hs')
    exact not_comesIn h hdef ((hmem' _).mp ((hmem _).mpr hreaches))
  · intro hnil
    have hoccs : ∀ o, o ∉ (buildCfg f).occurrences := by
      intro o ho
      have ha := h.kept.mem_allAssignments ho
      rw [hnil] at ha
      exact absurd ha List.not_mem_nil
    obtain ⟨entries, hentries⟩ := exists_entriesOf (buildCfg f)
    -- a phi node comes behind an assignment
    have hnodes : (buildSsa (buildCfg f)).nodes = [] := by
      rw [hentries.nodes]
      rcases entries with _ | ⟨e, entries⟩
      · rfl
      · rcases heo : e.2 with _ | o
        · have hpos := ((hentries.numbered [] e entries rfl).phi heo).1
          exact absurd hpos (lt_irrefl 0)
        · exact absurd (hentries.occurrences ▸ List.mem_filterMap.mpr ⟨e, List.mem_cons_self, heo⟩) (hoccs o)
    refine ⟨sets, hsets, fun place hplace => ?_⟩
    obtain ⟨s, hs, hmem⟩ := hspec place hplace
    refine ⟨s, hs, fun d => iff_of_false ?_ ?_⟩
    · rw [hmem]
      rintro ⟨p, -, hleaves⟩
      obtain ⟨start, hgen⟩ := hleaves.exists_gen
      obtain ⟨n, hn, -⟩ := phi_of_mem_genSet h hgen
      rw [hnodes] at hn
      exact absurd hn List.not_mem_nil
    · rintro ⟨n, start, index, -, hstands, -⟩
      cases hstands with
      | phi hn =>
        rw [hnodes] at hn
        exact absurd hn List.not_mem_nil
      | assignment hdef => exact hoccs _ (List.of_mem_zip hdef).1

/-- **The sets are the definitions that reach exactly in functions that assign nothing.** The analysis always ends.
Source: `analysis/dataflow/reaching_definitions.py`, `ReachingDefinitionsAnalysis`; `ir/builder.py`, `_convert_statement`
Kind: P -/
theorem reachingDefinitions_iff {files : List SourceFile} {functions : List IRFunction}
    (hfiles : IRBuilder.buildFromFileNodes files = some functions) {f : IRFunction} (hf : f ∈ functions) :
    (ReachingDefinitionsAnalysis.analyze (buildCfg f) (buildSsa (buildCfg f))).isSome ∧
      (ReachingSound f ↔ allAssignments f.bodyStatements = []) := by
  obtain ⟨sets, hsets, -⟩ := exists_analyze f (buildSsa (buildCfg f))
  exact ⟨Option.isSome_iff_exists.mpr ⟨sets, hsets⟩, reachingSound_iff (IRBuilder.produced_of_mem hfiles hf)⟩

/-- One function with one assignment. Kind: D -/
def oneAssignment : SourceFile where
  filePath := some "app.py"
  nodesMap := .ofList
    [("n1", { nodeId := "n1", parentId := none, nodeType := "function_definition", nodeClass := .function, startLine := 1,
              byteStart := 0, children := ["n2"], attr := fun name => if name = "name" then "calc" else "", text := "" }),
     ("n2", { nodeId := "n2", parentId := some "n1", nodeType := "assignment", nodeClass := .assignment, startLine := 2,
              byteStart := 12, children := [],
              attr := fun name => if name = "target" then "x" else if name = "value" then "1" else "", text := "x = 1" })]

theorem built_oneAssignment : ∃ functions, IRBuilder.buildFromFileNodes [oneAssignment] = some functions ∧
    ∃ f ∈ functions, allAssignments f.bodyStatements ≠ [] := by
  have hbuilt : ((IRBuilder.buildFromFileNodes [oneAssignment]).any fun functions =>
      functions.any fun f => !(allAssignments f.bodyStatements).isEmpty) = true := by decide +kernel
  rcases hfunctions : IRBuilder.buildFromFileNodes [oneAssignment] with _ | functions
  · rw [hfunctions] at hbuilt
    cases hbuilt
  · simp_all

/-- Kind: T -/
theorem reachingDefinitions_iff_oneAssignment : ∃ functions, IRBuilder.buildFromFileNodes [oneAssignment] = some functions ∧
    ∃ f ∈ functions, (ReachingDefinitionsAnalysis.analyze (buildCfg f) (buildSsa (buildCfg f))).isSome ∧
      (ReachingSound f ↔ allAssignments f.bodyStatements = []) := by
  obtain ⟨functions, hfunctions, f, hf, -⟩ := built_oneAssignment
  exact ⟨functions, hfunctions, f, hf, reachingDefinitions_iff hfunctions hf⟩

/-- The definition of the only assignment never comes in anywhere. Kind: T -/
theorem only_definition_lost : ¬∀ files functions, IRBuilder.buildFromFileNodes files = some functions →
    ∀ f ∈ functions, ReachingSound f := by
  intro hall
  obtain ⟨functions, hfunctions, f, hf, hassigns⟩ := built_oneAssignment
  exact hassigns ((reachingSound_iff (IRBuilder.produced_of_mem hfunctions hf)).mp (hall _ _ hfunctions f hf))

end sets

end KarsaSec.Ssa
