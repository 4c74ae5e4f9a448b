import KarsaSec.Cfg.Execution
import KarsaSec.Found.Dominators
import KarsaSec.Found.Sorting
import Mathlib.Data.String.Basic

/-!
# Reachability and dominators

The last step of `CFGBuilder.build_cfg`: which blocks the entry reaches, and what dominates them.

* `finalizeCfg` runs the two loops of `_finalize_cfg`, each with a bound; nothing is left where a bound is met, or where a
  block is missing.
* `Linked` is the invariant of the builder: the predecessors that a block records are those that edges come from.
  `linked_buildBody` holds it for every list of statements.
* `finalizeCfg_exact`: the loops end, the reachable blocks are those that edges lead to, and a block has as dominators
  what lies on every path to it.
-/

namespace KarsaSec.Cfg

open KarsaSec.Found

/-! ## The last step -/

/-- Source: `builder.py`, `_finalize_cfg`, `cfg.reachable_blocks`, `cfg.dominators`. Kind: D -/
structure Finalized where
  reachableBlocks : List String
  dominators : Dict String (Finset String)

namespace ControlFlowGraph

/-- The edges as pairs. Kind: D -/
def links (cfg : ControlFlowGraph) : List (String × String) := cfg.edges.map fun e => (e.srcId, e.targetId)

/-- Source: `builder.py`, `cfg.blocks[block_id].predecessors`. Kind: D -/
def predecessors (cfg : ControlFlowGraph) (blockId : String) : List String :=
  ((cfg.blocks.get? blockId).map BasicBlock.predecessors).getD []

/-- Source: `builder.py`, `_finalize_cfg`. Kind: D -/
def finalizeCfg (cfg : ControlFlowGraph) : Option Finalized :=
  (bfsWithin cfg.links (cfg.edges.length + 2) [cfg.entryId] []).bind fun reachable =>
    if ∃ blockId ∈ reachable, blockId ≠ cfg.entryId ∧ cfg.blocks.contains blockId = false then none
    else
      (Dominators.dominators (sortBy id reachable) cfg.predecessors cfg.entryId).map fun dominators =>
        { reachableBlocks := reachable, dominators := dominators }

end ControlFlowGraph

/-! ## What blocks record -/

namespace Builder

/-- Edges join blocks, and a block records where they come from. Kind: D -/
structure Linked (g : Builder) : Prop where
  exit : "exit" ∈ g.blocks.keys
  ends : ∀ e ∈ g.edges, e.srcId ∈ g.blocks.keys ∧ e.targetId ∈ g.blocks.keys
  preds : ∀ id block, g.blocks.get? id = some block → ∀ a, a ∈ block.predecessors ↔ HasEdge g a id

variable {g : Builder}

/-- A change to a block that keeps its predecessors. Kind: L -/
theorem Linked.modifyBlock (h : Linked g) (id : String) {f : BasicBlock → BasicBlock}
    (hf : ∀ b, (f b).predecessors = b.predecessors) : Linked (g.modifyBlock id f) := by
  have hedges : (g.modifyBlock id f).edges = g.edges := edges_modifyBlock g id f
  refine ⟨?_, fun e he => ?_, fun id' block hblock a => ?_⟩
  · rw [keys_modifyBlock]
    exact h.exit
  · rw [keys_modifyBlock]
    exact h.ends e (hedges ▸ he)
  · unfold HasEdge
    rw [hedges]
    rw [get?_modifyBlock] at hblock
    split_ifs at hblock with hid
    · obtain ⟨old, hold, rfl⟩ := Option.map_eq_some_iff.mp hblock
      rw [hf, hid]
      exact h.preds id old hold a
    · exact h.preds id' block hblock a

theorem Linked.appendStmt (h : Linked g) (id : String) (s : Stmt) : Linked (g.appendStmt id s) :=
  h.modifyBlock id fun _ => rfl

theorem Linked.terminate (h : Linked g) (id : String) : Linked (g.terminate id) := h.modifyBlock id fun _ => rfl

theorem mem_appendNew {l : List String} {a x : String} : x ∈ appendNew l a ↔ x ∈ l ∨ x = a := by grind [appendNew]

/-- An edge between blocks is recorded. Source: `builder.py`, `_add_edge`. Kind: L -/
theorem Linked.addEdge (h : Linked g) {a b : String} (ha : a ∈ g.blocks.keys) (hb : b ∈ g.blocks.keys) (k : CFGEdgeKind)
    (c : Option String) : Linked (g.addEdge a b k c) := by
  refine ⟨?_, fun e he => ?_, fun id block hblock x => ?_⟩
  · rw [keys_addEdge]
    exact h.exit
  · rw [keys_addEdge]
    rw [edges_addEdge] at he
    rcases List.mem_append.mp he with he | he
    · exact h.ends e he
    · rw [List.mem_singleton.mp he]
      exact ⟨ha, hb⟩
  · have hnew : HasEdge (g.addEdge a b k c) x id ↔ HasEdge g x id ∨ (x = a ∧ id = b) := by
      unfold HasEdge
      simp only [edges_addEdge, List.mem_append, List.mem_singleton, or_and_right, exists_or, exists_eq_left]
      exact or_congr_right ⟨fun h => ⟨h.1.symm, h.2.symm⟩, fun h => ⟨h.1.symm, h.2.symm⟩⟩
    rw [hnew]
    unfold Builder.addEdge at hblock
    dsimp only at hblock
    rw [get?_modifyBlock] at hblock
    -- the change to the successors of `a` keeps predecessors
    have hmiddle : ∀ id' block', ((({ g with edges := g.edges ++ [⟨a, b, k, c⟩] } : Builder).modifyBlock a fun y =>
        { y with successors := appendNew y.successors b }).blocks.get? id' = some block') →
        (x ∈ block'.predecessors ↔ HasEdge g x id') := by
      intro id' block' hblock'
      rw [get?_modifyBlock] at hblock'
      split_ifs at hblock' with hid
      · obtain ⟨old, hold, rfl⟩ := Option.map_eq_some_iff.mp hblock'
        rw [hid]
        exact h.preds a old hold x
      · exact h.preds id' block' hblock' x
    split_ifs at hblock with hid
    · obtain ⟨old, hold, rfl⟩ := Option.map_eq_some_iff.mp hblock
      rw [mem_appendNew, hmiddle b old hold, hid]
      exact or_congr_right ⟨fun heq => ⟨heq, rfl⟩, fun heq => heq.1⟩
    · grind

theorem Linked.joinUnless (h : Linked g) (t : Bool) {a b : String} (ha : a ∈ g.blocks.keys) (hb : b ∈ g.blocks.keys)
    (k : CFGEdgeKind) : Linked (g.joinUnless t a b k) := by
  unfold Builder.joinUnless
  split_ifs
  · exact h
  · exact h.addEdge ha hb k none

/-- A new block has no edges yet. Kind: L -/
theorem Linked.newBlock (h : Linked g) {block : BasicBlock} (hnew : block.blockId ∉ g.blocks.keys)
    (hpreds : block.predecessors = []) : Linked (g.tick.addBlock block) := by
  refine ⟨(mem_keys_addBlock _ _ _).mpr (.inr h.exit), fun e he => ?_, fun id b hb a => ?_⟩
  · exact (h.ends e he).imp (fun hin => (mem_keys_addBlock _ _ _).mpr (.inr hin))
      fun hin => (mem_keys_addBlock _ _ _).mpr (.inr hin)
  · have hedge : HasEdge (g.tick.addBlock block) a id ↔ HasEdge g a id := Iff.rfl
    rw [hedge]
    unfold addBlock at hb
    dsimp only at hb
    rw [Dict.get?_set] at hb
    split_ifs at hb with hid
    · obtain rfl := Option.some.inj hb
      rw [hpreds]
      refine ⟨fun hin => absurd hin List.not_mem_nil, ?_⟩
      rintro ⟨e, he, _, htarget⟩
      exact absurd (hid ▸ htarget ▸ (h.ends e he).2) hnew
    · exact h.preds id b hb a

end Builder

open Builder

theorem linked_openSub {g : Builder} (hr : g.Fresh) (hl : Linked g) (label : String) : Linked (openSub label g) :=
  hl.newBlock (hr.nextId_not_mem label) rfl

/-- The edges of a merge block. Source: `builder.py`, `m_block`. Kind: L -/
theorem linked_mergeBranches {g : Builder} (hr : g.Fresh) (hl : Linked g) {t f : String × Bool} (ht : t.1 ∈ g.blocks.keys)
    (hf : f.1 ∈ g.blocks.keys) : Linked (mergeBranches g t f) := by
  have hblock : Linked (g.tick.addBlock { blockId := g.nextId "merge", label := "MERGE" }) :=
    hl.newBlock (hr.nextId_not_mem "merge") rfl
  refine (hblock.joinUnless _ ?_ ?_ _).joinUnless _ ?_ ?_ _
  · exact (mem_keys_addBlock _ _ _).mpr (.inr ht)
  · exact (mem_keys_addBlock _ _ _).mpr (.inl rfl)
  · simp_all
  · simp

/-- What building a list is to keep. Kind: D -/
def KeepsLinked (l : List Stmt) : Prop := ∀ c g, Ready c g → Linked g → Linked (buildList l c g).1

/-- A list behind a condition block, and the edge that leads there. Kind: L -/
theorem linked_sub {g : Builder} (hr : g.Fresh) (hl : Linked g) {cond : String} (hcond : cond ∈ g.blocks.keys)
    {m : List Stmt} (hm : KeepsLinked m) (label : String) (k : CFGEdgeKind) (condition : Option String) :
    Linked ((buildList m (g.nextId label) (openSub label g)).1.addEdge cond (g.nextId label) k condition) := by
  obtain ⟨hopen, hready⟩ := openSub_spec hr cond label
  have hbuilt := (buildList_spec m _ _ hready).1.grows
  refine (hm _ _ hready (linked_openSub hr hl label)).addEdge ?_ ?_ _ _
  · exact hbuilt.keys _ (hopen.keys _ hcond)
  · exact hbuilt.keys _ hready.mem

/-- The two lists of a branch and its merge block. Source: `builder.py`, `if` cases. Kind: L -/
theorem linked_branches {g : Builder} (hr : g.Fresh) (hl : Linked g) {cond : String} (hcond : cond ∈ g.blocks.keys)
    (condition : Option String) {onTrue onFalse : List Stmt} (htrue : KeepsLinked onTrue) (hfalse : KeepsLinked onFalse) :
    let t := buildList onTrue (g.nextId "true_branch") (openSub "true_branch" g)
    let g' := t.1.addEdge cond (g.nextId "true_branch") .trueBranch condition
    let f := buildList onFalse (g'.nextId "false_branch") (openSub "false_branch" g')
    let g'' := f.1.addEdge cond (g'.nextId "false_branch") .falseBranch condition
    Linked (mergeBranches g'' t.2 f.2) := by
  intro t g' f g''
  have hfork := branches_spec hr cond condition (fun c g hc => (buildList_spec onTrue c g hc).1)
    fun c g hc => (buildList_spec onFalse c g hc).1
  have ht : Linked g' := linked_sub hr hl hcond htrue "true_branch" .trueBranch condition
  have hf : Linked g'' := linked_sub (hfork.growsTrue cond).fresh ht ((hfork.growsTrue cond).keys _ hcond) hfalse
    "false_branch" .falseBranch condition
  refine linked_mergeBranches (hfork.growsFalse cond).fresh hf ?_ ?_
  · refine (hfork.growsFalse cond).keys _ ?_
    rw [keys_addEdge]
    exact (buildList_spec onTrue _ _ hfork.readyTrue).1.mem
  · rw [keys_addEdge]
    exact (buildList_spec onFalse _ _ hfork.readyFalse).1.mem

mutual

theorem linked_buildInner : (s : Stmt) → (curr : String) → (g : Builder) → Ready curr g → Linked g →
    Linked (buildInner s curr g).1
  | .mk tag kind text condition onTrue onFalse body, curr, g, hr, hl => by
    set s := Stmt.mk tag kind text condition onTrue onFalse body with hs
    unfold buildInner
    by_cases hexit : getStmtKind s = .exit
    · simp only [← hs, if_pos hexit]
      refine ((hl.appendStmt curr s).terminate curr).addEdge ?_ ?_ _ _
      · rw [keys_terminate, keys_appendStmt]
        exact hr.mem
      · rw [keys_terminate, keys_appendStmt]
        exact hl.exit
    · by_cases hbranch : getStmtKind s = .branch
      · simp only [← hs, if_neg hexit, if_pos hbranch]
        exact linked_branches hr.fresh hl hr.mem condition (fun c g => linked_buildList onTrue c g)
          fun c g => linked_buildList onFalse c g
      · simp only [← hs, if_neg hexit, if_neg hbranch]
        exact hl.appendStmt curr s

/-- Building a branch or body. Source: `builder.py`, `_build_subgraph`. Kind: L -/
theorem linked_buildList : (l : List Stmt) → (curr : String) → (g : Builder) → Ready curr g → Linked g →
    Linked (buildList l curr g).1
  | [], curr, g, _, hl => by
    unfold buildList
    exact hl
  | s :: rest, curr, g, hr, hl => by
    have hinner := linked_buildInner s curr g hr hl
    obtain ⟨-, -, hready⟩ := buildInner_spec s curr g hr
    unfold buildList
    dsimp only
    split_ifs with hends
    · exact hinner
    · exact linked_buildList rest _ _ (hready (Bool.eq_false_iff.mpr hends)) hinner

end

theorem linked_conditionBlock {g : Builder} {curr : String} (hr : Ready curr g) (hl : Linked g) (s : Stmt) :
    Linked (conditionBlock s curr g).1 := by
  unfold conditionBlock
  split_ifs
  · exact hl.appendStmt curr s
  · refine Linked.addEdge (hl.newBlock (hr.fresh.nextId_not_mem "cond") rfl) ?_ ?_ _ _
    · exact (mem_keys_addBlock _ _ _).mpr (.inr hr.mem)
    · exact (mem_keys_addBlock _ _ _).mpr (.inl rfl)

theorem linked_openLoop {g : Builder} {curr : String} (hr : Ready curr g) (hl : Linked g) (s : Stmt) :
    Linked (openLoop s curr g) := by
  unfold openLoop
  refine Linked.addEdge (hl.newBlock (hr.fresh.nextId_not_mem "loop_cond") rfl) ?_ ?_ _ _
  · exact (mem_keys_addBlock _ _ _).mpr (.inr hr.mem)
  · exact (mem_keys_addBlock _ _ _).mpr (.inl rfl)

/-- A loop with its body and the block behind it. Source: `builder.py`, `build_cfg`, `while` case. Kind: L -/
theorem linked_buildLoop {g : Builder} {curr : String} (hr : Ready curr g) (hl : Linked g) (s : Stmt) :
    Linked (buildLoop s curr g).1 := by
  obtain ⟨-, hready⟩ := openLoop_spec hr s
  have hlooped := loopBody_spec hready.fresh (g.nextId "loop_cond") s.condition
    fun c g hc => (buildList_spec s.body c g hc).1
  have hbody := linked_sub hready.fresh (linked_openLoop hr hl s) hready.mem (linked_buildList s.body) "loop_body"
    .trueBranch s.condition
  have hcond := (hlooped.growsBody curr).keys _ hready.mem
  refine Linked.addEdge (Linked.newBlock (hbody.joinUnless _ ?_ ?_ _)
    ((hlooped.growsBody curr).fresh.nextId_not_mem "post_loop") rfl) ?_ ?_ _ _
  · rw [keys_addEdge]
    exact (buildList_spec s.body _ _ hlooped.readyBody).1.mem
  · rwa [keys_joinUnless] at hcond
  · exact (mem_keys_addBlock _ _ _).mpr (.inr hcond)
  · exact (mem_keys_addBlock _ _ _).mpr (.inl rfl)

/-- A statement of the whole body. Source: `builder.py`, `build_cfg`. Kind: L -/
theorem linked_buildStmt {g : Builder} {curr : String} (hr : Ready curr g) (hl : Linked g) (s : Stmt) :
    Linked (buildStmt s curr g).1 := by
  unfold buildStmt
  rcases getStmtKind s with _ | _ | _ | _
  · obtain ⟨-, hready⟩ := conditionBlock_spec hr s
    exact linked_branches hready.fresh (linked_conditionBlock hr hl s) hready.mem s.condition
      (linked_buildList s.onTrue) (linked_buildList s.onFalse)
  · exact linked_buildLoop hr hl s
  · -- the terminator's block leads to the exit, and the block behind it is new
    have hadd := Grows.of_appendStmt hr.fresh hr.mem s
    have hterm := hadd.trans (Grows.of_terminate hadd.fresh curr curr) (Or.inl rfl)
    have hedge := hterm.trans (Grows.of_addEdge hterm.fresh curr curr "exit" .fallthrough none) (Or.inl rfl)
    refine Linked.newBlock (((hl.appendStmt curr s).terminate curr).addEdge ?_ ?_ _ _) (hedge.fresh.nextId_not_mem "dead") rfl
    · rw [keys_terminate, keys_appendStmt]
      exact hr.mem
    · rw [keys_terminate, keys_appendStmt]
      exact hl.exit
  · exact hl.appendStmt curr s

theorem linked_buildTop {l : List Stmt} {g : Builder} {curr : String} (hr : Ready curr g) (hl : Linked g) :
    Linked (buildTop l curr g).1 := by
  induction l generalizing curr g with
  | nil => exact hl
  | cons s rest ih =>
    unfold buildTop
    exact ih (buildStmt_spec hr s).2 (linked_buildStmt hr hl s)

theorem linked_initBuilder : Linked initBuilder := by
  refine ⟨by decide, fun e he => absurd he List.not_mem_nil, fun id block hblock a => ?_⟩
  have hnone : ∀ id block, initBuilder.blocks.get? id = some block → block.predecessors = [] := by
    intro id block hblock
    unfold initBuilder addBlock at hblock
    dsimp only at hblock
    rw [Dict.get?_set, Dict.get?_set] at hblock
    split_ifs at hblock
    · rw [← Option.some.inj hblock]
    · rw [← Option.some.inj hblock]
    · cases hblock
  rw [hnone id block hblock]
  constructor
  · exact fun h => absurd h List.not_mem_nil
  · rintro ⟨_, he, _⟩
    exact absurd he List.not_mem_nil

/-- **Each block of the finished graph records its predecessors.** Source: `builder.py`, `build_cfg`. Kind: L -/
theorem linked_buildBody (stmts : List Stmt) : Linked (buildBody stmts) := by
  have hl : Linked (buildTop stmts "entry" initBuilder).1 := linked_buildTop ready_initBuilder linked_initBuilder
  have hmem := (buildTop_spec (l := stmts) ready_initBuilder).1.mem
  unfold buildBody
  dsimp only
  split_ifs
  · exact linked_initBuilder.addEdge ready_initBuilder.mem linked_initBuilder.exit _ _
  · exact hl.addEdge hmem hl.exit _ _
  · exact hl

/-! ## What the last step leaves -/

namespace ControlFlowGraph

/-- The blocks that the entry reaches, and what they record: what the iteration asks for. Kind: D -/
structure Closed (cfg : ControlFlowGraph) : Prop where
  present : ∀ b ∈ reachFrom cfg.links cfg.entryId, cfg.blocks.contains b
  preds : ∀ b ∈ reachFrom cfg.links cfg.entryId, ∀ a, a ∈ cfg.predecessors b ↔ (a, b) ∈ cfg.links

variable {cfg : ControlFlowGraph}

/-- What edges lead to has a walk there. Kind: L -/
theorem exists_walk {b : String} (h : Relation.ReflTransGen (fun a b => (a, b) ∈ cfg.links) cfg.entryId b) :
    ∃ path, IsWalk (targets cfg.links) cfg.entryId b path := by
  induction h with
  | refl => exact ⟨[cfg.entryId], rfl, rfl, List.isChain_singleton _⟩
  | tail _ hedge ih =>
    obtain ⟨path, hwalk⟩ := ih
    exact ⟨_, hwalk.snoc (mem_targets.mpr hedge)⟩

theorem Closed.flow (h : cfg.Closed) :
    Dominators.Flow (sortBy id (reachFrom cfg.links cfg.entryId)) cfg.predecessors cfg.entryId (targets cfg.links) := by
  have hperm := sortBy_perm id (reachFrom cfg.links cfg.entryId)
  refine ⟨?_, fun a ha b hb => ?_, fun b hb => ?_, fun b hb a => ?_⟩
  · exact hperm.mem_iff.mpr (mem_reachFrom.mpr .refl)
  · grind [mem_reachFrom, mem_targets]
  · exact exists_walk (mem_reachFrom.mp (hperm.mem_iff.mp hb))
  · rw [mem_targets]
    exact h.preds b (hperm.mem_iff.mp hb) a

/-- Both loops end, with what edges lead to and what lies on every walk. Kind: L -/
theorem Closed.finalizeCfg_eq (h : cfg.Closed) : ∃ result, cfg.finalizeCfg = some result ∧
    result.reachableBlocks = reachFrom cfg.links cfg.entryId ∧
    ∀ b ∈ result.reachableBlocks, ∃ doms, result.dominators.get? b = some doms ∧
      ∀ a, a ∈ doms ↔ Dominators.Dominates cfg.entryId (targets cfg.links) a b := by
  obtain ⟨dom, hdom, hmem⟩ := Dominators.mem_dominators_iff h.flow
  have hsearch : bfsWithin cfg.links (cfg.edges.length + 2) [cfg.entryId] [] = some (reachFrom cfg.links cfg.entryId) := by
    have hlength : cfg.links.length = cfg.edges.length := List.length_map _
    rw [← hlength]
    exact bfsWithin_start cfg.entryId
  have hpresent : ¬∃ b ∈ reachFrom cfg.links cfg.entryId, b ≠ cfg.entryId ∧ cfg.blocks.contains b = false := by
    rintro ⟨b, hb, -, hmissing⟩
    rw [h.present b hb] at hmissing
    cases hmissing
  refine ⟨⟨reachFrom cfg.links cfg.entryId, dom⟩, ?_, rfl, fun b hb => ?_⟩
  · simp_all [finalizeCfg]
  · exact hmem b ((sortBy_perm id _).mem_iff.mpr hb)

end ControlFlowGraph

theorem entry_mem_buildBody (stmts : List Stmt) : "entry" ∈ (buildBody stmts).blocks.keys := by
  have hbuilt := (buildTop_spec (l := stmts) ready_initBuilder).1.grows.keys _ ready_initBuilder.mem
  unfold buildBody
  dsimp only
  split_ifs
  · rw [keys_addEdge]
    exact ready_initBuilder.mem
  · rwa [keys_addEdge]
  · exact hbuilt

/-- The graph of a list of statements records its edges. Source: `builder.py`, `build_cfg`. Kind: L -/
theorem closed_buildFrom (name : String) (stmts : List Stmt) : (buildFrom name stmts).Closed := by
  have hlinked := linked_buildBody stmts
  have hkeys : ∀ b, b ∈ reachFrom (buildFrom name stmts).links (buildFrom name stmts).entryId →
      b ∈ (buildBody stmts).blocks.keys := by
    intro b hb
    rcases (mem_reachFrom.mp hb).cases_tail with heq | ⟨a, -, hedge⟩
    · exact heq ▸ entry_mem_buildBody stmts
    · obtain ⟨e, he, heq⟩ := List.mem_map.mp hedge
      obtain ⟨-, rfl⟩ := Prod.mk.inj heq
      exact (hlinked.ends e he).2
  refine ⟨fun b hb => Dict.get?_isSome.mpr (hkeys b hb), fun b hb a => ?_⟩
  obtain ⟨block, hblock⟩ := Option.isSome_iff_exists.mp (Dict.get?_isSome.mpr (hkeys b hb))
  have hfound : (buildFrom name stmts).predecessors b = block.predecessors := by
    simp_all [ControlFlowGraph.predecessors, buildFrom]
  have hedge : HasEdge (buildBody stmts) a b ↔ (a, b) ∈ (buildFrom name stmts).links := by
    simp [HasEdge, ControlFlowGraph.links, buildFrom]
  rw [hfound, hlinked.preds b block hblock a, hedge]

/-- **The last step ends with the blocks that edges lead to, and a block has as dominators what lies on every path to
it.**
Source: `builder.py`, `_finalize_cfg`
Kind: P -/
theorem finalizeCfg_exact (name : String) (raw : List Stmt) :
    let cfg := buildCfg name raw
    ∃ result, cfg.finalizeCfg = some result ∧ result.reachableBlocks = cfg.reachableBlocks ∧
      (∀ b, b ∈ result.reachableBlocks ↔ Relation.ReflTransGen (fun a b => (a, b) ∈ cfg.links) cfg.entryId b) ∧
      ∀ a ∈ result.reachableBlocks, ∀ b ∈ result.reachableBlocks, ∃ doms, result.dominators.get? b = some doms ∧
        (a ∈ doms ↔ ∀ path, IsWalk (targets cfg.links) cfg.entryId b path → a ∈ path) := by
  intro cfg
  obtain ⟨result, hresult, hreach, hdoms⟩ := (closed_buildFrom name (preprocessStatements raw)).finalizeCfg_eq
  refine ⟨result, hresult, hreach, fun b => ?_, fun a _ b hb => ?_⟩
  · rw [hreach]
    exact mem_reachFrom
  · obtain ⟨doms, hget, hmem⟩ := hdoms b hb
    exact ⟨doms, hget, hmem a⟩

end KarsaSec.Cfg
