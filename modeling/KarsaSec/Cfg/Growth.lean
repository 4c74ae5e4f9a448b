import KarsaSec.Cfg.Builder
import KarsaSec.Cfg.Structured

/-!
# How a graph grows

What the operations of the builder change, and what they leave alone.

* one simp lemma for each operation and each part of a `Builder`;
* `Fresh`: block identifiers come from the counter, so the next one is new (`Fresh.nextId_not_mem`);
* `Grows`: from one builder to a later one, with the statements that were added; `Grows.trans` chains
  the `of_` lemmas of the operations.
-/

namespace KarsaSec.Cfg

open KarsaSec.Found

namespace Builder

/-! ## What the operations change -/

theorem get?_modifyBlock (g : Builder) (id id' : String) (f : BasicBlock → BasicBlock) :
    (g.modifyBlock id f).blocks.get? id' =
      if id' = id then (g.blocks.get? id).map f else g.blocks.get? id' := by
  unfold modifyBlock
  rcases hb : g.blocks.get? id with _ | block
  · simp_all
  · exact Dict.get?_set _ _ _ _

@[simp] theorem keys_modifyBlock (g : Builder) (id : String) (f : BasicBlock → BasicBlock) :
    (g.modifyBlock id f).blocks.keys = g.blocks.keys := by
  unfold modifyBlock
  rcases hb : g.blocks.get? id with _ | block
  · rfl
  · have hmem : id ∈ g.blocks.keys := Dict.get?_isSome.mp (by rw [hb]; rfl)
    simp [hmem]

@[simp] theorem counter_modifyBlock (g : Builder) (id : String) (f : BasicBlock → BasicBlock) :
    (g.modifyBlock id f).counter = g.counter := by
  unfold modifyBlock
  split <;> rfl

@[simp] theorem edges_modifyBlock (g : Builder) (id : String) (f : BasicBlock → BasicBlock) :
    (g.modifyBlock id f).edges = g.edges := by
  unfold modifyBlock
  split <;> rfl

/-- A change to a block that keeps its statements keeps all statements. Kind: L -/
theorem statements_modifyBlock (g : Builder) (id id' : String) {f : BasicBlock → BasicBlock}
    (hf : ∀ b, (f b).statements = b.statements) :
    (g.modifyBlock id f).statements id' = g.statements id' := by
  unfold statements
  rw [get?_modifyBlock]
  split
  · next h =>
      subst h
      rcases g.blocks.get? id' with _ | b
      · rfl
      · simp [hf]
  · rfl

@[simp] theorem statements_terminate (g : Builder) (id id' : String) :
    (g.terminate id).statements id' = g.statements id' :=
  statements_modifyBlock g id id' fun _ => rfl

@[simp] theorem statements_addEdge (g : Builder) (a b : String) (k : CFGEdgeKind)
    (c : Option String) (id : String) : (g.addEdge a b k c).statements id = g.statements id := by
  unfold addEdge
  rw [statements_modifyBlock _ _ _ fun _ => by rfl, statements_modifyBlock _ _ _ fun _ => by rfl]
  rfl

@[simp] theorem keys_addEdge (g : Builder) (a b : String) (k : CFGEdgeKind) (c : Option String) :
    (g.addEdge a b k c).blocks.keys = g.blocks.keys := by
  simp [addEdge]

@[simp] theorem counter_addEdge (g : Builder) (a b : String) (k : CFGEdgeKind)
    (c : Option String) : (g.addEdge a b k c).counter = g.counter := by
  simp [addEdge]

@[simp] theorem edges_addEdge (g : Builder) (a b : String) (k : CFGEdgeKind) (c : Option String) :
    (g.addEdge a b k c).edges = g.edges ++ [⟨a, b, k, c⟩] := by
  simp [addEdge]

@[simp] theorem keys_appendStmt (g : Builder) (id : String) (s : Stmt) :
    (g.appendStmt id s).blocks.keys = g.blocks.keys := keys_modifyBlock _ _ _

@[simp] theorem counter_appendStmt (g : Builder) (id : String) (s : Stmt) :
    (g.appendStmt id s).counter = g.counter := counter_modifyBlock _ _ _

@[simp] theorem edges_appendStmt (g : Builder) (id : String) (s : Stmt) :
    (g.appendStmt id s).edges = g.edges := edges_modifyBlock _ _ _

@[simp] theorem keys_terminate (g : Builder) (id : String) :
    (g.terminate id).blocks.keys = g.blocks.keys := keys_modifyBlock _ _ _

@[simp] theorem counter_terminate (g : Builder) (id : String) :
    (g.terminate id).counter = g.counter := counter_modifyBlock _ _ _

@[simp] theorem edges_terminate (g : Builder) (id : String) : (g.terminate id).edges = g.edges :=
  edges_modifyBlock _ _ _

@[simp] theorem statements_appendStmt_ne (g : Builder) {id id' : String} (h : id' ≠ id) (s : Stmt) :
    (g.appendStmt id s).statements id' = g.statements id' := by
  unfold statements appendStmt
  rw [get?_modifyBlock, if_neg h]

theorem statements_appendStmt_self (g : Builder) {id : String} (h : id ∈ g.blocks.keys) (s : Stmt) :
    (g.appendStmt id s).statements id = g.statements id ++ [s] := by
  obtain ⟨b, hb⟩ := Option.isSome_iff_exists.mp (Dict.get?_isSome.mpr h)
  unfold statements appendStmt
  rw [get?_modifyBlock, if_pos rfl, hb]
  rfl

@[simp] theorem mem_keys_addBlock (g : Builder) (block : BasicBlock) (id : String) :
    id ∈ (g.addBlock block).blocks.keys ↔ id = block.blockId ∨ id ∈ g.blocks.keys :=
  Dict.mem_keys_set

@[simp] theorem counter_addBlock (g : Builder) (block : BasicBlock) :
    (g.addBlock block).counter = g.counter := rfl

@[simp] theorem edges_addBlock (g : Builder) (block : BasicBlock) :
    (g.addBlock block).edges = g.edges := rfl

theorem statements_addBlock (g : Builder) (block : BasicBlock) (id : String) :
    (g.addBlock block).statements id =
      if id = block.blockId then block.statements else g.statements id := by
  unfold statements addBlock
  rw [Dict.get?_set]
  split <;> rfl

@[simp] theorem blocks_tick (g : Builder) : g.tick.blocks = g.blocks := rfl

@[simp] theorem edges_tick (g : Builder) : g.tick.edges = g.edges := rfl

@[simp] theorem counter_tick (g : Builder) : g.tick.counter = g.counter + 1 := rfl

@[simp] theorem statements_tick (g : Builder) (id : String) :
    g.tick.statements id = g.statements id := rfl

@[simp] theorem statements_joinUnless (g : Builder) (t : Bool) (a b : String) (k : CFGEdgeKind)
    (id : String) : (g.joinUnless t a b k).statements id = g.statements id := by
  unfold joinUnless
  split <;> simp

@[simp] theorem keys_joinUnless (g : Builder) (t : Bool) (a b : String) (k : CFGEdgeKind) :
    (g.joinUnless t a b k).blocks.keys = g.blocks.keys := by
  unfold joinUnless
  split <;> simp

theorem statements_eq_nil {g : Builder} {id : String} (h : id ∉ g.blocks.keys) :
    g.statements id = [] := by
  have hnone := Dict.get?_eq_none.mpr h
  rw [statements, hnone]
  rfl

/-! ## New identifiers -/

/-- An identifier that the counter may have given up to `n`. Kind: D -/
def Known (n : ℕ) (id : String) : Prop :=
  id = "entry" ∨ id = "exit" ∨ ∃ label k, k ≤ n ∧ id = label ++ "_" ++ toString k

/-- All identifiers have been given. Kind: D -/
def Fresh (g : Builder) : Prop := ∀ id ∈ g.blocks.keys, Known g.counter id

theorem Known.mono {n n' : ℕ} {id : String} (h : Known n id) (hn : n ≤ n') : Known n' id := by
  rcases h with h | h | ⟨label, k, hk, h⟩
  · exact Or.inl h
  · exact Or.inr (Or.inl h)
  · exact Or.inr (Or.inr ⟨label, k, hk.trans hn, h⟩)

theorem known_nextId (g : Builder) (label : String) : Known (g.counter + 1) (g.nextId label) :=
  Or.inr (Or.inr ⟨label, g.counter + 1, le_rfl, rfl⟩)

theorem toList_numbered (label : String) (k : ℕ) :
    (label ++ "_" ++ toString k).toList = label.toList ++ '_' :: (toString k).toList := by
  have h : "_".toList = ['_'] := by decide
  rw [String.toList_append, String.toList_append, h]
  simp

theorem underscore_not_mem (k : ℕ) : '_' ∉ (toString k).toList := fun h =>
  absurd (isDigit_of_mem_toString h) (by decide)

/-- Identifiers with different numbers differ. Kind: L -/
theorem numbered_inj {label label' : String} {k k' : ℕ}
    (h : label ++ "_" ++ toString k = label' ++ "_" ++ toString k') : k = k' := by
  have hchars := congrArg String.toList h
  rw [toList_numbered, toList_numbered] at hchars
  obtain ⟨-, hk⟩ := append_last_sep_inj (underscore_not_mem k) (underscore_not_mem k') hchars
  exact toString_nat_inj (String.toList_injective hk)

/-- The next identifier is new. Source: `builder.py`, `_next_block_id`. Kind: P -/
theorem Fresh.nextId_not_mem {g : Builder} (h : Fresh g) (label : String) :
    g.nextId label ∉ g.blocks.keys := by
  intro hmem
  have hunder : '_' ∈ (g.nextId label).toList := by
    rw [nextId, toList_numbered]
    simp
  rcases h _ hmem with heq | heq | ⟨label', k, hk, heq⟩
  · rw [heq] at hunder
    exact absurd hunder (by decide)
  · rw [heq] at hunder
    exact absurd hunder (by decide)
  · have := numbered_inj heq
    omega

/-! ## Growth -/

/-- From `g` to `g'`: blocks and edges are added, statements only to block `curr` and to new blocks, and
`ps` are the statements that are added. Kind: D -/
structure Grows (curr : String) (ps : List Stmt) (g g' : Builder) : Prop where
  fresh : Fresh g'
  keys : ∀ id ∈ g.blocks.keys, id ∈ g'.blocks.keys
  placed : (placed g'.blocks).Perm (placed g.blocks ++ ps)
  same : ∀ id ∈ g.blocks.keys, id ≠ curr → g'.statements id = g.statements id
  curr : g.statements curr <+: g'.statements curr
  edges : ∀ e ∈ g.edges, e ∈ g'.edges

theorem Grows.refl {g : Builder} (h : Fresh g) (curr : String) : Grows curr [] g g :=
  { fresh := h
    keys := fun _ hid => hid
    placed := by simp
    same := fun _ _ _ => rfl
    curr := List.prefix_refl _
    edges := fun _ he => he }

/-- Growth from the current block, then from it or from a new block. Kind: L -/
theorem Grows.trans {c c' : String} {ps ps' : List Stmt} {g g' g'' : Builder}
    (h : Grows c ps g g') (h' : Grows c' ps' g' g'') (hc : c' = c ∨ c' ∉ g.blocks.keys) :
    Grows c (ps ++ ps') g g'' := by
  have hsame : ∀ id ∈ g.blocks.keys, id ≠ c → g''.statements id = g.statements id := by
    intro id hid hne
    rw [h'.same id (h.keys id hid), h.same id hid hne]
    rintro rfl
    rcases hc with rfl | hc
    · exact hne rfl
    · exact hc hid
  refine
    { fresh := h'.fresh
      keys := fun id hid => h'.keys id (h.keys id hid)
      placed := ?_
      same := hsame
      curr := ?_
      edges := fun e he => h'.edges e (h.edges e he) }
  · rw [← List.append_assoc]
    exact h'.placed.trans (h.placed.append_right ps')
  · by_cases hcc : c' = c
    · subst hcc
      exact h.curr.trans h'.curr
    · by_cases hmem : c ∈ g'.blocks.keys
      · rw [h'.same c hmem (Ne.symm hcc)]
        exact h.curr
      · -- a block that is not there has no statements
        have hnil : g.statements c = [] :=
          statements_eq_nil fun hin => hmem (h.keys c hin)
        rw [hnil]
        exact List.nil_prefix

/-- A change to a block that adds the given statements to it. Kind: L -/
theorem placed_modifyBlock {g : Builder} {id : String} {f : BasicBlock → BasicBlock} {ps : List Stmt}
    (hid : id ∈ g.blocks.keys) (hf : ∀ b, (f b).statements = b.statements ++ ps) :
    (placed (g.modifyBlock id f).blocks).Perm (placed g.blocks ++ ps) := by
  obtain ⟨b, hb⟩ := Option.isSome_iff_exists.mp (Dict.get?_isSome.mpr hid)
  obtain ⟨rest, hrest, hset⟩ := Dict.exists_values_perm hb
  have hblocks : (g.modifyBlock id f).blocks = g.blocks.set id (f b) := by
    unfold modifyBlock
    rw [hb]
  unfold Cfg.placed
  rw [hblocks]
  refine ((hset (f b)).flatMap_right _).trans (List.Perm.trans ?_
    ((hrest.flatMap_right _).symm.append_right ps))
  simp only [List.flatMap_cons, hf, List.append_assoc]
  exact (List.perm_append_comm).append_left _

theorem placed_modifyBlock_same (g : Builder) (id : String) {f : BasicBlock → BasicBlock}
    (hf : ∀ b, (f b).statements = b.statements) :
    (placed (g.modifyBlock id f).blocks).Perm (placed g.blocks) := by
  by_cases hid : id ∈ g.blocks.keys
  · simpa using @placed_modifyBlock g id f [] hid (by simpa using hf)
  · have hnone := Dict.get?_eq_none.mpr hid
    unfold modifyBlock
    rw [hnone]

theorem Grows.of_appendStmt {g : Builder} (h : Fresh g) {curr : String}
    (hc : curr ∈ g.blocks.keys) (s : Stmt) : Grows curr [s] g (g.appendStmt curr s) :=
  { fresh := fun id hid => by simpa using h id (by simpa using hid)
    keys := fun id hid => by simpa using hid
    placed := placed_modifyBlock hc fun _ => rfl
    same := fun id _ hne => statements_appendStmt_ne g hne s
    curr := by
      rw [statements_appendStmt_self g hc]
      exact List.prefix_append _ _
    edges := fun e he => by simpa using he }

theorem Grows.of_terminate {g : Builder} (h : Fresh g) (curr id : String) :
    Grows curr [] g (g.terminate id) :=
  { fresh := fun id hid => by simpa using h id (by simpa using hid)
    keys := fun id hid => by simpa using hid
    placed := by
      rw [List.append_nil]
      exact placed_modifyBlock_same g id (f := fun b => { b with isTerminate := true }) fun _ => rfl
    same := fun id' _ _ => statements_terminate g id id'
    curr := by rw [statements_terminate]
    edges := fun e he => by simpa using he }

theorem Grows.of_addEdge {g : Builder} (h : Fresh g) (curr a b : String) (k : CFGEdgeKind)
    (c : Option String) : Grows curr [] g (g.addEdge a b k c) :=
  { fresh := fun id hid => by simpa using h id (by simpa using hid)
    keys := fun id hid => by simpa using hid
    placed := by
      have hpreds := placed_modifyBlock_same (({ g with edges := g.edges ++ [⟨a, b, k, c⟩] } :
        Builder).modifyBlock a fun x => { x with successors := appendNew x.successors b }) b
        (f := fun x => { x with predecessors := appendNew x.predecessors a }) fun _ => rfl
      have hsuccs := placed_modifyBlock_same ({ g with edges := g.edges ++ [⟨a, b, k, c⟩] } :
        Builder) a (f := fun x => { x with successors := appendNew x.successors b }) fun _ => rfl
      rw [List.append_nil]
      exact hpreds.trans hsuccs
    same := fun id _ _ => statements_addEdge g a b k c id
    curr := by rw [statements_addEdge]
    edges := fun e he => by simp [he] }

theorem Grows.of_joinUnless {g : Builder} (h : Fresh g) (curr : String) (t : Bool) (a b : String)
    (k : CFGEdgeKind) : Grows curr [] g (g.joinUnless t a b k) := by
  unfold joinUnless
  split
  · exact Grows.refl h curr
  · exact Grows.of_addEdge h curr a b k none

/-- Growth from a block that was not there is growth from any block. Kind: L -/
theorem Grows.anew {c : String} {ps : List Stmt} {g g' : Builder} (h : Grows c ps g g')
    (hc : c ∉ g.blocks.keys) (x : String) : Grows x ps g g' := by
  have hsame : ∀ id ∈ g.blocks.keys, g'.statements id = g.statements id := fun id hid =>
    h.same id hid fun heq => hc (heq ▸ hid)
  refine
    { fresh := h.fresh
      keys := h.keys
      placed := h.placed
      same := fun id hid _ => hsame id hid
      curr := ?_
      edges := h.edges }
  by_cases hx : x ∈ g.blocks.keys
  · rw [hsame x hx]
  · rw [statements_eq_nil hx]
    exact List.nil_prefix

/-- A new block under the next identifier. Kind: L -/
theorem Grows.of_newBlock {g : Builder} (h : Fresh g) (curr label : String) (block : BasicBlock)
    (hid : block.blockId = g.nextId label) :
    Grows curr block.statements g (g.tick.addBlock block) := by
  have hnew := h.nextId_not_mem label
  have hstmts : ∀ id ∈ g.blocks.keys, (g.tick.addBlock block).statements id = g.statements id := by
    intro id hmem
    rw [statements_addBlock, if_neg, statements_tick]
    rintro rfl
    exact hnew (hid ▸ hmem)
  have hgrows : Grows block.blockId block.statements g (g.tick.addBlock block) :=
    { fresh := fun id hmem => by
        rcases (mem_keys_addBlock _ _ _).mp hmem with rfl | hmem
        · rw [hid]
          exact known_nextId g label
        · exact (h id hmem).mono (Nat.le_succ _)
      keys := fun id hmem => by simp [hmem]
      placed := by
        unfold Cfg.placed addBlock
        rw [Dict.values_set_of_not_mem (hid ▸ hnew)]
        simp
      same := fun id hmem _ => hstmts id hmem
      curr := by simp_all [statements_eq_nil]
      edges := fun e he => by simpa using he }
  exact hgrows.anew (hid ▸ hnew) curr

end Builder

end KarsaSec.Cfg
