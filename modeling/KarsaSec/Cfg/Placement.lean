import KarsaSec.Cfg.Growth
import Mathlib.Data.List.Pairwise

/-!
# Where the builder puts statements

* `listPlaced` and `topPlaced` say which statements end up in blocks; `buildList_spec` and
  `buildTop_spec` prove it of the builder.
* `once_iff_flat`: each required statement has one place exactly when the list is flat.
-/

namespace KarsaSec.Cfg

open KarsaSec.Found

/-! ## Bodies -/

mutual

/-- Whether a branch or body ends at a statement.
Source: `builder.py`, `_build_subgraph`, `return` in the loop
Kind: D -/
def innerEnds : Stmt → Bool
  | .mk tag kind text condition onTrue onFalse body =>
    let s := Stmt.mk tag kind text condition onTrue onFalse body
    if getStmtKind s = .exit then true
    else if getStmtKind s = .branch then listEnds onTrue && listEnds onFalse else false

/-- Whether a branch or body ends before its last statement is left. Kind: D -/
def listEnds : List Stmt → Bool
  | [] => false
  | s :: rest => innerEnds s || listEnds rest

end

mutual

/-- The statements that a statement of a branch or body puts into blocks: a branch puts only what is in
its lists, a loop only itself.
Source: `builder.py`, `_build_subgraph`
Kind: D -/
def innerPlaced : Stmt → List Stmt
  | .mk tag kind text condition onTrue onFalse body =>
    let s := Stmt.mk tag kind text condition onTrue onFalse body
    if getStmtKind s = .branch then listPlaced onTrue ++ listPlaced onFalse else [s]

/-- The statements that a branch or body puts into blocks. Kind: D -/
def listPlaced : List Stmt → List Stmt
  | [] => []
  | s :: rest => innerPlaced s ++ if innerEnds s then [] else listPlaced rest

end

theorem innerEnds_eq (s : Stmt) : innerEnds s =
    if getStmtKind s = .exit then true
    else if getStmtKind s = .branch then listEnds s.onTrue && listEnds s.onFalse else false := by
  rcases s with ⟨tag, kind, text, condition, onTrue, onFalse, body⟩
  rw [innerEnds, Stmt.onTrue, Stmt.onFalse]

theorem innerPlaced_eq (s : Stmt) : innerPlaced s =
    if getStmtKind s = .branch then listPlaced s.onTrue ++ listPlaced s.onFalse else [s] := by
  rcases s with ⟨tag, kind, text, condition, onTrue, onFalse, body⟩
  rw [innerPlaced, Stmt.onTrue, Stmt.onFalse]

theorem listPlaced_cons (s : Stmt) (rest : List Stmt) :
    listPlaced (s :: rest) = innerPlaced s ++ if innerEnds s then [] else listPlaced rest := by
  rw [listPlaced]

/-- The statements that a statement of the whole body puts into blocks.
Source: `builder.py`, `build_cfg`
Kind: D -/
def topPlaced (s : Stmt) : List Stmt :=
  s :: match getStmtKind s with
    | .branch => listPlaced s.onTrue ++ listPlaced s.onFalse
    | .loop => listPlaced s.body
    | _ => []

/-- A builder about to go on in block `curr`. Kind: D -/
structure Ready (curr : String) (g : Builder) : Prop where
  fresh : g.Fresh
  mem : curr ∈ g.blocks.keys
  notTerminate : g.isTerminate curr = false

/-- What building from `curr` has done: `ps` are placed, and the builder can go on in `curr'`. Kind: D -/
structure Built (curr : String) (ps : List Stmt) (g g' : Builder) (curr' : String) : Prop where
  grows : g.Grows curr ps g'
  mem : curr' ∈ g'.blocks.keys
  next : curr' = curr ∨ curr' ∉ g.blocks.keys

/-- Building on from where building has stopped. Kind: L -/
theorem Built.trans {c c' c'' : String} {ps ps' : List Stmt} {g g' g'' : Builder}
    (h : Built c ps g g' c') (h' : Built c' ps' g' g'' c'') : Built c (ps ++ ps') g g'' c'' := by
  refine ⟨h.grows.trans h'.grows h.next, h'.mem, ?_⟩
  rcases h'.next with heq | hnew
  · rw [heq]
    exact h.next
  · exact Or.inr fun hmem => hnew (h.grows.keys _ hmem)

namespace Builder

theorem isTerminate_modifyBlock (g : Builder) (id id' : String) {f : BasicBlock → BasicBlock}
    (hf : ∀ b, (f b).isTerminate = b.isTerminate) :
    (g.modifyBlock id f).isTerminate id' = g.isTerminate id' := by
  unfold isTerminate
  rw [get?_modifyBlock]
  split
  · next h =>
      subst h
      rcases g.blocks.get? id' with _ | b
      · rfl
      · simp [hf]
  · rfl

@[simp] theorem isTerminate_addEdge (g : Builder) (a b : String) (k : CFGEdgeKind)
    (c : Option String) (id : String) : (g.addEdge a b k c).isTerminate id = g.isTerminate id := by
  unfold addEdge
  rw [isTerminate_modifyBlock _ _ _ fun _ => by rfl, isTerminate_modifyBlock _ _ _ fun _ => by rfl]
  rfl

@[simp] theorem isTerminate_appendStmt (g : Builder) (id id' : String) (s : Stmt) :
    (g.appendStmt id s).isTerminate id' = g.isTerminate id' :=
  isTerminate_modifyBlock g id id' fun _ => rfl

@[simp] theorem isTerminate_joinUnless (g : Builder) (t : Bool) (a b : String) (k : CFGEdgeKind)
    (id : String) : (g.joinUnless t a b k).isTerminate id = g.isTerminate id := by
  unfold joinUnless
  split <;> simp

theorem isTerminate_addBlock_self (g : Builder) (block : BasicBlock) :
    (g.addBlock block).isTerminate block.blockId = block.isTerminate := by
  simp [isTerminate, addBlock]

end Builder

open Builder

/-- A new empty block of a branch or body. Source: `builder.py`, `_build_subgraph`. Kind: L -/
theorem openSub_spec {g : Builder} (h : g.Fresh) (curr label : String) :
    g.Grows curr [] (openSub label g) ∧ Ready (g.nextId label) (openSub label g) := by
  have hgrows : g.Grows curr [] (openSub label g) := Grows.of_newBlock h curr label
    { blockId := g.nextId label, label := "SUBGRAPH(" ++ g.nextId label ++ ")" } rfl
  refine ⟨hgrows, hgrows.fresh, ?_, isTerminate_addBlock_self _ _⟩
  exact (mem_keys_addBlock _ _ _).mpr (Or.inl rfl)

/-- The merge block of two branches. Source: `builder.py`, `m_block`. Kind: L -/
theorem mergeBranches_spec {g : Builder} (h : g.Fresh) (curr : String) (t f : String × Bool) :
    g.Grows curr [] (mergeBranches g t f) ∧ Ready (g.nextId "merge") (mergeBranches g t f) := by
  have hgrows : g.Grows curr [] (mergeBranches g t f) := by
    have hblock := Grows.of_newBlock h curr "merge"
      { blockId := g.nextId "merge", label := "MERGE" } rfl
    have hjoin := hblock.trans (Grows.of_joinUnless hblock.fresh curr t.2 t.1 (g.nextId "merge")
      .fallthrough) (Or.inl rfl)
    exact hjoin.trans (Grows.of_joinUnless hjoin.fresh curr f.2 f.1 (g.nextId "merge") .fallthrough)
      (Or.inl rfl)
  refine ⟨hgrows, hgrows.fresh, ?_, ?_⟩
  · simp [mergeBranches]
  · grind [mergeBranches, isTerminate_joinUnless, isTerminate_addBlock_self]

/-- A branch that is built from `g`: `g'` is behind its true branch, `g''` behind its false branch, and
`m` has the merge block. Kind: D -/
structure Forked (onTrue onFalse : List Stmt) (g g' g'' m : Builder) : Prop where
  readyTrue : Ready (g.nextId "true_branch") (openSub "true_branch" g)
  growsTrue : ∀ x, g.Grows x (listPlaced onTrue) g'
  readyFalse : Ready (g'.nextId "false_branch") (openSub "false_branch" g')
  growsFalse : ∀ x, g'.Grows x (listPlaced onFalse) g''
  merges : ∀ x, g''.Grows x [] m
  ready : Ready (g''.nextId "merge") m

/-- The two lists of a branch, behind its condition block.
Source: `builder.py`, `if` cases of `build_cfg` and `_build_subgraph`
Kind: L -/
theorem branches_spec {g : Builder} (hr : g.Fresh) (cond : String) (condition : Option String)
    {onTrue onFalse : List Stmt}
    (htrue : ∀ c g, Ready c g → Built c (listPlaced onTrue) g (buildList onTrue c g).1
      (buildList onTrue c g).2.1)
    (hfalse : ∀ c g, Ready c g → Built c (listPlaced onFalse) g (buildList onFalse c g).1
      (buildList onFalse c g).2.1) :
    let t := buildList onTrue (g.nextId "true_branch") (openSub "true_branch" g)
    let g' := t.1.addEdge cond (g.nextId "true_branch") .trueBranch condition
    let f := buildList onFalse (g'.nextId "false_branch") (openSub "false_branch" g')
    let g'' := f.1.addEdge cond (g'.nextId "false_branch") .falseBranch condition
    Forked onTrue onFalse g g' g'' (mergeBranches g'' t.2 f.2) := by
  intro t g' f g''
  have hnew := hr.nextId_not_mem "true_branch"
  obtain ⟨hopen, hready⟩ := openSub_spec hr (g.nextId "true_branch") "true_branch"
  have ht := hopen.trans (htrue _ _ hready).grows (Or.inl rfl)
  have hg' : g.Grows _ _ g' := ht.trans (Grows.of_addEdge ht.fresh _ cond (g.nextId "true_branch")
    .trueBranch condition) (Or.inl rfl)
  have hnew' := hg'.fresh.nextId_not_mem "false_branch"
  obtain ⟨hopen', hready'⟩ := openSub_spec hg'.fresh (g'.nextId "false_branch") "false_branch"
  have hf := hopen'.trans (hfalse _ _ hready').grows (Or.inl rfl)
  have hg'' : g'.Grows _ _ g'' := hf.trans (Grows.of_addEdge hf.fresh _ cond
    (g'.nextId "false_branch") .falseBranch condition) (Or.inl rfl)
  have hmerge := fun x => mergeBranches_spec hg''.fresh x t.2 f.2
  exact
    { readyTrue := hready
      growsTrue := fun x => by simpa using hg'.anew hnew x
      readyFalse := hready'
      growsFalse := fun x => by simpa using hg''.anew hnew' x
      merges := fun x => (hmerge x).1
      ready := (hmerge cond).2 }

/-- What a branch places. Kind: L -/
theorem Forked.built {onTrue onFalse : List Stmt} {g g' g'' m : Builder}
    (h : Forked onTrue onFalse g g' g'' m) (cond : String) :
    Built cond (listPlaced onTrue ++ listPlaced onFalse) g m (g''.nextId "merge") := by
  have hlists := (h.growsTrue cond).trans (h.growsFalse cond) (Or.inl rfl)
  have hall := hlists.trans (h.merges cond) (Or.inl rfl)
  rw [List.append_nil] at hall
  refine ⟨hall, h.ready.mem, Or.inr fun hmem => ?_⟩
  exact hlists.fresh.nextId_not_mem "merge" (hlists.keys _ hmem)

mutual

/-- What one statement of a branch or body places. Source: `builder.py`, `_build_subgraph`. Kind: P -/
theorem buildInner_spec : (s : Stmt) → (curr : String) → (g : Builder) → Ready curr g →
    Built curr (innerPlaced s) g (buildInner s curr g).1 (buildInner s curr g).2.1 ∧
      (buildInner s curr g).2.2 = innerEnds s ∧
      ((buildInner s curr g).2.2 = false →
        Ready (buildInner s curr g).2.1 (buildInner s curr g).1)
  | .mk tag kind text condition onTrue onFalse body, curr, g, hr => by
    set s := Stmt.mk tag kind text condition onTrue onFalse body with hs
    have hadd := Grows.of_appendStmt hr.fresh hr.mem s
    unfold buildInner innerPlaced innerEnds
    by_cases hexit : getStmtKind s = .exit
    · have hbranch : getStmtKind s ≠ .branch := by rw [hexit]; decide
      simp only [← hs, if_pos hexit, if_neg hbranch]
      have hterm := hadd.trans (Grows.of_terminate hadd.fresh curr curr) (Or.inl rfl)
      have hedge := hterm.trans (Grows.of_addEdge hterm.fresh curr curr "exit" .fallthrough none)
        (Or.inl rfl)
      exact ⟨⟨hedge, hedge.keys curr hr.mem, Or.inl rfl⟩, trivial, fun h => absurd h (by decide)⟩
    · by_cases hbranch : getStmtKind s = .branch
      · simp only [← hs, if_neg hexit, if_pos hbranch]
        have hfork := branches_spec hr.fresh curr condition
          (fun c g hc => (buildList_spec onTrue c g hc).1)
          fun c g hc => (buildList_spec onFalse c g hc).1
        refine ⟨hfork.built curr, ?_, fun _ => hfork.ready⟩
        rw [(buildList_spec onTrue _ _ hfork.readyTrue).2.1,
          (buildList_spec onFalse _ _ hfork.readyFalse).2.1]
      · simp only [← hs, if_neg hexit, if_neg hbranch]
        refine ⟨⟨hadd, hadd.keys curr hr.mem, Or.inl rfl⟩, trivial, fun _ => ?_⟩
        exact ⟨hadd.fresh, hadd.keys curr hr.mem, by simpa using hr.notTerminate⟩

/-- What a branch or body places. Source: `builder.py`, `_build_subgraph`. Kind: P -/
theorem buildList_spec : (l : List Stmt) → (curr : String) → (g : Builder) → Ready curr g →
    Built curr (listPlaced l) g (buildList l curr g).1 (buildList l curr g).2.1 ∧
      (buildList l curr g).2.2 = listEnds l ∧
      ((buildList l curr g).2.2 = false → Ready (buildList l curr g).2.1 (buildList l curr g).1)
  | [], curr, g, hr => by
    unfold buildList listPlaced listEnds
    exact ⟨⟨Grows.refl hr.fresh curr, hr.mem, Or.inl rfl⟩, hr.notTerminate, fun _ => hr⟩
  | s :: rest, curr, g, hr => by
    obtain ⟨hbuilt, hends, hready⟩ := buildInner_spec s curr g hr
    unfold buildList listPlaced listEnds
    rcases hb : innerEnds s with _ | _
    · rw [hb] at hends
      simp only [hends, Bool.false_eq_true, if_false, Bool.false_or]
      obtain ⟨hbuilt', hends', hready'⟩ := buildList_spec rest _ _ (hready hends)
      exact ⟨hbuilt.trans hbuilt', hends', hready'⟩
    · simp_all

end

/-! ## The whole body -/

/-- The condition block of a branch. Source: `builder.py`, `build_cfg`, `if` case. Kind: L -/
theorem conditionBlock_spec {g : Builder} {curr : String} (hr : Ready curr g) (s : Stmt) :
    Built curr [s] g (conditionBlock s curr g).1 (conditionBlock s curr g).2 ∧
      Ready (conditionBlock s curr g).2 (conditionBlock s curr g).1 := by
  unfold conditionBlock
  split
  · have hadd := Grows.of_appendStmt hr.fresh hr.mem s
    refine ⟨⟨hadd, hadd.keys curr hr.mem, Or.inl rfl⟩, hadd.fresh, hadd.keys curr hr.mem, ?_⟩
    simpa using hr.notTerminate
  · have hblock := Grows.of_newBlock hr.fresh curr "cond"
      { blockId := g.nextId "cond", label := "IF_COND(" ++ s.condition.getD "" ++ ")",
        statements := [s] } rfl
    have hedge := hblock.trans (Grows.of_addEdge hblock.fresh curr curr (g.nextId "cond")
      .fallthrough none) (Or.inl rfl)
    refine ⟨⟨by simpa using hedge, by simp, Or.inr (hr.fresh.nextId_not_mem "cond")⟩,
      hedge.fresh, by simp, ?_⟩
    rw [isTerminate_addEdge]
    exact isTerminate_addBlock_self _ _

/-- The condition block of a loop. Source: `builder.py`, `build_cfg`, `while` case. Kind: L -/
theorem openLoop_spec {g : Builder} {curr : String} (hr : Ready curr g) (s : Stmt) :
    g.Grows curr [s] (openLoop s curr g) ∧
      Ready (g.nextId "loop_cond") (openLoop s curr g) := by
  have hblock := Grows.of_newBlock hr.fresh curr "loop_cond"
    { blockId := g.nextId "loop_cond", label := "LOOP_COND(while)", statements := [s] } rfl
  have hedge := hblock.trans (Grows.of_addEdge hblock.fresh curr curr (g.nextId "loop_cond")
    .fallthrough none) (Or.inl rfl)
  rw [List.append_nil] at hedge
  refine ⟨hedge, hedge.fresh, by simp [openLoop], ?_⟩
  unfold openLoop
  rw [isTerminate_addEdge]
  exact isTerminate_addBlock_self _ _

/-- A loop that is built from `g`, where its condition block is: `g'` is behind its body, and `p` has the
block behind the loop. Kind: D -/
structure Looped (body : List Stmt) (g g' p : Builder) : Prop where
  readyBody : Ready (g.nextId "loop_body") (openSub "loop_body" g)
  growsBody : ∀ x, g.Grows x (listPlaced body) g'
  leaves : ∀ x, g'.Grows x [] p
  ready : Ready (g'.nextId "post_loop") p

/-- The body of a loop, behind its condition block, and the block behind the loop.
Source: `builder.py`, `build_cfg`, `while` case
Kind: L -/
theorem loopBody_spec {g : Builder} (hr : g.Fresh) (cond : String) (condition : Option String)
    {body : List Stmt}
    (hbody : ∀ c g, Ready c g → Built c (listPlaced body) g (buildList body c g).1
      (buildList body c g).2.1) :
    let b := buildList body (g.nextId "loop_body") (openSub "loop_body" g)
    let g' := (b.1.addEdge cond (g.nextId "loop_body") .trueBranch condition).joinUnless b.2.2
      b.2.1 cond .loopBackedge
    let p := g'.tick.addBlock { blockId := g'.nextId "post_loop", label := "POST_LOOP" }
    Looped body g g' (p.addEdge cond (g'.nextId "post_loop") .falseBranch condition) := by
  intro b g' p
  have hnew := hr.nextId_not_mem "loop_body"
  obtain ⟨hopen, hready⟩ := openSub_spec hr (g.nextId "loop_body") "loop_body"
  have hb := hopen.trans (hbody _ _ hready).grows (Or.inl rfl)
  have hedge := hb.trans (Grows.of_addEdge hb.fresh _ cond (g.nextId "loop_body") .trueBranch
    condition) (Or.inl rfl)
  have hg' : g.Grows _ _ g' := hedge.trans (Grows.of_joinUnless hedge.fresh _ b.2.2 b.2.1 cond
    .loopBackedge) (Or.inl rfl)
  have hpost := fun x => Grows.of_newBlock hg'.fresh x "post_loop"
    { blockId := g'.nextId "post_loop", label := "POST_LOOP" } rfl
  have hleaves := fun x => (hpost x).trans (Grows.of_addEdge (hpost x).fresh x cond
    (g'.nextId "post_loop") .falseBranch condition) (Or.inl rfl)
  refine
    { readyBody := hready
      growsBody := fun x => by simpa using hg'.anew hnew x
      leaves := hleaves
      ready := ⟨(hleaves cond).fresh, by simp [p], ?_⟩ }
  rw [isTerminate_addEdge]
  exact isTerminate_addBlock_self _ _

/-- What a loop places. Kind: L -/
theorem Looped.built {body : List Stmt} {g g' p : Builder} (h : Looped body g g' p)
    (cond : String) : Built cond (listPlaced body) g p (g'.nextId "post_loop") := by
  have hall := (h.growsBody cond).trans (h.leaves cond) (Or.inl rfl)
  rw [List.append_nil] at hall
  refine ⟨hall, h.ready.mem, Or.inr fun hmem => ?_⟩
  exact (h.growsBody cond).fresh.nextId_not_mem "post_loop" ((h.growsBody cond).keys _ hmem)

/-- What one statement of the whole body places. Source: `builder.py`, `build_cfg`. Kind: P -/
theorem buildStmt_spec {g : Builder} {curr : String} (hr : Ready curr g) (s : Stmt) :
    Built curr (topPlaced s) g (buildStmt s curr g).1 (buildStmt s curr g).2 ∧
      Ready (buildStmt s curr g).2 (buildStmt s curr g).1 := by
  unfold buildStmt topPlaced
  rcases hk : getStmtKind s with _ | _ | _ | _
  · -- a branch: its condition block, then its two lists
    obtain ⟨hcond, hready⟩ := conditionBlock_spec hr s
    have hfork := branches_spec hready.fresh (conditionBlock s curr g).2 s.condition
      (fun c g hc => (buildList_spec s.onTrue c g hc).1)
      fun c g hc => (buildList_spec s.onFalse c g hc).1
    exact ⟨hcond.trans (hfork.built _), hfork.ready⟩
  · -- a loop: its condition block, then its body and the block behind it
    obtain ⟨hloop, hready⟩ := openLoop_spec hr s
    have hlooped := loopBody_spec hready.fresh (g.nextId "loop_cond") s.condition
      fun c g hc => (buildList_spec s.body c g hc).1
    have hopened : Built curr [s] g (openLoop s curr g) (g.nextId "loop_cond") :=
      ⟨hloop, hready.mem, Or.inr (hr.fresh.nextId_not_mem "loop_cond")⟩
    exact ⟨hopened.trans (hlooped.built _), hlooped.ready⟩
  · -- a terminator: the next statements go to a block of their own
    have hadd := Grows.of_appendStmt hr.fresh hr.mem s
    have hterm := hadd.trans (Grows.of_terminate hadd.fresh curr curr) (Or.inl rfl)
    have hedge := hterm.trans (Grows.of_addEdge hterm.fresh curr curr "exit" .fallthrough none)
      (Or.inl rfl)
    have hall := hedge.trans (Grows.of_newBlock hedge.fresh curr "dead"
      { blockId := _, label := "UNREACHABLE" } rfl) (Or.inl rfl)
    simp only [List.append_nil] at hall
    refine ⟨⟨hall, by simp [buildExit], Or.inr fun hmem => ?_⟩, hall.fresh, by simp [buildExit], ?_⟩
    · exact hedge.fresh.nextId_not_mem "dead" (hedge.keys _ hmem)
    · exact isTerminate_addBlock_self _ _
  · have hadd := Grows.of_appendStmt hr.fresh hr.mem s
    refine ⟨⟨hadd, hadd.keys curr hr.mem, Or.inl rfl⟩, hadd.fresh, hadd.keys curr hr.mem, ?_⟩
    simpa using hr.notTerminate

/-- What the whole body places. Source: `builder.py`, `build_cfg`. Kind: P -/
theorem buildTop_spec {l : List Stmt} {g : Builder} {curr : String} (hr : Ready curr g) :
    Built curr (l.flatMap topPlaced) g (buildTop l curr g).1 (buildTop l curr g).2 ∧
      Ready (buildTop l curr g).2 (buildTop l curr g).1 := by
  induction l generalizing curr g with
  | nil => exact ⟨⟨Grows.refl hr.fresh curr, hr.mem, Or.inl rfl⟩, hr⟩
  | cons s rest ih =>
    obtain ⟨hbuilt, hready⟩ := buildStmt_spec hr s
    obtain ⟨hbuilt', hready'⟩ := ih hready
    rw [List.flatMap_cons]
    unfold buildTop
    exact ⟨hbuilt.trans hbuilt', hready'⟩

theorem ready_initBuilder : Ready "entry" initBuilder := by
  refine ⟨fun id hid => ?_, by decide, by decide⟩
  have hkeys : initBuilder.blocks.keys = ["entry", "exit"] := by decide
  rw [hkeys] at hid
  simp only [List.mem_cons, List.not_mem_nil, or_false] at hid
  rcases hid with rfl | rfl
  · exact Or.inl rfl
  · exact Or.inr (Or.inl rfl)

/-- What the finished graph holds. Source: `builder.py`, `build_cfg`. Kind: P -/
theorem placed_buildBody (stmts : List Stmt) :
    (placed (buildBody stmts).blocks).Perm (stmts.flatMap topPlaced) := by
  have hinit : placed initBuilder.blocks = [] := rfl
  have hedge : ∀ {g : Builder} {a b : String}, g.Fresh →
      (placed (g.addEdge a b .fallthrough none).blocks).Perm (placed g.blocks) := by
    intro g a b hg
    simpa using (Grows.of_addEdge hg a a b .fallthrough none).placed
  have hbuilt := (buildTop_spec (l := stmts) ready_initBuilder).1.grows
  unfold buildBody
  rcases stmts with _ | ⟨s, rest⟩
  · simp only [List.isEmpty_nil, if_true, List.flatMap_nil]
    exact hedge ready_initBuilder.fresh
  · have hplaced := hbuilt.placed
    rw [hinit, List.nil_append] at hplaced
    simp only [List.isEmpty_cons, Bool.false_eq_true, if_false]
    split
    · exact (hedge hbuilt.fresh).trans hplaced
    · exact hplaced

/-! ## Occurrences -/

theorem occurrencesOf_eq (κ : Stmt → StmtKind) (s : Stmt) :
    occurrencesOf κ s = s :: (subLists κ s).flatMap (occurrences κ) := by
  rcases s with ⟨tag, kind, text, condition, onTrue, onFalse, body⟩
  rw [occurrencesOf, subLists]
  rcases κ (.mk tag kind text condition onTrue onFalse body) with _ | _ | _ | _ <;>
    simp [Stmt.onTrue, Stmt.onFalse, Stmt.body]

theorem occurrences_eq (κ : Stmt → StmtKind) (l : List Stmt) :
    occurrences κ l = l.flatMap (occurrencesOf κ) := by
  induction l with
  | nil => rfl
  | cons s rest ih => rw [occurrences, ih, List.flatMap_cons]

theorem mem_occurrences_of_mem {κ : Stmt → StmtKind} {l : List Stmt} {s : Stmt} (h : s ∈ l) :
    s ∈ occurrences κ l := by
  rw [occurrences_eq, List.mem_flatMap]
  exact ⟨s, h, by rw [occurrencesOf_eq]; exact List.mem_cons_self⟩

theorem mem_occurrencesOf_subList {κ : Stmt → StmtKind} {s x : Stmt} {m : List Stmt}
    (hm : m ∈ subLists κ s) (hx : x ∈ occurrences κ m) : x ∈ occurrencesOf κ s := by
  rw [occurrencesOf_eq]
  exact List.mem_cons_of_mem _ (List.mem_flatMap.mpr ⟨m, hm, hx⟩)

theorem mem_occurrences_subList {κ : Stmt → StmtKind} {l m : List Stmt} {s x : Stmt} (hs : s ∈ l)
    (hm : m ∈ subLists κ s) (hx : x ∈ occurrences κ m) : x ∈ occurrences κ l := by
  rw [occurrences_eq]
  exact List.mem_flatMap.mpr ⟨s, hs, mem_occurrencesOf_subList hm hx⟩

mutual

theorem innerPlaced_sublist : (s : Stmt) →
    (innerPlaced s).Sublist (occurrencesOf getStmtKind s)
  | .mk tag kind text condition onTrue onFalse body => by
    unfold innerPlaced occurrencesOf
    by_cases hbranch :
        getStmtKind (.mk tag kind text condition onTrue onFalse body) = .branch
    · simp only [if_pos hbranch]
      exact ((listPlaced_sublist onTrue).append (listPlaced_sublist onFalse)).cons _
    · simp_all

/-- Only statements of a list are placed for it, each once. Kind: L -/
theorem listPlaced_sublist : (l : List Stmt) → (listPlaced l).Sublist (occurrences getStmtKind l)
  | [] => List.Sublist.refl _
  | s :: rest => by
    unfold listPlaced occurrences
    refine (innerPlaced_sublist s).append ?_
    split
    · exact List.nil_sublist _
    · exact listPlaced_sublist rest

end

mutual

theorem innerPlaced_kind : (s : Stmt) → ∀ x ∈ innerPlaced s, getStmtKind x ≠ .branch
  | .mk tag kind text condition onTrue onFalse body, x, hx => by
    unfold innerPlaced at hx
    by_cases hbranch :
        getStmtKind (.mk tag kind text condition onTrue onFalse body) = .branch
    · simp only [if_pos hbranch] at hx
      rcases List.mem_append.mp hx with hx | hx
      · exact listPlaced_kind onTrue x hx
      · exact listPlaced_kind onFalse x hx
    · simp_all

/-- No branch statement of a branch or body is placed. Source: `builder.py`, `_build_subgraph`.
Kind: P -/
theorem listPlaced_kind : (l : List Stmt) → ∀ x ∈ listPlaced l, getStmtKind x ≠ .branch
  | [], _, hx => absurd hx List.not_mem_nil
  | s :: rest, x, hx => by
    unfold listPlaced at hx
    rcases List.mem_append.mp hx with hx | hx
    · exact innerPlaced_kind s x hx
    · split at hx
      · exact absurd hx List.not_mem_nil
      · exact listPlaced_kind rest x hx

end

theorem live_cons (κ : Stmt → StmtKind) (s : Stmt) (rest : List Stmt) :
    live κ (s :: rest) = if κ s = .exit then [s] else s :: live κ rest := rfl

theorem live_subset {κ : Stmt → StmtKind} (l : List Stmt) : live κ l ⊆ l := by
  induction l with
  | nil => exact List.Subset.refl _
  | cons s rest ih =>
    rw [live_cons]
    split
    · simp
    · exact List.cons_subset_cons s ih

/-- Without branches before its first terminator, a branch or body places what is live in it.
Kind: L -/
theorem listPlaced_eq_live {l : List Stmt} (h : ∀ x ∈ live getStmtKind l, getStmtKind x ≠ .branch) :
    listPlaced l = live getStmtKind l := by
  induction l with
  | nil => rfl
  | cons s rest ih =>
    rw [live_cons] at h
    rw [listPlaced_cons, live_cons, innerPlaced_eq, innerEnds_eq]
    by_cases hexit : getStmtKind s = .exit
    · simp_all
    · simp_all

theorem topPlaced_eq (s : Stmt) :
    topPlaced s = s :: (subLists getStmtKind s).flatMap listPlaced := by
  unfold topPlaced subLists
  rcases getStmtKind s with _ | _ | _ | _ <;> simp

/-- What the whole body places are its occurrences, each once. Kind: L -/
theorem topPlaced_sublist (l : List Stmt) :
    (l.flatMap topPlaced).Sublist (occurrences getStmtKind l) := by
  have hlists : ∀ ms : List (List Stmt),
      (ms.flatMap listPlaced).Sublist (ms.flatMap (occurrences getStmtKind)) := by
    intro ms
    induction ms with
    | nil => exact List.Sublist.refl _
    | cons m ms ih => exact (listPlaced_sublist m).append ih
  induction l with
  | nil => exact List.Sublist.refl _
  | cons s rest ih =>
    rw [List.flatMap_cons, occurrences, topPlaced_eq, occurrencesOf_eq]
    exact ((hlists _).cons_cons s).append ih

/-! ## One place for each required statement -/

/-- Two members of a list with a common image differ only if images repeat. Kind: L -/
theorem eq_of_mem_flatMap {α β : Type*} {f : α → List β} {l : List α} (hnd : (l.flatMap f).Nodup)
    {a b : α} (ha : a ∈ l) (hb : b ∈ l) {x : β} (hxa : x ∈ f a) (hxb : x ∈ f b) : b = a := by
  have hsymm : Std.Symm (Function.onFun List.Disjoint f) := ⟨fun _ _ h _ hb ha => h ha hb⟩
  by_contra hne
  exact ((List.nodup_flatMap.mp hnd).2.forall hb ha hne) hxb hxa

/-- A statement occurs inside one statement of a list only. Kind: L -/
theorem occurrencesOf_inj {κ : Stmt → StmtKind} {l : List Stmt} (hnd : (occurrences κ l).Nodup)
    {s z x : Stmt} (hs : s ∈ l) (hz : z ∈ l) (hxs : x ∈ occurrencesOf κ s)
    (hxz : x ∈ occurrencesOf κ z) : z = s := by
  rw [occurrences_eq] at hnd
  exact eq_of_mem_flatMap hnd hs hz hxs hxz

theorem nodup_occurrencesOf {κ : Stmt → StmtKind} {l : List Stmt} (hnd : (occurrences κ l).Nodup)
    {s : Stmt} (hs : s ∈ l) : (occurrencesOf κ s).Nodup := by
  rw [occurrences_eq, List.nodup_flatMap] at hnd
  exact hnd.1 s hs

theorem nodup_occurrences_subList {κ : Stmt → StmtKind} {s : Stmt} {m : List Stmt}
    (hnd : (occurrencesOf κ s).Nodup) (hm : m ∈ subLists κ s) : (occurrences κ m).Nodup := by
  rw [occurrencesOf_eq] at hnd
  exact (List.nodup_flatMap.mp hnd.of_cons).1 m hm

/-- What is nested in a loop of a branch or body, or behind its first terminator, is not placed.
Source: `builder.py`, `_build_subgraph`
Kind: P -/
theorem not_mem_listPlaced {m m' : List Stmt} {x y : Stmt}
    (hnd : (occurrences getStmtKind m).Nodup) (hx : x ∈ m) (hm' : m' ∈ subLists getStmtKind x)
    (hy : y ∈ occurrences getStmtKind m')
    (hskip : getStmtKind x ≠ .branch ∨ x ∉ live getStmtKind m) : y ∉ listPlaced m := by
  induction m with
  | nil => exact absurd hx List.not_mem_nil
  | cons z rest ih =>
    rw [occurrences] at hnd
    obtain ⟨hndz, hndrest, hdisj⟩ := List.nodup_append.mp hnd
    intro hmem
    rw [listPlaced_cons] at hmem
    have hsplit : y ∈ innerPlaced z ∨ innerEnds z = false ∧ y ∈ listPlaced rest := by simp_all
    rcases List.mem_cons.mp hx with rfl | hx
    · -- the statement itself is the first of the list
      have hlive : x ∈ live getStmtKind (x :: rest) := by
        rw [live_cons]
        split <;> simp
      have hbranch := hskip.resolve_right fun h => h hlive
      have hyx := mem_occurrencesOf_subList hm' hy
      rcases hsplit with h | ⟨-, h⟩
      · rw [innerPlaced_eq, if_neg hbranch, List.mem_singleton] at h
        rw [h, occurrencesOf_eq] at hyx
        rw [occurrencesOf_eq] at hndz
        exact (List.nodup_cons.mp hndz).1 (List.mem_flatMap.mpr ⟨m', hm', h ▸ hy⟩)
      · exact hdisj y hyx y ((listPlaced_sublist rest).subset h) rfl
    · have hyrest := mem_occurrences_subList hx hm' hy
      rcases hsplit with h | ⟨hends, h⟩
      · exact hdisj y ((innerPlaced_sublist z).subset h) y hyrest rfl
      · refine ih hndrest hx (hskip.imp_right fun hlive => ?_) h
        rw [live_cons] at hlive
        have hexit : getStmtKind z ≠ .exit := fun hexit => by
          rw [innerEnds_eq, if_pos hexit] at hends
          cases hends
        rw [if_neg hexit] at hlive
        exact fun hin => hlive (List.mem_cons_of_mem _ hin)

/-- A builder that puts each required statement somewhere was given a flat list.
Source: `builder.py`, `_build_subgraph`
Kind: P -/
theorem flat_of_placed {l : List Stmt} (hnd : (occurrences getStmtKind l).Nodup)
    (hplaced : ∀ s, Required getStmtKind l s → s ∈ l.flatMap topPlaced) : Flat getStmtKind l := by
  -- what is placed of the lists of a statement is placed by the statement itself
  have hwhere : ∀ s ∈ l, ∀ m ∈ subLists getStmtKind s, ∀ y ∈ occurrences getStmtKind m,
      y ∈ l.flatMap topPlaced → ∃ m₂ ∈ subLists getStmtKind s, y ∈ listPlaced m₂ ∧
        y ∈ occurrences getStmtKind m₂ := by
    intro s hs m hm y hy hmem
    obtain ⟨z, hz, hyz⟩ := List.mem_flatMap.mp hmem
    have hys := mem_occurrencesOf_subList hm hy
    have htop : (topPlaced z).Sublist (occurrencesOf getStmtKind z) := by
      simpa [occurrences] using topPlaced_sublist [z]
    obtain rfl := occurrencesOf_inj hnd hs hz hys (htop.subset hyz)
    have hnds := nodup_occurrencesOf hnd hs
    rw [occurrencesOf_eq] at hnds
    rw [topPlaced_eq] at hyz
    rcases List.mem_cons.mp hyz with rfl | hyz
    · exact absurd (List.mem_flatMap.mpr ⟨m, hm, hy⟩) (List.nodup_cons.mp hnds).1
    · obtain ⟨m₂, hm₂, hy₂⟩ := List.mem_flatMap.mp hyz
      exact ⟨m₂, hm₂, hy₂, (listPlaced_sublist m₂).subset hy₂⟩
  intro s hs m hm
  have hbranches : ∀ x ∈ live getStmtKind m, getStmtKind x ≠ .branch := by
    intro x hx hbranch
    have hxm : x ∈ occurrences getStmtKind m := mem_occurrences_of_mem (live_subset _ hx)
    have hreq : Required getStmtKind l x := ⟨m, .inside hs hm (.here m), hx⟩
    obtain ⟨m₂, -, hx₂, -⟩ := hwhere s hs m hm x hxm (hplaced x hreq)
    exact listPlaced_kind m₂ x hx₂ hbranch
  refine ⟨fun x hx m' hm' => ?_, hbranches⟩
  rcases m' with _ | ⟨y, rest⟩
  · rfl
  · exfalso
    have hy : y ∈ occurrences getStmtKind (y :: rest) := mem_occurrences_of_mem List.mem_cons_self
    have hym := mem_occurrences_subList hx hm' hy
    have hlive : y ∈ live getStmtKind (y :: rest) := by
      rw [live_cons]
      split <;> simp
    have hreq : Required getStmtKind l y :=
      ⟨y :: rest, .inside hs hm (.inside hx hm' (.here _)), hlive⟩
    obtain ⟨m₂, hm₂, hy₂, hocc₂⟩ := hwhere s hs m hm y hym (hplaced y hreq)
    have hnds := nodup_occurrencesOf hnd hs
    have hmm : m₂ = m := by grind [occurrencesOf_eq, eq_of_mem_flatMap]
    subst hmm
    have hskip : getStmtKind x ≠ .branch ∨ x ∉ live getStmtKind m₂ := by grind
    exact not_mem_listPlaced (nodup_occurrences_subList hnds hm) hx hm' hy hskip hy₂

/-- In a flat list, each required statement is placed. Source: `builder.py`, `build_cfg`. Kind: P -/
theorem placed_of_flat {l : List Stmt} (hflat : Flat getStmtKind l) {s : Stmt}
    (hreq : Required getStmtKind l s) : s ∈ l.flatMap topPlaced := by
  obtain ⟨m, hm, hs⟩ := hreq
  rcases hm with _ | ⟨hz, hl', hnested⟩
  · exact List.mem_flatMap.mpr ⟨s, live_subset _ hs, by rw [topPlaced_eq]; exact List.mem_cons_self⟩
  · rename_i l' z
    obtain ⟨hinner, hbranches⟩ := hflat z hz l' hl'
    have hmm : m = l' ∨ m = [] := by
      rcases hnested with _ | ⟨hx, hl'', hnested'⟩
      · exact Or.inl rfl
      · rename_i l'' x
        have hnil := hinner x hx l'' hl''
        subst hnil
        rcases hnested' with _ | ⟨hx', -, -⟩
        · exact Or.inr rfl
        · exact absurd hx' List.not_mem_nil
    rcases hmm with rfl | rfl
    · refine List.mem_flatMap.mpr ⟨z, hz, ?_⟩
      rw [topPlaced_eq]
      refine List.mem_cons_of_mem _ (List.mem_flatMap.mpr ⟨m, hl', ?_⟩)
      rw [listPlaced_eq_live hbranches]
      exact hs
    · exact absurd hs List.not_mem_nil

/-- An element of a list whose labels are distinct is the only one with its label. Kind: L -/
theorem filter_label_eq {α β : Type*} [DecidableEq β] {f : α → β} {l : List α}
    (hnd : (l.map f).Nodup) {a : α} (ha : a ∈ l) : l.filter (fun x => f x = f a) = [a] := by
  induction l with
  | nil => exact absurd ha List.not_mem_nil
  | cons b l ih =>
    obtain ⟨hb, hnd⟩ := List.nodup_cons.mp hnd
    rcases List.mem_cons.mp ha with rfl | ha
    · simp_all
    · grind

/-- **Each required statement has its place exactly when the list is flat.**
Source: `builder.py`, `build_cfg`
Kind: P -/
theorem once_iff_flat {l : List Stmt} (hnd : ((occurrences getStmtKind l).map Stmt.tag).Nodup) :
    (∀ s, Required getStmtKind l s →
      (placed (buildBody l).blocks).filter (fun x => x.tag = s.tag) = [s]) ↔ Flat getStmtKind l := by
  have hperm := placed_buildBody l
  constructor
  · intro honce
    refine flat_of_placed hnd.of_map fun s hs => ?_
    have hmem : s ∈ (placed (buildBody l).blocks).filter fun x => x.tag = s.tag := by
      rw [honce s hs]
      exact List.mem_singleton.mpr rfl
    exact hperm.mem_iff.mp (List.mem_of_mem_filter hmem)
  · intro hflat s hs
    have hsub := (topPlaced_sublist l).map Stmt.tag
    have hnd' : ((placed (buildBody l).blocks).map Stmt.tag).Nodup :=
      (hperm.map Stmt.tag).nodup_iff.mpr (hsub.nodup hnd)
    exact filter_label_eq hnd' (hperm.mem_iff.mpr (placed_of_flat hflat hs))

end KarsaSec.Cfg
