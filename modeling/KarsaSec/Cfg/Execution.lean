import KarsaSec.Cfg.Placement

/-!
# The graph runs what its statements run

* `exec_live`: a flat list of a branch or body runs what is live in it.
* `buildList_flat`: the builder puts it into one block.
* `reads_stmt` and `reads_top` follow an execution along the edges of the graph.
* `faithful_iff_flat`: a graph is faithful to its statements exactly when they are flat.
-/

namespace KarsaSec.Cfg

open KarsaSec.Found Builder

/-! ## Executions of flat lists -/

/-- An execution of a list is one of its first statement, and then one of the rest. Kind: L -/
theorem exec_cons {κ : Stmt → StmtKind} {s : Stmt} {rest t : List Stmt} {b : Bool}
    (h : Exec κ (s :: rest) t b) :
    (Exec κ [s] t true ∧ b = true) ∨
      ∃ t₁ t₂, t = t₁ ++ t₂ ∧ Exec κ [s] t₁ false ∧ Exec κ rest t₂ b := by
  generalize hl : s :: rest = l at h
  induction h with
  | nil => cases hl
  | exit hk =>
    cases hl
    exact Or.inl ⟨.exit hk, rfl⟩
  | plain hk h =>
    cases hl
    exact Or.inr ⟨[s], _, rfl, .plain hk .nil, h⟩
  | @branch s' rest' m t₁ t₂ b hk hm h h' =>
    cases hl
    refine Or.inr ⟨s :: (t₁ ++ []), t₂, by simp, .branch hk hm h .nil, h'⟩
  | branchExit hk hm h =>
    cases hl
    exact Or.inl ⟨.branchExit hk hm h, rfl⟩
  | loopDone hk h =>
    cases hl
    exact Or.inr ⟨[s], _, rfl, .loopDone hk .nil, h⟩
  | @loopRound s' rest' t₁ t₂ b hk h hne h' _ ih =>
    cases hl
    rcases ih rfl with ⟨hs, hb⟩ | ⟨u₁, u₂, rfl, hs, hrest⟩
    · exact Or.inl ⟨.loopRound hk h hne hs, hb⟩
    · exact Or.inr ⟨s :: (t₁ ++ u₁), u₂, by simp, .loopRound hk h hne hs, hrest⟩
  | loopExit hk h =>
    cases hl
    exact Or.inl ⟨.loopExit hk h, rfl⟩

/-- A list with no branch before its first terminator, and with nothing nested in its statements.
Kind: D -/
def FlatList (m : List Stmt) : Prop :=
  (∀ x ∈ m, ∀ m' ∈ subLists getStmtKind x, m' = []) ∧
    ∀ x ∈ live getStmtKind m, getStmtKind x ≠ .branch

theorem FlatList.tail {s : Stmt} {rest : List Stmt} (h : FlatList (s :: rest))
    (hexit : getStmtKind s ≠ .exit) : FlatList rest := by
  refine ⟨fun x hx => h.1 x (List.mem_cons_of_mem _ hx), fun x hx => h.2 x ?_⟩
  rw [live_cons, if_neg hexit]
  exact List.mem_cons_of_mem _ hx

theorem FlatList.head {s : Stmt} {rest : List Stmt} (h : FlatList (s :: rest)) :
    getStmtKind s ≠ .branch := by
  refine h.2 s ?_
  rw [live_cons]
  split <;> simp

theorem listEnds_cons (s : Stmt) (rest : List Stmt) :
    listEnds (s :: rest) = (innerEnds s || listEnds rest) := by
  rw [listEnds]

theorem innerEnds_flat {s : Stmt} (h : getStmtKind s ≠ .branch) :
    innerEnds s = decide (getStmtKind s = .exit) := by
  rw [innerEnds_eq, if_neg h]
  split <;> simp [*]

/-- What nests nothing runs nothing inside. Kind: L -/
theorem exec_nil {κ : Stmt → StmtKind} {t : List Stmt} {b : Bool} (h : Exec κ [] t b) :
    t = [] ∧ b = false := by
  cases h
  exact ⟨rfl, rfl⟩

/-- A plain statement runs itself. Kind: L -/
theorem Exec.of_plain {κ : Stmt → StmtKind} {s : Stmt} {t : List Stmt} {b : Bool}
    (hk : κ s = .plain) (h : Exec κ [s] t b) : t = [s] ∧ b = false := by
  cases h
  case plain h =>
    obtain ⟨rfl, rfl⟩ := exec_nil h
    exact ⟨rfl, rfl⟩
  all_goals simp_all

/-- A terminator runs itself and ends. Kind: L -/
theorem Exec.of_exit {κ : Stmt → StmtKind} {s : Stmt} {t : List Stmt} {b : Bool}
    (hk : κ s = .exit) (h : Exec κ [s] t b) : t = [s] ∧ b = true := by
  cases h
  case exit => exact ⟨rfl, rfl⟩
  all_goals simp_all

/-- A branch runs itself and then one of its lists. Kind: L -/
theorem Exec.of_branch {κ : Stmt → StmtKind} {s : Stmt} {t : List Stmt} {b : Bool}
    (hk : κ s = .branch) (h : Exec κ [s] t b) :
    ∃ m u, (m = s.onTrue ∨ m = s.onFalse) ∧ Exec κ m u b ∧ t = s :: u := by
  cases h
  case branch m u u' h _ hm h' =>
    obtain ⟨rfl, rfl⟩ := exec_nil h'
    exact ⟨m, u, hm, h, by rw [List.append_nil]⟩
  case branchExit m u h _ hm => exact ⟨m, u, hm, h, rfl⟩
  all_goals simp_all

/-- A flat list runs what is live in it, up to its terminator. Kind: L -/
theorem exec_live {m : List Stmt} (hflat : FlatList m) {t : List Stmt} {b : Bool}
    (h : Exec getStmtKind m t b) : t = live getStmtKind m ∧ b = listEnds m := by
  induction m generalizing t with
  | nil => exact exec_nil h
  | cons s rest ih =>
    have hbranch := hflat.head
    have hbody : getStmtKind s = .loop → s.body = [] := fun hk =>
      hflat.1 s List.mem_cons_self s.body (by simp [subLists, hk])
    rw [live_cons, listEnds_cons, innerEnds_flat hbranch]
    have hstep : ∀ {u : List Stmt}, getStmtKind s ≠ .exit → Exec getStmtKind rest u b →
        s :: u = (if getStmtKind s = .exit then [s] else s :: live getStmtKind rest) ∧
          b = (decide (getStmtKind s = .exit) || listEnds rest) := by
      intro u hexit hu
      obtain ⟨rfl, rfl⟩ := ih (hflat.tail hexit) hu
      simp [hexit]
    cases h with
    | exit hk => simp [hk]
    | plain hk h => exact hstep (by simp [hk]) h
    | branch hk => exact absurd hk hbranch
    | branchExit hk => exact absurd hk hbranch
    | loopDone hk h => exact hstep (by simp [hk]) h
    | loopRound hk h hne =>
      rw [hbody hk] at h
      exact absurd (exec_nil h).1 hne
    | loopExit hk h =>
      rw [hbody hk] at h
      exact absurd (exec_nil h).2 (by decide)

/-- An edge between two blocks. Kind: D -/
def HasEdge (g : Builder) (a b : String) : Prop := ∃ e ∈ g.edges, e.srcId = a ∧ e.targetId = b

/-- A flat list is built into the block it starts in, with an edge to the exit if it ends there.
Source: `builder.py`, `_build_subgraph`
Kind: P -/
theorem buildList_flat {m : List Stmt} (hflat : FlatList m) {c : String} {g : Builder}
    (hr : Ready c g) :
    (buildList m c g).2 = (c, listEnds m) ∧
      (buildList m c g).1.statements c = g.statements c ++ live getStmtKind m ∧
      (listEnds m = true → HasEdge (buildList m c g).1 c "exit") := by
  induction m generalizing g with
  | nil =>
    unfold buildList listEnds live
    exact ⟨by rw [hr.notTerminate], by simp, fun h => absurd h (by decide)⟩
  | cons s rest ih =>
    have hbranch := hflat.head
    rw [listEnds_cons, innerEnds_flat hbranch, live_cons]
    have hinner : buildInner s c g = if getStmtKind s = .exit then
        (((g.appendStmt c s).terminate c).addEdge c "exit" .fallthrough none, c, true)
        else (g.appendStmt c s, c, false) := by
      rcases s with ⟨tag, kind, text, condition, onTrue, onFalse, body⟩
      unfold buildInner
      simp only [if_neg hbranch]
    unfold buildList
    rw [hinner]
    by_cases hexit : getStmtKind s = .exit
    · simp only [if_pos hexit, if_true]
      refine ⟨by simp [hexit], ?_, fun _ => ⟨⟨c, "exit", .fallthrough, none⟩, by simp, rfl, rfl⟩⟩
      rw [statements_addEdge, statements_terminate, statements_appendStmt_self g hr.mem]
    · simp only [if_neg hexit, Bool.false_eq_true, if_false]
      have hadd := Grows.of_appendStmt hr.fresh hr.mem s
      have hr' : Ready c (g.appendStmt c s) :=
        ⟨hadd.fresh, hadd.keys c hr.mem, by simpa using hr.notTerminate⟩
      obtain ⟨hres, hstmts, hedge⟩ := ih (hflat.tail hexit) hr'
      rw [statements_appendStmt_self g hr.mem, List.append_assoc] at hstmts
      simp only [hexit, decide_false, Bool.false_or]
      exact ⟨hres, hstmts, hedge⟩

/-! ## Reading along edges -/

/-- Reading in the blocks of a builder. Kind: D -/
abbrev Reads (g : Builder) : String → ℕ → List Stmt → Prop := Run g.statements g.edges "exit"

/-- Going on in a block, or having ended at the exit. Kind: D -/
def Continues (g : Builder) (b : Bool) (c : String) (k : ℕ) (t : List Stmt) : Prop :=
  if b then t = [] else Reads g c k t

theorem reads_exit {g : Builder} (hexit : g.statements "exit" = []) : Reads g "exit" 0 [] :=
  .done (by rw [hexit]; rfl)

theorem reads_move {g : Builder} {c c' : String} {t : List Stmt} (hedge : HasEdge g c c')
    (h : Reads g c' 0 t) : Reads g c (g.statements c).length t := by
  obtain ⟨e, he, hsrc, rfl⟩ := hedge
  exact .move rfl he hsrc h

/-- Reading the last statements of a block. Kind: L -/
theorem reads_block {g : Builder} {c : String} (pre : List Stmt) {ts t : List Stmt}
    (hst : g.statements c = pre ++ ts) (h : Reads g c (g.statements c).length t) :
    Reads g c pre.length (ts ++ t) := by
  induction ts generalizing pre with
  | nil => simpa [hst] using h
  | cons s ts ih =>
    refine .read (by simp [hst]) ?_
    have hrest := ih (pre ++ [s]) (by simp [hst])
    simpa using hrest

/-- Reading a flat list from its block, which leads to the exit or to `next`. Kind: L -/
theorem reads_list {g : Builder} {c next : String} {m t t' : List Stmt} {b : Bool}
    (hflat : FlatList m) (hst : g.statements c = live getStmtKind m)
    (hends : listEnds m = true → HasEdge g c "exit")
    (hnext : listEnds m = false → HasEdge g c next)
    (hexit : g.statements "exit" = []) (h : Exec getStmtKind m t b)
    (hcont : Continues g b next 0 t') : Reads g c 0 (t ++ t') := by
  obtain ⟨rfl, rfl⟩ := exec_live hflat h
  refine reads_block [] (by simpa using hst) ?_
  unfold Continues at hcont
  rcases hb : listEnds m with _ | _
  · rw [hb] at hcont
    exact reads_move (hnext hb) hcont
  · rw [hb] at hcont
    obtain rfl := hcont
    exact reads_move (hends hb) (reads_exit hexit)

/-- What a later builder keeps of an earlier one that it does not write to any more. Kind: D -/
structure Keeps (g G : Builder) : Prop where
  stmts : ∀ id ∈ g.blocks.keys, G.statements id = g.statements id
  edges : ∀ e ∈ g.edges, e ∈ G.edges

theorem Keeps.back {c : String} {ps : List Stmt} {g g' G : Builder} (h : Keeps g' G)
    (hgrows : g.Grows c ps g') (hc : c ∉ g.blocks.keys) : Keeps g G := by
  refine ⟨fun id hid => ?_, fun e he => h.edges e (hgrows.edges e he)⟩
  rw [h.stmts id (hgrows.keys id hid), hgrows.same id hid fun heq => hc (heq ▸ hid)]

theorem Keeps.of_grows {c : String} {ps : List Stmt} {g G : Builder} (h : g.Grows c ps G)
    (hc : c ∉ g.blocks.keys) : Keeps g G :=
  ⟨fun id hid => h.same id hid fun heq => hc (heq ▸ hid), h.edges⟩

theorem Keeps.of_addEdge {g G : Builder} {a b : String} {k : CFGEdgeKind} {c : Option String}
    (h : Keeps (g.addEdge a b k c) G) : Keeps g G ∧ HasEdge G a b := by
  refine ⟨⟨fun id hid => ?_, fun e he => h.edges e (by simp [he])⟩, ?_⟩
  · simpa using h.stmts id (by simpa using hid)
  · exact ⟨⟨a, b, k, c⟩, h.edges _ (by simp), rfl, rfl⟩

theorem Keeps.of_joinUnless {g G : Builder} {t : Bool} {a b : String} {k : CFGEdgeKind}
    (h : Keeps (g.joinUnless t a b k) G) : Keeps g G ∧ (t = false → HasEdge G a b) := by
  unfold joinUnless at h
  split at h
  · simp_all
  · exact ⟨h.of_addEdge.1, fun _ => h.of_addEdge.2⟩

theorem HasEdge.mono {g g' : Builder} {a b : String} (h : HasEdge g a b)
    (hsub : ∀ e ∈ g.edges, e ∈ g'.edges) : HasEdge g' a b := by
  obtain ⟨e, he, hends⟩ := h
  exact ⟨e, hsub e he, hends⟩

/-- The condition block of a branch is read before what comes behind it.
Source: `builder.py`, `build_cfg`, `if` case
Kind: L -/
theorem reads_condition {g G : Builder} {curr : String} (hr : Ready curr g) (s : Stmt)
    (hkeeps : Keeps (conditionBlock s curr g).1 G) {t : List Stmt}
    (h : Reads G (conditionBlock s curr g).2 (G.statements (conditionBlock s curr g).2).length t) :
    Reads G curr (g.statements curr).length (s :: t) := by
  have hst := hkeeps.stmts _ (conditionBlock_spec hr s).1.mem
  have hcurr := hkeeps.stmts _ ((conditionBlock_spec hr s).1.grows.keys curr hr.mem)
  revert hst hcurr hkeeps h
  unfold conditionBlock
  split
  · intro hkeeps h hst _
    rw [statements_appendStmt_self g hr.mem] at hst
    exact @reads_block G _ (g.statements curr) [s] t hst h
  · intro hkeeps h hst hcurr
    have hne : curr ≠ g.nextId "cond" := fun heq =>
      hr.fresh.nextId_not_mem "cond" (heq ▸ hr.mem)
    rw [statements_addEdge, statements_addBlock] at hst hcurr
    rw [if_pos rfl] at hst
    rw [if_neg hne, statements_tick] at hcurr
    rw [← hcurr]
    exact reads_move hkeeps.of_addEdge.2 (@reads_block G _ [] [s] t hst h)

theorem hasEdge_addEdge (g : Builder) (a b : String) (k : CFGEdgeKind) (c : Option String) :
    HasEdge (g.addEdge a b k c) a b := ⟨⟨a, b, k, c⟩, by simp, rfl, rfl⟩

theorem hasEdge_joinUnless (g : Builder) (a c : String) (k : CFGEdgeKind) :
    HasEdge (g.joinUnless false a c k) a c := hasEdge_addEdge g a c k none

theorem HasEdge.joinUnless {g : Builder} {a b : String} (h : HasEdge g a b) (t : Bool)
    (a' b' : String) (k : CFGEdgeKind) : HasEdge (g.joinUnless t a' b' k) a b := by
  obtain ⟨e, he, hends⟩ := h
  unfold Builder.joinUnless
  split
  · exact ⟨e, he, hends⟩
  · exact ⟨e, by simp [he], hends⟩

theorem statements_openSub (label : String) (g : Builder) :
    (openSub label g).statements (g.nextId label) = [] := by
  rw [openSub, statements_addBlock, if_pos rfl]

theorem statements_mergeBranches (g : Builder) (t f : String × Bool) :
    (mergeBranches g t f).statements (g.nextId "merge") = [] := by
  rw [mergeBranches, statements_joinUnless, statements_joinUnless, statements_addBlock, if_pos rfl]

/-- The edges to the merge block. Source: `builder.py`, `m_block`. Kind: L -/
theorem hasEdge_mergeBranches (g : Builder) (t f : String × Bool) :
    (t.2 = false → HasEdge (mergeBranches g t f) t.1 (g.nextId "merge")) ∧
      (f.2 = false → HasEdge (mergeBranches g t f) f.1 (g.nextId "merge")) := by
  unfold mergeBranches
  constructor
  · intro ht
    rw [ht]
    exact (hasEdge_joinUnless _ _ _ _).joinUnless _ _ _ _
  · intro hf
    rw [hf]
    exact hasEdge_joinUnless _ _ _ _

/-- A flat list that is built into a new block, read in a later builder. Kind: L -/
theorem reads_sub {g : Builder} {label next : String} {m t t' : List Stmt} {b : Bool} {G : Builder}
    (hflat : FlatList m) (hr : Ready (g.nextId label) (openSub label g))
    (hkeeps : Keeps (buildList m (g.nextId label) (openSub label g)).1 G)
    (hnext : listEnds m = false → HasEdge G (g.nextId label) next)
    (hexit : G.statements "exit" = []) (h : Exec getStmtKind m t b)
    (hcont : Continues G b next 0 t') : Reads G (g.nextId label) 0 (t ++ t') := by
  obtain ⟨-, hst, hends⟩ := buildList_flat hflat hr
  have hmem := (buildList_spec m _ _ hr).1.grows.keys _ hr.mem
  rw [← hkeeps.stmts _ hmem, statements_openSub, List.nil_append] at hst
  exact reads_list hflat hst (fun hb => (hends hb).mono hkeeps.edges) hnext hexit h hcont

/-- From the end of its condition block, a branch runs one of its lists and goes on in the merge block.
Kind: L -/
theorem reads_fork {g G : Builder} (hr : g.Fresh) (cond : String) (condition : Option String)
    {onTrue onFalse : List Stmt} (htrue : FlatList onTrue) (hfalse : FlatList onFalse)
    (hexit : G.statements "exit" = []) :
    let t := buildList onTrue (g.nextId "true_branch") (openSub "true_branch" g)
    let g' := t.1.addEdge cond (g.nextId "true_branch") .trueBranch condition
    let f := buildList onFalse (g'.nextId "false_branch") (openSub "false_branch" g')
    let g'' := f.1.addEdge cond (g'.nextId "false_branch") .falseBranch condition
    ∀ {ps : List Stmt}, (mergeBranches g'' t.2 f.2).Grows (g''.nextId "merge") ps G →
      Keeps g G ∧ ∀ {m u u' : List Stmt} {b : Bool}, m = onTrue ∨ m = onFalse →
        Exec getStmtKind m u b → Continues G b (g''.nextId "merge") 0 u' →
        Reads G cond (G.statements cond).length (u ++ u') := by
  intro t g' f g'' ps hG
  have hfork : Forked onTrue onFalse g g' g'' (mergeBranches g'' t.2 f.2) :=
    branches_spec hr cond condition (fun c g hc => (buildList_spec onTrue c g hc).1)
      fun c g hc => (buildList_spec onFalse c g hc).1
  have hnew := (hfork.growsFalse "").fresh.nextId_not_mem "merge"
  have hkeeps'' : Keeps g'' G :=
    Keeps.of_grows ((hfork.merges _).trans hG (Or.inl rfl)) hnew
  have hnew' := fun hmem => hnew ((hfork.growsFalse "").keys _ hmem)
  have hkeeps' : Keeps g' G := hkeeps''.back (hfork.growsFalse _) hnew'
  have hkeeps : Keeps g G := hkeeps'.back (hfork.growsTrue _) fun hmem =>
    hnew' ((hfork.growsTrue "").keys _ hmem)
  refine ⟨hkeeps, fun hm h hcont => ?_⟩
  obtain ⟨hjoinTrue, hjoinFalse⟩ := hasEdge_mergeBranches g'' t.2 f.2
  obtain ⟨hresTrue, -, -⟩ := buildList_flat htrue hfork.readyTrue
  obtain ⟨hresFalse, -, -⟩ := buildList_flat hfalse hfork.readyFalse
  rcases hm with rfl | rfl
  · refine reads_move hkeeps'.of_addEdge.2 ?_
    refine reads_sub htrue hfork.readyTrue hkeeps'.of_addEdge.1 (fun hb => ?_) hexit h hcont
    have hjoin := (hjoinTrue (by rw [hresTrue]; exact hb)).mono hG.edges
    rw [hresTrue] at hjoin
    exact hjoin
  · refine reads_move hkeeps''.of_addEdge.2 ?_
    refine reads_sub hfalse hfork.readyFalse hkeeps''.of_addEdge.1 (fun hb => ?_) hexit h hcont
    have hjoin := (hjoinFalse (by rw [hresFalse]; exact hb)).mono hG.edges
    rw [hresFalse] at hjoin
    exact hjoin

/-- A branch of the whole body, and what follows it. Source: `builder.py`, `build_cfg`, `if` case.
Kind: P -/
theorem reads_branch {g G : Builder} {curr : String} (hr : Ready curr g) {s : Stmt}
    (htrue : FlatList s.onTrue) (hfalse : FlatList s.onFalse) {ps : List Stmt}
    (hG : (buildBranch s curr g).1.Grows (buildBranch s curr g).2 ps G)
    (hexit : G.statements "exit" = []) {m t t' : List Stmt} {b : Bool}
    (hm : m = s.onTrue ∨ m = s.onFalse) (h : Exec getStmtKind m t b)
    (hcont : Continues G b (buildBranch s curr g).2 0 t') :
    Reads G curr (g.statements curr).length (s :: (t ++ t')) := by
  obtain ⟨hkeeps, hreads⟩ := reads_fork (conditionBlock_spec hr s).2.fresh (conditionBlock s curr g).2
    s.condition htrue hfalse hexit hG
  exact reads_condition hr s hkeeps (hreads hm h hcont)

/-- The rounds of a loop, read from its condition block. Kind: L -/
theorem reads_rounds {G : Builder} {s : Stmt} (hk : getStmtKind s = .loop) {cond body post : String}
    (hcond : G.statements cond = [s]) (hbody : HasEdge G cond body) (hpost : HasEdge G cond post)
    (hround : ∀ {u u' : List Stmt} {b : Bool}, Exec getStmtKind s.body u b →
      Continues G b cond 0 u' → Reads G body 0 (u ++ u'))
    {t t' : List Stmt} {b : Bool} (h : Exec getStmtKind [s] t b) (hcont : Continues G b post 0 t') :
    Reads G cond 0 (t ++ t') := by
  have hread : ∀ {u : List Stmt} {c : String}, HasEdge G cond c → Reads G c 0 u →
      Reads G cond 0 (s :: u) := fun hedge hu =>
    @reads_block G cond [] [s] _ hcond (reads_move hedge hu)
  have hloop : getStmtKind s ≠ .exit ∧ getStmtKind s ≠ .plain ∧ getStmtKind s ≠ .branch := by
    rw [hk]
    decide
  generalize hl : [s] = l at h
  induction h with
  | nil => cases hl
  | exit hk' =>
    cases hl
    exact absurd hk' hloop.1
  | plain hk' =>
    cases hl
    exact absurd hk' hloop.2.1
  | branch hk' =>
    cases hl
    exact absurd hk' hloop.2.2
  | branchExit hk' =>
    cases hl
    exact absurd hk' hloop.2.2
  | loopDone _ h =>
    cases hl
    obtain ⟨rfl, rfl⟩ := exec_nil h
    exact hread hpost hcont
  | loopRound _ h _ _ _ ih =>
    cases hl
    rw [List.cons_append, List.append_assoc]
    exact hread hbody (hround h (ih hcont rfl))
  | loopExit _ h =>
    cases hl
    exact hread hbody (hround h hcont)

/-- From its condition block, a loop runs its body any number of times. Kind: L -/
theorem reads_looped {g G : Builder} {s : Stmt} (hk : getStmtKind s = .loop) {cond : String}
    (hr : g.Fresh) (hmem : cond ∈ g.blocks.keys) (hcond : g.statements cond = [s])
    (hbody : FlatList s.body) (hexit : G.statements "exit" = []) :
    let b := buildList s.body (g.nextId "loop_body") (openSub "loop_body" g)
    let g' := (b.1.addEdge cond (g.nextId "loop_body") .trueBranch s.condition).joinUnless b.2.2
      b.2.1 cond .loopBackedge
    let p := g'.tick.addBlock { blockId := g'.nextId "post_loop", label := "POST_LOOP" }
    ∀ {ps : List Stmt},
      (p.addEdge cond (g'.nextId "post_loop") .falseBranch s.condition).Grows
        (g'.nextId "post_loop") ps G →
      Keeps g G ∧ ∀ {u u' : List Stmt} {b : Bool}, Exec getStmtKind [s] u b →
        Continues G b (g'.nextId "post_loop") 0 u' → Reads G cond 0 (u ++ u') := by
  intro b g' p ps hG
  have hlooped : Looped s.body g g' (p.addEdge cond _ .falseBranch s.condition) :=
    loopBody_spec hr cond s.condition fun c g hc => (buildList_spec s.body c g hc).1
  have hnew := (hlooped.growsBody "").fresh.nextId_not_mem "post_loop"
  have hkeeps' : Keeps g' G := Keeps.of_grows ((hlooped.leaves _).trans hG (Or.inl rfl)) hnew
  have hkeeps : Keeps g G := hkeeps'.back (hlooped.growsBody _) fun hmem =>
    hnew ((hlooped.growsBody "").keys _ hmem)
  obtain ⟨hinner, hback⟩ := hkeeps'.of_joinUnless
  obtain ⟨hbuilt, hedge⟩ := hinner.of_addEdge
  refine ⟨hkeeps, reads_rounds hk (by rw [hkeeps.stmts _ hmem, hcond]) hedge ?_ fun h hcont => ?_⟩
  · exact (hasEdge_addEdge p cond _ .falseBranch s.condition).mono hG.edges
  · obtain ⟨hres, -, -⟩ := buildList_flat hbody hlooped.readyBody
    refine reads_sub hbody hlooped.readyBody hbuilt (fun hb => ?_) hexit h hcont
    have hjoin := hback (by rw [hres]; exact hb)
    rw [hres] at hjoin
    exact hjoin

/-- A loop of the whole body: any number of rounds, and what follows.
Source: `builder.py`, `build_cfg`, `while` case
Kind: P -/
theorem reads_loop {g G : Builder} {curr : String} (hr : Ready curr g) {s : Stmt}
    (hk : getStmtKind s = .loop) (hbody : FlatList s.body) {ps : List Stmt}
    (hG : (buildLoop s curr g).1.Grows (buildLoop s curr g).2 ps G)
    (hexit : G.statements "exit" = []) {t t' : List Stmt} {b : Bool}
    (h : Exec getStmtKind [s] t b) (hcont : Continues G b (buildLoop s curr g).2 0 t') :
    Reads G curr (g.statements curr).length (t ++ t') := by
  obtain ⟨hopen, hready⟩ := openLoop_spec hr s
  have hnew := hr.fresh.nextId_not_mem "loop_cond"
  have hcond : (openLoop s curr g).statements (g.nextId "loop_cond") = [s] := by
    rw [openLoop, statements_addEdge, statements_addBlock, if_pos rfl]
  have hcurr : (openLoop s curr g).statements curr = g.statements curr := by
    have hne : curr ≠ g.nextId "loop_cond" := fun heq => hnew (heq ▸ hr.mem)
    rw [openLoop, statements_addEdge, statements_addBlock, if_neg hne, statements_tick]
  obtain ⟨hkeeps, hreads⟩ := reads_looped hk hready.fresh hready.mem hcond hbody hexit hG
  have hedge : HasEdge G curr (g.nextId "loop_cond") :=
    (hasEdge_addEdge _ curr _ .fallthrough none).mono hkeeps.edges
  rw [← hcurr, ← hkeeps.stmts _ (hopen.keys curr hr.mem)]
  exact reads_move hedge (hreads h hcont)

/-- One statement of the whole body, and what follows it. Source: `builder.py`, `build_cfg`. Kind: P -/
theorem reads_stmt {g G : Builder} {curr : String} (hr : Ready curr g) {s : Stmt}
    (hflat : ∀ m ∈ subLists getStmtKind s, FlatList m) {ps : List Stmt}
    (hG : (buildStmt s curr g).1.Grows (buildStmt s curr g).2 ps G)
    (hexit : G.statements "exit" = []) {t t' : List Stmt} {b : Bool}
    (h : Exec getStmtKind [s] t b)
    (hcont : Continues G b (buildStmt s curr g).2
      ((buildStmt s curr g).1.statements (buildStmt s curr g).2).length t') :
    Reads G curr (g.statements curr).length (t ++ t') := by
  revert hG hcont
  unfold buildStmt
  rcases hk : getStmtKind s with _ | _ | _ | _
  · -- a branch: the run of one of its lists, and what follows in the merge block
    intro hG hcont
    have hnil : (buildBranch s curr g).1.statements (buildBranch s curr g).2 = [] :=
      statements_mergeBranches _ _ _
    rw [hnil] at hcont
    have htrue := hflat s.onTrue (by simp [subLists, hk])
    have hfalse := hflat s.onFalse (by simp [subLists, hk])
    obtain ⟨m, u, hm, hu, rfl⟩ := h.of_branch hk
    exact reads_branch hr htrue hfalse hG hexit hm hu hcont
  · -- a loop
    intro hG hcont
    have hnil : (buildLoop s curr g).1.statements (buildLoop s curr g).2 = [] := by simp [buildLoop, statements_addBlock]
    rw [hnil] at hcont
    exact reads_loop hr hk (hflat s.body (by simp [subLists, hk])) hG hexit h hcont
  · -- a terminator: nothing follows
    intro hG hcont
    obtain ⟨rfl, rfl⟩ := h.of_exit hk
    obtain rfl := hcont
    set e := ((g.appendStmt curr s).terminate curr).addEdge curr "exit" .fallthrough none with he
    have hfresh : e.Fresh := by
      have hadd := Grows.of_appendStmt hr.fresh hr.mem s
      have hterm := Grows.of_terminate hadd.fresh curr curr
      exact (Grows.of_addEdge hterm.fresh curr curr "exit" .fallthrough none).fresh
    have hblock := Grows.of_newBlock hfresh (e.nextId "dead") "dead"
      { blockId := e.nextId "dead", label := "UNREACHABLE" } rfl
    have hkeeps : Keeps e G := Keeps.of_grows (hblock.trans hG (Or.inl rfl))
      (hfresh.nextId_not_mem "dead")
    have hst : G.statements curr = g.statements curr ++ [s] := by
      rw [hkeeps.stmts curr (by simpa [he] using hr.mem), he, statements_addEdge,
        statements_terminate, statements_appendStmt_self g hr.mem]
    exact reads_block _ hst (reads_move hkeeps.of_addEdge.2 (reads_exit hexit))
  · -- a plain statement: the current block goes on behind it
    intro hG hcont
    have hst : (g.appendStmt curr s).statements curr <+: G.statements curr := hG.curr
    rw [statements_appendStmt_self g hr.mem] at hst
    obtain ⟨later, hlater⟩ := hst
    obtain ⟨rfl, rfl⟩ := h.of_plain hk
    have hnext : Reads G curr ((g.appendStmt curr s).statements curr).length t' := hcont
    rw [statements_appendStmt_self g hr.mem, List.length_append] at hnext
    exact .read (by rw [← hlater]; simp) hnext

/-- The whole body: an execution is read from the current block, to the exit.
Source: `builder.py`, `build_cfg`
Kind: P -/
theorem reads_top {l : List Stmt} (hflat : ∀ s ∈ l, ∀ m ∈ subLists getStmtKind s, FlatList m)
    {g G : Builder} {curr : String} (hr : Ready curr g) {ps : List Stmt}
    (hG : (buildTop l curr g).1.Grows (buildTop l curr g).2 ps G)
    (hend : HasEdge G (buildTop l curr g).2 "exit" ∧
      G.statements (buildTop l curr g).2 =
        (buildTop l curr g).1.statements (buildTop l curr g).2)
    (hexit : G.statements "exit" = []) {t : List Stmt} {b : Bool} (h : Exec getStmtKind l t b) :
    Reads G curr (g.statements curr).length t := by
  induction l generalizing g curr t b with
  | nil =>
    obtain ⟨rfl, -⟩ := exec_nil h
    obtain ⟨hedge, hst⟩ := hend
    have hlast : G.statements curr = g.statements curr := hst
    rw [← hlast]
    exact reads_move hedge (reads_exit hexit)
  | cons s rest ih =>
    obtain ⟨hbuilt, hready⟩ := buildStmt_spec hr s
    obtain ⟨hbuilt', -⟩ := buildTop_spec (l := rest) hready
    unfold buildTop at hG hend
    have hgrows := hbuilt'.grows.trans hG hbuilt'.next
    have hhead := hflat s List.mem_cons_self
    rcases exec_cons h with ⟨hs, rfl⟩ | ⟨t₁, t₂, rfl, hs, hrest⟩
    · rw [← List.append_nil t]
      exact reads_stmt hr hhead hgrows hexit hs rfl
    · refine reads_stmt hr hhead hgrows hexit hs ?_
      exact ih (fun x hx => hflat x (List.mem_cons_of_mem _ hx)) hready hG hend hrest

/-! ## The finished graph -/

/-- In a finished graph, the last block leads to the exit, which holds nothing.
Source: `builder.py`, `build_cfg`
Kind: L -/
theorem buildBody_cons (s : Stmt) (rest : List Stmt) :
    let r := buildTop (s :: rest) "entry" initBuilder
    buildBody (s :: rest) = r.1.addEdge r.2 "exit" .fallthrough none ∧
      (buildBody (s :: rest)).statements "exit" = [] := by
  intro r
  obtain ⟨hbuilt, hready⟩ := buildTop_spec (l := s :: rest) ready_initBuilder
  have hmem : "exit" ∈ initBuilder.blocks.keys := by decide
  have hne : r.2 ≠ "exit" := by
    rcases hbuilt.next with heq | hnew
    · grind
    · exact fun heq => hnew (heq ▸ hmem)
  have hcond : (!r.1.isTerminate r.2 && decide (r.2 ≠ "exit")) = true := by
    rw [hready.notTerminate]
    simpa using hne
  have hbody : buildBody (s :: rest) = r.1.addEdge r.2 "exit" .fallthrough none := by
    unfold buildBody
    simp only [List.isEmpty_cons, Bool.false_eq_true, if_false]
    exact if_pos hcond
  refine ⟨hbody, ?_⟩
  rw [hbody, statements_addEdge, hbuilt.grows.same "exit" hmem (by decide)]
  rfl

/-- A flat body: each of its executions is read from the entry to the exit.
Source: `builder.py`, `build_cfg`
Kind: P -/
theorem reads_buildBody {l : List Stmt} (hflat : Flat getStmtKind l) {t : List Stmt} {b : Bool}
    (h : Exec getStmtKind l t b) : Reads (buildBody l) "entry" 0 t := by
  rcases l with _ | ⟨s, rest⟩
  · obtain ⟨rfl, -⟩ := exec_nil h
    have hedge : HasEdge (buildBody []) "entry" "exit" :=
      hasEdge_addEdge initBuilder "entry" "exit" .fallthrough none
    exact reads_move (g := buildBody []) hedge (reads_exit rfl)
  · obtain ⟨hbody, hexit⟩ := buildBody_cons s rest
    have hready := (buildTop_spec (l := s :: rest) ready_initBuilder).2
    have hG := Grows.of_addEdge hready.fresh (buildTop (s :: rest) "entry" initBuilder).2
      (buildTop (s :: rest) "entry" initBuilder).2 "exit" .fallthrough none
    rw [← hbody] at hG
    refine reads_top (g := initBuilder) hflat ready_initBuilder hG ⟨?_, ?_⟩ hexit h
    · rw [hbody]
      exact hasEdge_addEdge _ _ "exit" .fallthrough none
    · rw [hbody, statements_addEdge]

/-- What a run reads is in a block that edges lead to. Kind: L -/
theorem Run.reached {st : String → List Stmt} {edges : List CFGEdge} {exitId b : String} {k : ℕ}
    {t : List Stmt} (h : Run st edges exitId b k t) {s : Stmt} (hs : s ∈ t) :
    ∃ c, Relation.ReflTransGen (fun x y => (x, y) ∈ edges.map fun e => (e.srcId, e.targetId)) b c ∧
      s ∈ st c := by
  induction h with
  | done => exact absurd hs List.not_mem_nil
  | read hget _ ih =>
    rcases List.mem_cons.mp hs with rfl | hs
    · exact ⟨_, .refl, List.mem_of_getElem? hget⟩
    · exact ih hs
  | move _ he hsrc _ ih =>
    obtain ⟨c, hpath, hc⟩ := ih hs
    refine ⟨c, .head ?_ hpath, hc⟩
    exact List.mem_map.mpr ⟨_, he, by rw [hsrc]⟩

/-- A graph is faithful to what is built into it exactly when the statements are flat.
Source: `builder.py`, `CFGBuilder.build_cfg`
Kind: P -/
theorem faithful_iff_flat (name : String) {l : List Stmt}
    (hnd : ((occurrences getStmtKind l).map Stmt.tag).Nodup) :
    Faithful getStmtKind l (buildFrom name l) ↔ Flat getStmtKind l := by
  constructor
  · intro h
    exact (once_iff_flat hnd).mp h.once
  · intro hflat
    have hrun : ∀ t b, Exec getStmtKind l t b → Run (buildFrom name l).statements
        (buildFrom name l).edges (buildFrom name l).exitId (buildFrom name l).entryId 0 t :=
      fun t b h => reads_buildBody hflat h
    refine ⟨(once_iff_flat hnd).mpr hflat, hrun, fun t b s h hs => ?_⟩
    obtain ⟨c, hpath, hc⟩ := (hrun t b h).reached hs
    exact ⟨c, mem_reachFrom.mpr hpath, hc⟩

/-! ## Kinds that are read right -/

section Reading

variable {κ κ' : Stmt → StmtKind}

theorem subLists_congr {s : Stmt} (h : κ' s = κ s) : subLists κ' s = subLists κ s := by
  unfold subLists
  rw [h]

/-- What the two kinds agree on, they agree on inside. Kind: L -/
theorem agree_subList {l m : List Stmt} {s : Stmt} (h : ∀ x ∈ occurrences κ l, κ' x = κ x)
    (hs : s ∈ l) (hm : m ∈ subLists κ s) : ∀ x ∈ occurrences κ m, κ' x = κ x :=
  fun _ hx => h _ (mem_occurrences_subList hs hm hx)

theorem live_congr {l : List Stmt} (h : ∀ x ∈ l, κ' x = κ x) : live κ' l = live κ l := by
  induction l with
  | nil => rfl
  | cons s rest ih =>
    rw [live_cons, live_cons, h s List.mem_cons_self,
      ih fun x hx => h x (List.mem_cons_of_mem _ hx)]

mutual

theorem occurrencesOf_congr : (s : Stmt) → (∀ x ∈ occurrencesOf κ s, κ' x = κ x) →
    occurrencesOf κ' s = occurrencesOf κ s
  | .mk tag kind text condition onTrue onFalse body, h => by
    have hs := h (.mk tag kind text condition onTrue onFalse body)
      (by rw [occurrencesOf]; exact List.mem_cons_self)
    unfold occurrencesOf at h ⊢
    simp only [hs] at h ⊢
    by_cases hbranch : κ (.mk tag kind text condition onTrue onFalse body) = .branch
    · simp only [if_pos hbranch] at h ⊢
      rw [occurrences_congr onTrue fun x hx => h x (by simp [hx]),
        occurrences_congr onFalse fun x hx => h x (by simp [hx])]
    · by_cases hloop : κ (.mk tag kind text condition onTrue onFalse body) = .loop
      · simp only [if_neg hbranch, if_pos hloop] at h ⊢
        rw [occurrences_congr body fun x hx => h x (by simp [hx])]
      · simp only [if_neg hbranch, if_neg hloop]

theorem occurrences_congr : (l : List Stmt) → (∀ x ∈ occurrences κ l, κ' x = κ x) →
    occurrences κ' l = occurrences κ l
  | [], _ => rfl
  | s :: rest, h => by
    unfold occurrences at h ⊢
    rw [occurrencesOf_congr s fun x hx => h x (List.mem_append_left _ hx),
      occurrences_congr rest fun x hx => h x (List.mem_append_right _ hx)]

end

theorem nestedList_congr {m l : List Stmt} (h : ∀ x ∈ occurrences κ l, κ' x = κ x)
    (hm : NestedList κ m l) : NestedList κ' m l ∧ ∀ x ∈ occurrences κ m, κ' x = κ x := by
  induction hm with
  | here => exact ⟨.here m, h⟩
  | inside hs hl _ ih =>
    obtain ⟨hnested, hagree⟩ := ih (agree_subList h hs hl)
    refine ⟨.inside hs ?_ hnested, hagree⟩
    rw [subLists_congr (h _ (mem_occurrences_of_mem hs))]
    exact hl

theorem required_congr {l : List Stmt} {s : Stmt} (h : ∀ x ∈ occurrences κ l, κ' x = κ x)
    (hs : Required κ l s) : Required κ' l s := by
  obtain ⟨m, hm, hlive⟩ := hs
  obtain ⟨hm', hagree⟩ := nestedList_congr h hm
  exact ⟨m, hm', by rw [live_congr fun x hx => hagree x (mem_occurrences_of_mem hx)]; exact hlive⟩

theorem exec_congr {l t : List Stmt} {b : Bool} (h : ∀ x ∈ occurrences κ l, κ' x = κ x)
    (hexec : Exec κ l t b) : Exec κ' l t b := by
  have hhead : ∀ {s : Stmt} {rest : List Stmt}, (∀ x ∈ occurrences κ (s :: rest), κ' x = κ x) →
      κ' s = κ s := fun h => h _ (mem_occurrences_of_mem List.mem_cons_self)
  have htail : ∀ {s : Stmt} {rest : List Stmt}, (∀ x ∈ occurrences κ (s :: rest), κ' x = κ x) →
      ∀ x ∈ occurrences κ rest, κ' x = κ x := fun h x hx =>
    h x (by rw [occurrences]; exact List.mem_append_right _ hx)
  have hbranches : ∀ {s : Stmt} {rest m : List Stmt},
      (∀ x ∈ occurrences κ (s :: rest), κ' x = κ x) → κ s = .branch →
      m = s.onTrue ∨ m = s.onFalse → ∀ x ∈ occurrences κ m, κ' x = κ x := by
    intro s rest m h hk hm
    refine agree_subList h List.mem_cons_self ?_
    rcases hm with rfl | rfl <;> simp [subLists, hk]
  have hbody : ∀ {s : Stmt} {rest : List Stmt}, (∀ x ∈ occurrences κ (s :: rest), κ' x = κ x) →
      κ s = .loop → ∀ x ∈ occurrences κ s.body, κ' x = κ x := fun h hk =>
    agree_subList h List.mem_cons_self (by simp [subLists, hk])
  induction hexec with
  | nil => exact .nil
  | exit hk => exact .exit ((hhead h).trans hk)
  | plain hk _ ih => exact .plain ((hhead h).trans hk) (ih (htail h))
  | branch hk hm _ _ ih ih' =>
    exact .branch ((hhead h).trans hk) hm (ih (hbranches h hk hm)) (ih' (htail h))
  | branchExit hk hm _ ih => exact .branchExit ((hhead h).trans hk) hm (ih (hbranches h hk hm))
  | loopDone hk _ ih => exact .loopDone ((hhead h).trans hk) (ih (htail h))
  | loopRound hk _ hne _ ih ih' =>
    exact .loopRound ((hhead h).trans hk) (ih (hbody h hk)) hne (ih' h)
  | loopExit hk _ ih => exact .loopExit ((hhead h).trans hk) (ih (hbody h hk))

theorem flat_congr {l : List Stmt} (h : ∀ x ∈ occurrences κ l, κ' x = κ x) (hflat : Flat κ l) :
    Flat κ' l := by
  intro s hs m hm
  rw [subLists_congr (h s (mem_occurrences_of_mem hs))] at hm
  have hagree := agree_subList h hs hm
  obtain ⟨hinner, hbranch⟩ := hflat s hs m hm
  have hmem : ∀ x ∈ m, κ' x = κ x := fun x hx => hagree x (mem_occurrences_of_mem hx)
  refine ⟨fun x hx => ?_, fun x hx => ?_⟩
  · rw [subLists_congr (hmem x hx)]
    exact hinner x hx
  · grind [live_congr, live_subset]

theorem faithful_congr {l : List Stmt} {cfg : ControlFlowGraph}
    (h : ∀ x ∈ occurrences κ l, κ' x = κ x) (hfaithful : Faithful κ' l cfg) : Faithful κ l cfg where
  once s hs := hfaithful.once s (required_congr h hs)
  ordered t b ht := hfaithful.ordered t b (exec_congr h ht)
  reached t b s ht hs := hfaithful.reached t b s (exec_congr h ht) hs

/-- **The graph of a nested statement list is faithful exactly when the list is flat.** The kinds `κ` are
what the statements are; the builder reads them right.
Source: `builder.py`, `CFGBuilder.build_cfg`
Kind: P -/
theorem buildCfg_faithful_iff (name : String) (raw : List Stmt) (κ : Stmt → StmtKind)
    (hread : ∀ s ∈ occurrences κ (preprocessStatements raw), getStmtKind s = κ s)
    (hnd : ((occurrences κ (preprocessStatements raw)).map Stmt.tag).Nodup) :
    Faithful κ (preprocessStatements raw) (buildCfg name raw) ↔
      Flat κ (preprocessStatements raw) := by
  have hocc := occurrences_congr _ hread
  have hread' : ∀ s ∈ occurrences getStmtKind (preprocessStatements raw), κ s = getStmtKind s := by
    intro s hs
    rw [hocc] at hs
    exact (hread s hs).symm
  have hiff := faithful_iff_flat name (l := preprocessStatements raw) (by rw [hocc]; exact hnd)
  unfold buildCfg
  constructor
  · grind [flat_congr, faithful_congr]
  · intro h
    exact faithful_congr hread (hiff.mpr (flat_congr hread h))

end Reading

/-- A guard that returns early. Kind: C -/
def guardLines : List Stmt :=
  [.line 0 "if (!$ok) \x7b", .line 1 "log($ok);", .line 2 "return;", .line 3 "\x7d",
    .line 4 "eval($x);"]

theorem early_return_faithful :
    Faithful getStmtKind (preprocessStatements guardLines) (buildCfg "main" guardLines) ↔
      Flat getStmtKind (preprocessStatements guardLines) :=
  buildCfg_faithful_iff "main" guardLines getStmtKind (fun _ _ => rfl) (by decide +kernel)

/-- A loop inside a branch. Kind: C -/
def loopInBranchLines : List Stmt :=
  [.line 0 "if ($c) \x7b", .line 1 "while ($d) \x7b", .line 2 "eval($x);", .line 3 "\x7d",
    .line 4 "\x7d"]

theorem loopInBranchLines_nested : preprocessStatements loopInBranchLines =
    [.mk 0 (some "if") "if ($c) \x7b" (some "$c")
      [.mk 1 (some "while") "while ($d) \x7b" (some "$d") [] [] [.line 2 "eval($x);"]] [] []] := by
  rfl

/-- What is in a loop inside a branch is in no block of the graph.
Source: `builder.py`, `_build_subgraph`
Kind: C -/
theorem loop_in_branch_dropped :
    ¬ Faithful getStmtKind (preprocessStatements loopInBranchLines)
      (buildCfg "main" loopInBranchLines) := by
  intro h
  have hreq : Required getStmtKind (preprocessStatements loopInBranchLines)
      (.line 2 "eval($x);") := by
    rw [loopInBranchLines_nested]
    have hbody : NestedList getStmtKind [.line 2 "eval($x);"]
        [.mk 1 (some "while") "while ($d) \x7b" (some "$d") [] [] [.line 2 "eval($x);"]] :=
      .inside List.mem_cons_self List.mem_cons_self (.here _)
    exact ⟨_, .inside List.mem_cons_self List.mem_cons_self hbody, List.mem_cons_self⟩
  have hone := congrArg List.length (h.once _ hreq)
  have hnone : ((placed (buildCfg "main" loopInBranchLines).blocks).filter
      fun x => x.tag = (Stmt.line 2 "eval($x);").tag).length = 0 := by
    decide +kernel
  rw [hnone] at hone
  exact absurd hone (by decide)

end KarsaSec.Cfg
