import KarsaSec.Ssa.Program

/-!
# Faithful graphs

When the graph of a function shows all its control flow.

* `CfgFaithful`: every node that is built stays, every condition, loop and return of the function, however deeply nested, has a
  node of its own, every assignment and call stands in a node, and control goes from a return to the exit only.
* `IRFunction.layout` are the nodes in the order in which they are built (`nodes_buildCfg`).
* `cfgFaithful_iff`: this is so exactly for the functions of form `Flat`: nothing but assignments and calls is nested, no two
  conditions, loops or returns of the body share a line, and nothing follows a return.
-/

namespace KarsaSec.Ssa

open KarsaSec.Found

/-! ## Statements at any depth -/

mutual

/-- A statement and those nested in it, however deeply. Kind: D -/
def statementsIn : IRStatement → List IRStatement
  | .branch line condition thens elses =>
    .branch line condition thens elses :: (allStatements thens ++ allStatements elses)
  | .loop line loopType body => .loop line loopType body :: allStatements body
  | .assignment a => [.assignment a]
  | .call line => [.call line]
  | .ret line value => [.ret line value]
  | .other line => [.other line]

/-- The statements of a list and those nested in them, however deeply. Kind: D -/
def allStatements : List IRStatement → List IRStatement
  | [] => []
  | s :: rest => statementsIn s ++ allStatements rest

end

namespace IRStatement

/-- `isinstance(stmt, (IRAssignment, IRCall))`. Kind: D -/
def isBasic : IRStatement → Bool
  | assignment _ => true
  | call _ => true
  | _ => false

/-- What the node of a condition, loop or return says of it. Kind: D -/
def control? : IRStatement → Option (CFGNodeType × ℤ × String)
  | branch line condition _ _ => some (.condition, line, "If (" ++ condition ++ ")")
  | loop line loopType _ => some (.loop, line, "Loop Header (" ++ loopType ++ ")")
  | ret line value => some (.ret, line, "Return (" ++ value ++ ")")
  | _ => none

/-- What the identifiers of the nodes of a condition, loop or return are made of. Kind: D -/
def anchor? (s : IRStatement) : Option (CFGNodeType × ℤ) := s.control?.map fun c => (c.1, c.2.1)

/-- The statements of the arms or the body. Kind: D -/
def inner : IRStatement → List IRStatement
  | branch _ _ thens elses => thens ++ elses
  | loop _ _ body => body
  | _ => []

end IRStatement

/-- What the node of a condition, loop or return says. Kind: D -/
def CFGNode.control? (n : CFGNode) : Option (CFGNodeType × ℤ × String) :=
  if n.nodeType = .condition ∨ n.nodeType = .loop ∨ n.nodeType = .ret then some (n.nodeType, n.lineNumber, n.label) else none

/-- Behind a return stands nothing that the builder looks at. Kind: D -/
def NoneAfterReturn : List IRStatement → Prop
  | [] => True
  | .ret _ _ :: rest => ∀ s ∈ rest, ∃ line, s = .other line
  | _ :: rest => NoneAfterReturn rest

/-- The form of a function whose graph shows all of it. Kind: D -/
structure IRFunction.Flat (f : IRFunction) : Prop where
  /-- No two conditions, no two loops and no two returns of the body stand on one line. -/
  apart : (f.bodyStatements.filterMap IRStatement.anchor?).Nodup
  /-- In arms and bodies stand no conditions, loops and returns. -/
  inner : ∀ s ∈ f.bodyStatements, ∀ t ∈ s.inner, t.control? = none
  last : NoneAfterReturn f.bodyStatements

/-- The graph of a function is faithful. Source: `analysis/cfg/builder.py`, `build_cfg`. Kind: D -/
structure CfgFaithful (f : IRFunction) : Prop where
  /-- No node that is built takes the identifier of another. -/
  unique : (buildCfg f).nodes.keys.length = f.slots.length
  /-- Every condition, loop and return has its node. -/
  control : ((buildCfg f).nodes.entries.flatMap fun e => e.2.control?.toList).Perm
    ((allStatements f.bodyStatements).flatMap fun s => s.control?.toList)
  /-- Every assignment and call stands in a node. -/
  basic : ((buildCfg f).nodes.entries.flatMap fun e => e.2.statements.filter IRStatement.isBasic).Perm
    ((allStatements f.bodyStatements).filter IRStatement.isBasic)
  /-- Control goes from a return to the exit only. -/
  final : ∀ line b, (buildCfg f).Links (.ret line) b → b = .exit

/-! ## The nodes that are built -/

namespace Piece

/-- The nodes of a piece. Source: `analysis/cfg/builder.py`, `_build_statements_cfg`. Kind: D -/
def layout (idx : ℕ) : Piece → List (Place × CFGNode)
  | block stmts =>
    [(.stmt (firstLine stmts) idx, { nodeType := .statement, lineNumber := firstLine stmts, statements := stmts })]
  | branch line condition thens elses =>
    [(.branch line, { nodeType := .condition, lineNumber := line, label := "If (" ++ condition ++ ")" }),
      (.thenArm line, { nodeType := .statement, lineNumber := line, statements := thens, label := "Then Branch" }),
      (.elseArm line, { nodeType := .statement, lineNumber := line, statements := elses, label := "Else Branch" }),
      (.merge line, { nodeType := .statement, lineNumber := line, label := "Merge" })]
  | loop line loopType body =>
    [(.loop line, { nodeType := .loop, lineNumber := line, label := "Loop Header (" ++ loopType ++ ")" }),
      (.body line, { nodeType := .statement, lineNumber := line, statements := body, label := "Loop Body" }),
      (.loopExit line, { nodeType := .statement, lineNumber := line, label := "Loop Exit" })]
  | ret line value => [(.ret line, { nodeType := .ret, lineNumber := line, label := "Return (" ++ value ++ ")" })]
  | skip => []

end Piece

/-- The nodes of a list of pieces. Kind: D -/
def layoutOf : ℕ → List Piece → List (Place × CFGNode)
  | _, [] => []
  | idx, p :: ps => p.layout (idx + p.length) ++ layoutOf (idx + p.length) ps

/-- The nodes of a function, in the order in which they are built. Kind: D -/
def IRFunction.layout (f : IRFunction) : List (Place × CFGNode) :=
  (.entry, { nodeType := .entry, lineNumber := f.lineNumber, label := "ENTRY" }) ::
    (.exit, { nodeType := .exit, lineNumber := f.lineNumber, label := "EXIT" }) :: layoutOf 0 (pieces f.bodyStatements)

theorem nodes_buildPiece (idx : ℕ) (p : Piece) (prev : Place) (cfg : CFG) :
    (buildPiece idx p prev cfg).1.nodes = (p.layout idx).foldl (fun d e => d.set e.1 e.2) cfg.nodes := by
  cases p <;> rfl

theorem nodes_buildPieces (ps : List Piece) : ∀ (idx : ℕ) (prev : Place) (cfg : CFG),
    (buildPieces idx ps prev cfg).1.nodes = (layoutOf idx ps).foldl (fun d e => d.set e.1 e.2) cfg.nodes := by
  induction ps with
  | nil => exact fun _ _ _ => rfl
  | cons p ps ih =>
    intro idx prev cfg
    rw [layoutOf, List.foldl_append, ← nodes_buildPiece _ _ prev]
    exact ih _ _ _

/-- Of nodes with one identifier the last stays. Source: `analysis/cfg/builder.py`, `build_cfg`. Kind: P -/
theorem nodes_buildCfg (f : IRFunction) : (buildCfg f).nodes = Dict.ofList f.layout := by
  unfold buildCfg
  dsimp only
  split_ifs with hempty
  · unfold IRFunction.layout
    rw [pieces_eq_nil hempty]
    rfl
  all_goals exact nodes_buildPieces (pieces f.bodyStatements) 0 .entry (startCfg f)

theorem slots_eq (idx : ℕ) (p : Piece) : p.slots idx = (p.layout idx).map fun e => (e.1, e.2.statements) := by
  cases p <;> rfl

theorem slotsOf_eq (ps : List Piece) (idx : ℕ) : slotsOf idx ps = (layoutOf idx ps).map fun e => (e.1, e.2.statements) := by
  induction ps generalizing idx with
  | nil => rfl
  | cons p ps ih => rw [slotsOf, layoutOf, List.map_append, slots_eq, ih]

theorem IRFunction.slots_eq_layout (f : IRFunction) : f.slots = f.layout.map fun e => (e.1, e.2.statements) := by
  unfold IRFunction.slots IRFunction.layout
  rw [slotsOf_eq]
  rfl

theorem unique_iff_nodup (f : IRFunction) :
    (buildCfg f).nodes.keys.length = f.slots.length ↔ (f.slots.map Prod.fst).Nodup := by
  have hplaces : f.slots.map Prod.fst = f.layout.map Prod.fst := by
    rw [f.slots_eq_layout, List.map_map]
    rfl
  rw [nodes_buildCfg, hplaces, ← Dict.length_keys_ofList_iff, f.slots_eq_layout, List.length_map]

/-! ## Identifiers -/

section places

/-- The kind and line in the identifier of a condition, loop or return. Kind: D -/
def Place.anchor? : Place → Option (CFGNodeType × ℤ)
  | branch line | thenArm line | elseArm line | merge line => some (.condition, line)
  | loop line | body line | loopExit line => some (.loop, line)
  | ret line => some (.ret, line)
  | entry | exit | stmt _ _ => none

namespace Piece

/-- What the node of a piece says. Kind: D -/
def control? : Piece → Option (CFGNodeType × ℤ × String)
  | branch line condition _ _ => some (.condition, line, "If (" ++ condition ++ ")")
  | loop line loopType _ => some (.loop, line, "Loop Header (" ++ loopType ++ ")")
  | ret line value => some (.ret, line, "Return (" ++ value ++ ")")
  | block _ | skip => none

/-- The kind and line of a piece. Kind: D -/
def anchor? (p : Piece) : Option (CFGNodeType × ℤ) := p.control?.map fun c => (c.1, c.2.1)

/-- The places of a piece. Kind: D -/
def places (idx : ℕ) (p : Piece) : List Place := (p.slots idx).map Prod.fst

theorem nodup_places (idx : ℕ) (p : Piece) : (p.places idx).Nodup := by
  cases p <;> simp [places, slots]

/-- The places of a condition, loop or return are all those with its kind and line. Kind: L -/
theorem mem_places_iff {idx : ℕ} {p : Piece} {a : CFGNodeType × ℤ} (h : p.anchor? = some a) {place : Place} :
    place ∈ p.places idx ↔ place.anchor? = some a := by
  cases p with
  | block | skip => cases h
  | branch | loop | ret =>
    obtain rfl := Option.some.inj h
    simp only [places, slots, List.map_cons, List.map_nil, List.mem_cons, List.not_mem_nil, or_false]
    cases place <;> simp [Place.anchor?, eq_comm]

theorem exists_mem_places (idx : ℕ) {p : Piece} {a : CFGNodeType × ℤ} (h : p.anchor? = some a) :
    ∃ place, place ∈ p.places idx := by
  cases p with
  | block | skip => cases h
  | branch | loop | ret => exact ⟨_, List.mem_cons_self⟩

/-- The place of a block has its index; a piece that is skipped has none. Kind: L -/
theorem places_of_none {idx : ℕ} {p : Piece} (h : p.anchor? = none) {place : Place} (hplace : place ∈ p.places idx) :
    ∃ line, place = .stmt line idx := by
  cases p with
  | block stmts => exact ⟨_, List.mem_singleton.mp hplace⟩
  | skip => cases hplace
  | branch | loop | ret => cases h

theorem pos_of_mem_pushBasic {s : IRStatement} {ps : List Piece} (h : ∀ p ∈ ps, 0 < p.length) :
    ∀ p ∈ pushBasic s ps, 0 < p.length := by
  rcases ps with _ | ⟨q, ps⟩
  · intro p hp
    rw [List.mem_singleton.mp hp]
    exact Nat.one_pos
  · have hrest : ∀ p ∈ ps, 0 < p.length := fun p hp => h p (List.mem_cons_of_mem _ hp)
    cases q with
    | block stmts => exact List.forall_mem_cons.mpr ⟨Nat.succ_pos _, hrest⟩
    | branch | loop | ret | skip =>
      exact List.forall_mem_cons.mpr ⟨Nat.one_pos, List.forall_mem_cons.mpr ⟨Nat.one_pos, hrest⟩⟩

theorem filterMap_pushBasic {β : Type} {g : Piece → Option β} (hg : ∀ stmts, g (block stmts) = none) (s : IRStatement)
    (ps : List Piece) : (pushBasic s ps).filterMap g = ps.filterMap g := by
  rcases ps with _ | ⟨q, ps⟩
  · exact List.filterMap_cons_none (hg _)
  · cases q with
    | block stmts => exact (List.filterMap_cons_none (hg _)).trans (List.filterMap_cons_none (hg _)).symm
    | branch | loop | ret | skip => exact List.filterMap_cons_none (hg _)

end Piece

theorem pos_of_mem_pieces (stmts : List IRStatement) : ∀ p ∈ pieces stmts, 0 < p.length := by
  induction stmts with
  | nil => exact fun p hp => absurd hp List.not_mem_nil
  | cons s stmts ih =>
    cases s with
    | assignment | call => exact Piece.pos_of_mem_pushBasic ih
    | branch | loop | ret | other => exact List.forall_mem_cons.mpr ⟨Nat.one_pos, ih⟩

/-- The pieces have the conditions, loops and returns of the list. Kind: L -/
theorem control_pieces (stmts : List IRStatement) :
    (pieces stmts).filterMap Piece.control? = stmts.filterMap IRStatement.control? := by
  induction stmts with
  | nil => rfl
  | cons s stmts ih =>
    cases s with
    | assignment | call => exact (Piece.filterMap_pushBasic (fun _ => rfl) _ _).trans ih
    | branch | loop | ret => exact congrArg (List.cons _) ih
    | other => exact ih

theorem anchor_pieces (stmts : List IRStatement) :
    (pieces stmts).filterMap Piece.anchor? = stmts.filterMap IRStatement.anchor? := by
  have h := congrArg (List.map fun c : CFGNodeType × ℤ × String => (c.1, c.2.1)) (control_pieces stmts)
  rw [List.map_filterMap, List.map_filterMap] at h
  exact h

theorem places_slotsOf_cons (idx : ℕ) (p : Piece) (ps : List Piece) : (slotsOf idx (p :: ps)).map Prod.fst =
    p.places (idx + p.length) ++ (slotsOf (idx + p.length) ps).map Prod.fst := List.map_append

/-- The identifiers of the pieces have their kinds and lines, and those of blocks an index behind the start. Kind: L -/
theorem mem_places_slotsOf {ps : List Piece} {idx : ℕ} (hpos : ∀ p ∈ ps, 0 < p.length) {place : Place}
    (h : place ∈ (slotsOf idx ps).map Prod.fst) :
    (∃ a ∈ ps.filterMap Piece.anchor?, place.anchor? = some a) ∨ ∃ line j, place = .stmt line j ∧ idx < j := by
  induction ps generalizing idx with
  | nil => cases h
  | cons p ps ih =>
    have hlength := hpos p List.mem_cons_self
    rw [places_slotsOf_cons] at h
    rcases List.mem_append.mp h with h | h
    · rcases ha : p.anchor? with _ | a
      · grind [Piece.places_of_none]
      · grind [Piece.mem_places_iff]
    · grind

theorem mem_slotsOf_of_anchor {ps : List Piece} {idx : ℕ} {a : CFGNodeType × ℤ} (ha : a ∈ ps.filterMap Piece.anchor?)
    {place : Place} (h : place.anchor? = some a) : place ∈ (slotsOf idx ps).map Prod.fst := by
  induction ps generalizing idx with
  | nil => cases ha
  | cons p ps ih =>
    rw [places_slotsOf_cons, List.mem_append]
    obtain ⟨q, hq, hqa⟩ := List.mem_filterMap.mp ha
    rcases List.mem_cons.mp hq with rfl | hq
    · exact .inl ((Piece.mem_places_iff hqa).mpr h)
    · exact .inr (ih (List.mem_filterMap.mpr ⟨q, hq, hqa⟩))

/-- **Identifiers are shared exactly by conditions, loops or returns on one line.** Kind: L -/
theorem nodup_slotsOf_iff {ps : List Piece} (idx : ℕ) (hpos : ∀ p ∈ ps, 0 < p.length) :
    ((slotsOf idx ps).map Prod.fst).Nodup ↔ (ps.filterMap Piece.anchor?).Nodup := by
  induction ps generalizing idx with
  | nil => exact iff_of_true List.nodup_nil List.nodup_nil
  | cons p ps ih =>
    have hrest : ∀ q ∈ ps, 0 < q.length := fun q hq => hpos q (List.mem_cons_of_mem _ hq)
    rw [places_slotsOf_cons, List.nodup_append, ih _ hrest]
    rcases ha : p.anchor? with _ | a
    · rw [List.filterMap_cons_none ha]
      refine ⟨fun h => h.2.1, fun h => ⟨p.nodup_places _, h, ?_⟩⟩
      rintro place hp _ hq rfl
      obtain ⟨line, rfl⟩ := Piece.places_of_none ha hp
      rcases mem_places_slotsOf hrest hq with ⟨b, -, hb⟩ | ⟨line', j, heq, hlt⟩
      · cases hb
      · exact hlt.ne (Place.stmt.inj heq).2
    · rw [List.filterMap_cons_some ha, List.nodup_cons]
      constructor
      · rintro ⟨-, hnodup, hdisjoint⟩
        refine ⟨fun hmem => ?_, hnodup⟩
        obtain ⟨place, hplace⟩ := p.exists_mem_places (idx + p.length) ha
        exact hdisjoint place hplace place (mem_slotsOf_of_anchor hmem ((Piece.mem_places_iff ha).mp hplace)) rfl
      · rintro ⟨hnew, hnodup⟩
        refine ⟨p.nodup_places _, hnodup, ?_⟩
        rintro place hp _ hq rfl
        have hanchor := (Piece.mem_places_iff ha).mp hp
        rcases mem_places_slotsOf hrest hq with ⟨b, hb, hplace⟩ | ⟨line, j, rfl, -⟩
        · grind
        · cases hanchor

/-- No node takes the identifier of another exactly when the conditions, loops and returns of the body stand apart.
Source: `analysis/cfg/builder.py`, `if_id`, `loop_id`, `ret_id`
Kind: P -/
theorem unique_iff (f : IRFunction) : (buildCfg f).nodes.keys.length = f.slots.length ↔
    (f.bodyStatements.filterMap IRStatement.anchor?).Nodup := by
  have hpos := pos_of_mem_pieces f.bodyStatements
  rw [unique_iff_nodup, ← anchor_pieces, ← nodup_slotsOf_iff 0 hpos]
  have hends : f.slots.map Prod.fst = [.entry, .exit] ++ (slotsOf 0 (pieces f.bodyStatements)).map Prod.fst := rfl
  rw [hends, List.nodup_append]
  refine ⟨fun h => h.2.1, fun h => ⟨by decide, h, ?_⟩⟩
  rintro place hplace _ hq rfl
  rcases mem_places_slotsOf hpos hq with ⟨a, -, ha⟩ | ⟨line, j, rfl, -⟩
  · rcases List.mem_cons.mp hplace with rfl | hplace
    · cases ha
    · rw [List.mem_singleton.mp hplace] at ha
      cases ha
  · simp at hplace

end places

/-! ## Returns -/

section returns

/-- Behind a return stand only pieces that are skipped. Kind: D -/
def SkipsAfterReturn : List Piece → Prop
  | [] => True
  | .ret _ _ :: ps => ∀ p ∈ ps, p = .skip
  | _ :: ps => SkipsAfterReturn ps

theorem skipsAfterReturn_of_skips {ps : List Piece} (h : ∀ p ∈ ps, p = .skip) : SkipsAfterReturn ps := by
  induction ps with
  | nil => trivial
  | cons p ps ih =>
    obtain ⟨rfl, hps⟩ := List.forall_mem_cons.mp h
    exact ih hps

theorem skipsAfterReturn_pushBasic (s : IRStatement) (ps : List Piece) :
    SkipsAfterReturn (Piece.pushBasic s ps) ↔ SkipsAfterReturn ps := by
  rcases ps with _ | ⟨p, ps⟩
  · exact Iff.rfl
  · cases p <;> exact Iff.rfl

theorem not_skips_pushBasic (s : IRStatement) (ps : List Piece) : ¬∀ p ∈ Piece.pushBasic s ps, p = .skip := by
  intro h
  rcases ps with _ | ⟨p, ps⟩
  · cases h _ List.mem_cons_self
  · cases p <;> cases h _ List.mem_cons_self

theorem skips_pieces_iff (stmts : List IRStatement) :
    (∀ p ∈ pieces stmts, p = .skip) ↔ ∀ s ∈ stmts, ∃ line, s = .other line := by
  induction stmts with
  | nil => exact iff_of_true (fun p hp => absurd hp List.not_mem_nil) fun s hs => absurd hs List.not_mem_nil
  | cons s stmts ih =>
    rw [List.forall_mem_cons]
    cases s with
    | assignment | call =>
      exact iff_of_false (not_skips_pushBasic _ _) fun h => h.1.elim fun _ => IRStatement.noConfusion
    | branch | loop | ret =>
      rw [pieces, List.forall_mem_cons]
      exact iff_of_false (fun h => Piece.noConfusion h.1) fun h => h.1.elim fun _ => IRStatement.noConfusion
    | other line =>
      rw [pieces, List.forall_mem_cons, ih]
      exact and_congr (iff_of_true rfl ⟨line, rfl⟩) Iff.rfl

theorem skipsAfterReturn_pieces_iff (stmts : List IRStatement) : SkipsAfterReturn (pieces stmts) ↔ NoneAfterReturn stmts := by
  induction stmts with
  | nil => exact Iff.rfl
  | cons s stmts ih =>
    cases s with
    | assignment | call => exact (skipsAfterReturn_pushBasic _ _).trans ih
    | branch | loop | other => exact ih
    | ret => exact skips_pieces_iff stmts

/-- Among some links, those from a return lead to the exit. Kind: D -/
def EndsAtReturn (links : List (Place × Place)) : Prop := ∀ line b, (.ret line, b) ∈ links → b = .exit

theorem endsAtReturn_append {l l' : List (Place × Place)} : EndsAtReturn (l ++ l') ↔ EndsAtReturn l ∧ EndsAtReturn l' := by
  unfold EndsAtReturn
  simp only [List.mem_append, or_imp, forall_and]

theorem endsAtReturn_cons {prev place : Place} {links : List (Place × Place)} (hplace : place ≠ .exit)
    (hlinks : EndsAtReturn links) : EndsAtReturn ((prev, place) :: links) ↔ ∀ line, prev ≠ .ret line := by
  constructor
  · rintro h line rfl
    exact hplace (h line place List.mem_cons_self)
  · intro hprev line b hb
    rcases List.mem_cons.mp hb with heq | hb
    · exact absurd (Prod.mk.inj heq).1.symm (hprev line)
    · exact hlinks line b hb

/-- A piece that is not skipped goes on from where control was. Kind: L -/
theorem endsAtReturn_flow {p : Piece} (h : p ≠ .skip) (idx : ℕ) (prev : Place) :
    EndsAtReturn (p.flow idx prev) ↔ ∀ line, prev ≠ .ret line := by
  cases p with
  | skip => exact absurd rfl h
  | block => exact endsAtReturn_cons Place.noConfusion fun line b hb => absurd hb List.not_mem_nil
  | branch => exact endsAtReturn_cons Place.noConfusion fun line b hb => by simp at hb
  | loop => exact endsAtReturn_cons Place.noConfusion fun line b hb => by simp at hb
  | ret =>
    refine endsAtReturn_cons Place.noConfusion fun line b hb => ?_
    exact (Prod.mk.inj (List.mem_singleton.mp hb)).2

/-- Control goes on behind a return exactly where something stands there. Kind: L -/
theorem endsAtReturn_flowOf_iff (ps : List Piece) (idx : ℕ) (prev : Place) : EndsAtReturn (flowOf idx ps prev) ↔
    SkipsAfterReturn ps ∧ ∀ line, prev = .ret line → ∀ p ∈ ps, p = .skip := by
  induction ps generalizing idx prev with
  | nil =>
    refine iff_of_true (fun line b hb => ?_) ⟨trivial, fun _ _ p hp => absurd hp List.not_mem_nil⟩
    exact (Prod.mk.inj (List.mem_singleton.mp hb)).2
  | cons p ps ih =>
    rw [flowOf, endsAtReturn_append, ih]
    by_cases hskip : p = .skip
    · subst hskip
      constructor
      · rintro ⟨-, hps, hprev⟩
        exact ⟨hps, fun line heq => List.forall_mem_cons.mpr ⟨rfl, hprev line heq⟩⟩
      · rintro ⟨hps, hprev⟩
        exact ⟨fun _ _ hb => absurd hb List.not_mem_nil, hps, fun line heq => (List.forall_mem_cons.mp (hprev line heq)).2⟩
    rw [endsAtReturn_flow hskip]
    have hnot : (∀ line, prev ≠ .ret line) ↔ ∀ line, prev = .ret line → ∀ q ∈ p :: ps, q = .skip :=
      forall_congr' fun line => ⟨fun h heq => absurd heq h, fun h heq => hskip (h heq p List.mem_cons_self)⟩
    rw [hnot, and_comm, and_congr_left_iff]
    intro _
    cases p with
    | skip => exact absurd rfl hskip
    | ret line value =>
      exact ⟨fun h => h.2 line rfl, fun h => ⟨skipsAfterReturn_of_skips h, fun _ _ => h⟩⟩
    | block | branch | loop => exact ⟨fun h => h.1, fun h => ⟨h, fun _ => Place.noConfusion⟩⟩

/-- Control goes from returns to the exit only exactly when nothing stands behind a return.
Source: `analysis/cfg/builder.py`, `_build_statements_cfg`
Kind: P -/
theorem final_iff (f : IRFunction) :
    (∀ line b, (buildCfg f).Links (.ret line) b → b = .exit) ↔ NoneAfterReturn f.bodyStatements := by
  simp only [links_buildCfg]
  rw [← skipsAfterReturn_pieces_iff]
  have hflow := endsAtReturn_flowOf_iff (pieces f.bodyStatements) 0 .entry
  exact hflow.trans (and_iff_left fun _ => Place.noConfusion)

end returns

/-! ## Controls -/

section controls

theorem allStatements_eq (stmts : List IRStatement) : allStatements stmts = stmts.flatMap statementsIn := by
  induction stmts with
  | nil => rfl
  | cons s stmts ih => rw [allStatements, ih, List.flatMap_cons]

theorem statementsIn_eq (s : IRStatement) : statementsIn s = s :: allStatements s.inner := by
  cases s with
  | branch line condition thens elses =>
    rw [statementsIn, IRStatement.inner, allStatements_eq, allStatements_eq, allStatements_eq, List.flatMap_append]
  | loop => rw [statementsIn, IRStatement.inner]
  | assignment | call | ret | other =>
    rw [statementsIn]
    rfl

theorem inner_of_none {s : IRStatement} (h : s.control? = none) : s.inner = [] := by
  cases s with
  | branch | loop => cases h
  | assignment | call | ret | other => rfl

/-- A list without conditions, loops and returns has nothing nested. Kind: L -/
theorem allStatements_of_none {stmts : List IRStatement} (h : ∀ s ∈ stmts, s.control? = none) : allStatements stmts = stmts := by
  induction stmts with
  | nil => rfl
  | cons s stmts ih =>
    obtain ⟨hs, hrest⟩ := List.forall_mem_cons.mp h
    rw [allStatements, statementsIn_eq, inner_of_none hs, ih hrest]
    rfl

theorem mem_allStatements {stmts : List IRStatement} {s : IRStatement} (h : s ∈ stmts) : s ∈ allStatements stmts := by
  grind [allStatements_eq, statementsIn_eq]

/-- What the node of a statement says, as a list. Kind: D -/
def saidBy (s : IRStatement) : List (CFGNodeType × ℤ × String) := s.control?.toList

theorem flatMap_saidBy_statementsIn (s : IRStatement) :
    (statementsIn s).flatMap saidBy = saidBy s ++ (allStatements s.inner).flatMap saidBy := by
  rw [statementsIn_eq, List.flatMap_cons]

/-- Nothing but what a statement says is said exactly when it nests no condition, loop or return. Kind: L -/
theorem saidBy_eq_iff (s : IRStatement) :
    saidBy s = (statementsIn s).flatMap saidBy ↔ ∀ t ∈ s.inner, t.control? = none := by
  rw [flatMap_saidBy_statementsIn, List.self_eq_append_right]
  constructor
  · intro h t ht
    exact Option.toList_eq_nil_iff.mp (List.flatMap_eq_nil_iff.mp h t (mem_allStatements ht))
  · intro h
    rw [allStatements_of_none h]
    exact List.flatMap_eq_nil_iff.mpr fun t ht => Option.toList_eq_nil_iff.mpr (h t ht)

/-- What the nodes say that are built. Kind: L -/
theorem flatMap_layoutOf (ps : List Piece) (idx : ℕ) :
    ((layoutOf idx ps).flatMap fun e => e.2.control?.toList) = ps.flatMap fun p => p.control?.toList := by
  induction ps generalizing idx with
  | nil => rfl
  | cons p ps ih =>
    rw [layoutOf, List.flatMap_append, ih, List.flatMap_cons]
    congr 1
    cases p <;> rfl

theorem flatMap_layout (f : IRFunction) :
    (f.layout.flatMap fun e => e.2.control?.toList) = f.bodyStatements.flatMap saidBy := by
  have hpieces : (pieces f.bodyStatements).flatMap (fun p => p.control?.toList) = f.bodyStatements.flatMap saidBy := by
    have h := control_pieces f.bodyStatements
    rw [List.filterMap_eq_flatMap_toList, List.filterMap_eq_flatMap_toList] at h
    exact h
  rw [← hpieces, ← flatMap_layoutOf _ 0]
  rfl

/-- Every condition, loop and return has a node only if none is nested. Kind: L -/
theorem inner_of_control {f : IRFunction} (h : ((buildCfg f).nodes.entries.flatMap fun e => e.2.control?.toList).Perm
    ((allStatements f.bodyStatements).flatMap saidBy)) : ∀ s ∈ f.bodyStatements, ∀ t ∈ s.inner, t.control? = none := by
  have hbuilt := (Dict.flatMap_ofList_subperm (fun n : CFGNode => n.control?.toList) f.layout).length_le
  rw [← nodes_buildCfg, h.length_eq, flatMap_layout, allStatements_eq, List.flatMap_assoc] at hbuilt
  have hpart : ∀ s : IRStatement, (saidBy s).Sublist ((statementsIn s).flatMap saidBy) := fun s => by
    rw [flatMap_saidBy_statementsIn]
    exact List.sublist_append_left _ _
  exact fun s hs => (saidBy_eq_iff s).mp (eq_of_length_flatMap_le hpart hbuilt s hs)

theorem control_of_flat {f : IRFunction} (hnodes : (buildCfg f).nodes.entries = f.layout)
    (hinner : ∀ s ∈ f.bodyStatements, ∀ t ∈ s.inner, t.control? = none) :
    ((buildCfg f).nodes.entries.flatMap fun e => e.2.control?.toList) = (allStatements f.bodyStatements).flatMap saidBy := by
  rw [hnodes, flatMap_layout, allStatements_eq, List.flatMap_assoc]
  exact List.flatMap_congr fun s hs => (saidBy_eq_iff s).mpr (hinner s hs)

end controls

/-! ## Assignments and calls -/

section basics

/-- The statements that a piece holds. Kind: D -/
def Piece.held : Piece → List IRStatement
  | block stmts => stmts
  | branch _ _ thens elses => thens ++ elses
  | loop _ _ body => body
  | ret _ _ => []
  | skip => []

theorem held_pushBasic (s : IRStatement) (ps : List Piece) :
    (Piece.pushBasic s ps).flatMap Piece.held = s :: ps.flatMap Piece.held := by
  rcases ps with _ | ⟨p, ps⟩
  · rfl
  · cases p <;> rfl

theorem flatMap_held (ps : List Piece) (idx : ℕ) :
    ((layoutOf idx ps).flatMap fun e => e.2.statements) = ps.flatMap Piece.held := by
  induction ps generalizing idx with
  | nil => rfl
  | cons p ps ih =>
    rw [layoutOf, List.flatMap_append, ih, List.flatMap_cons]
    congr 1
    cases p <;> simp [Piece.layout, Piece.held]

/-- Where nothing but assignments and calls is nested, the pieces hold them all. Kind: L -/
theorem filter_held {stmts : List IRStatement} (h : ∀ s ∈ stmts, ∀ t ∈ s.inner, t.control? = none) :
    ((pieces stmts).flatMap Piece.held).filter IRStatement.isBasic = (allStatements stmts).filter IRStatement.isBasic := by
  induction stmts with
  | nil => rfl
  | cons s stmts ih =>
    obtain ⟨hs, hrest⟩ := List.forall_mem_cons.mp h
    rw [allStatements, statementsIn_eq, allStatements_of_none hs, List.filter_append, ← ih hrest]
    cases s with
    | assignment | call =>
      rw [pieces, held_pushBasic]
      rfl
    | branch | loop | ret | other =>
      rw [pieces, List.flatMap_cons, List.filter_append]
      rfl

theorem basic_of_flat {f : IRFunction} (hnodes : (buildCfg f).nodes.entries = f.layout)
    (hinner : ∀ s ∈ f.bodyStatements, ∀ t ∈ s.inner, t.control? = none) :
    ((buildCfg f).nodes.entries.flatMap fun e => e.2.statements.filter IRStatement.isBasic) =
      (allStatements f.bodyStatements).filter IRStatement.isBasic := by
  rw [hnodes, ← filter_held hinner, ← flatMap_held _ 0, List.filter_flatMap]
  rfl

end basics

/-- **A graph is faithful exactly for the functions that nest only assignments and calls, have their conditions, loops and
returns on lines of their own, and end with a return.**
Source: `analysis/cfg/builder.py`, `CFGBuilder.build_cfg`
Kind: P -/
theorem cfgFaithful_iff (f : IRFunction) : CfgFaithful f ↔ f.Flat := by
  constructor
  · intro h
    exact ⟨(unique_iff f).mp h.unique, inner_of_control h.control, (final_iff f).mp h.final⟩
  · intro h
    have hunique := (unique_iff f).mpr h.apart
    have hnodes : (buildCfg f).nodes.entries = f.layout := by
      have hnodup := (unique_iff_nodup f).mp hunique
      rw [f.slots_eq_layout, List.map_map] at hnodup
      rw [nodes_buildCfg, Dict.entries_ofList hnodup]
    exact ⟨hunique, .of_eq (control_of_flat hnodes h.inner), .of_eq (basic_of_flat hnodes h.inner), (final_iff f).mpr h.last⟩

/-- A condition within an arm, and a call behind a return. Kind: D -/
def nestedCondition : IRFunction where
  id := "f"
  lineNumber := 1
  filePath := "a.php"
  name := "f"
  bodyStatements := [.branch 2 "$a" [.branch 3 "$b" [.call 4] []] [], .ret 5 "$x", .call 6]

/-- The inner condition has no node, and control goes on behind the return. Kind: C -/
theorem inner_condition_lost : ¬CfgFaithful nestedCondition ∧
    (∀ line, (buildCfg nestedCondition).nodes.get? (.branch line) ≠ none → line = 2) ∧
      (buildCfg nestedCondition).Links (.ret 5) (.stmt 6 3) := by
  refine ⟨fun h => ?_, fun line hline => ?_, ?_⟩
  · have hlast := (final_iff nestedCondition).mp h.final (.call 6) (List.mem_singleton.mpr rfl)
    obtain ⟨line, hother⟩ := hlast
    cases hother
  · by_contra hne
    refine hline (Dict.get?_eq_none.mpr ?_)
    have hkeys : (buildCfg nestedCondition).nodes.keys =
        [.entry, .exit, .branch 2, .thenArm 2, .elseArm 2, .merge 2, .ret 5, .stmt 6 3] := rfl
    rw [hkeys]
    simp [hne]
  · rw [links_buildCfg]
    show (Place.ret 5, Place.stmt 6 3) ∈ nestedCondition.flow
    decide

end KarsaSec.Ssa
