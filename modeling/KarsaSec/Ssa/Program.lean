import KarsaSec.Found.Overwriting
import KarsaSec.Ssa.Reaching

/-!
# The form of a function

What the graph of a function holds, and where it leads, read off the statements: `IRFunction.slots` are the lists of statements
with their places, `IRFunction.flow` the links between the places (`contents_buildCfg`, `links_buildCfg`).

`ssaSound_iff`: the single assignment form covers the definitions that reach, defines each version once and has a node for every
assignment if and only if no assignment is nested or overwritten (`Kept`) and what reaches a use is the last assignment before
it in the text (`InOrder`).
-/

namespace KarsaSec.Ssa

open KarsaSec.Found

/-! ## The places of a function -/

namespace Piece

/-- The lists of statements that a piece holds. Kind: D -/
def slots (idx : ℕ) : Piece → List (Place × List IRStatement)
  | block stmts => [(.stmt (firstLine stmts) idx, stmts)]
  | branch line _ thens elses => [(.branch line, []), (.thenArm line, thens), (.elseArm line, elses), (.merge line, [])]
  | loop line _ body => [(.loop line, []), (.body line, body), (.loopExit line, [])]
  | ret line _ => [(.ret line, [])]
  | skip => []

/-- Where control is behind a piece. Kind: D -/
def tail (idx : ℕ) (prev : Place) : Piece → Place
  | block stmts => .stmt (firstLine stmts) idx
  | branch line _ _ _ => .merge line
  | loop line _ _ => .loopExit line
  | ret line _ => .ret line
  | skip => prev

/-- Where control goes in a piece. Kind: D -/
def flow (idx : ℕ) (prev : Place) : Piece → List (Place × Place)
  | block stmts => [(prev, .stmt (firstLine stmts) idx)]
  | branch line _ _ _ =>
    [(prev, .branch line), (.branch line, .thenArm line), (.branch line, .elseArm line), (.thenArm line, .merge line),
      (.elseArm line, .merge line)]
  | loop line _ _ => [(prev, .loop line), (.loop line, .body line), (.body line, .loop line), (.loop line, .loopExit line)]
  | ret line _ => [(prev, .ret line), (.ret line, .exit)]
  | skip => []

/-- The assignments of a piece, however deeply nested. Kind: D -/
def assignments : Piece → List IRAssignment
  | block stmts => allAssignments stmts
  | branch _ _ thens elses => allAssignments thens ++ allAssignments elses
  | loop _ _ body => allAssignments body
  | ret _ _ => []
  | skip => []

end Piece

/-- The lists of statements of a list of pieces. Kind: D -/
def slotsOf : ℕ → List Piece → List (Place × List IRStatement)
  | _, [] => []
  | idx, p :: ps => p.slots (idx + p.length) ++ slotsOf (idx + p.length) ps

/-- Where control goes in a list of pieces, and in the end to the exit. Kind: D -/
def flowOf : ℕ → List Piece → Place → List (Place × Place)
  | _, [], prev => [(prev, .exit)]
  | idx, p :: ps, prev => p.flow (idx + p.length) prev ++ flowOf (idx + p.length) ps (p.tail (idx + p.length) prev)

namespace IRFunction

/-- The lists of statements of a function, in the order of the text: the blocks, the arms and the bodies. Kind: D -/
def slots (f : IRFunction) : List (Place × List IRStatement) :=
  (.entry, []) :: (.exit, []) :: slotsOf 0 (pieces f.bodyStatements)

/-- Where control goes in a function. Kind: D -/
def flow (f : IRFunction) : List (Place × Place) := flowOf 0 (pieces f.bodyStatements) .entry

/-- Control goes from a place to another. Kind: D -/
def Leads (f : IRFunction) (a b : Place) : Prop := (a, b) ∈ f.flow

/-- A place assigns a variable. Kind: D -/
def Assigns (f : IRFunction) (v : String) (place : Place) : Prop :=
  ∃ s ∈ f.slots, s.1 = place ∧ ∃ a ∈ directAssignments s.2, a.target = v

/-- No assignment is nested deeper than in an arm or a body, or stands at a place that is used again. Kind: D -/
structure Kept (f : IRFunction) : Prop where
  flat : ∀ s ∈ f.slots, ∀ stmt ∈ s.2, stmt.assignment? = none → assignmentsIn stmt = []
  unshared : LastHolds directAssignments f.slots

/-- Where an expression reads a variable that its list has not assigned before, all assignments that arrive stand in the last
place before it that assigns the variable.
Kind: D -/
def InOrder (reads : IRAssignment → String → Prop) (f : IRFunction) : Prop :=
  ∀ s ∈ f.slots, ∀ before a after v, directAssignments s.2 = before ++ a :: after → reads a v →
    (∀ b ∈ before, b.target ≠ v) → FromLast f.Leads (f.Assigns v) (f.slots.map Prod.fst) s.1

end IRFunction

/-! ## Soundness of the form -/

/-- What tells an assignment: its identifier, line and target. Kind: D -/
def IRAssignment.key (a : IRAssignment) : String × ℤ × String := (a.id, a.lineNumber, a.target)

/-- What a node says of its assignment. Kind: D -/
def SSANode.key (n : SSANode) : String × ℤ × String := (n.id, n.lineNumber, n.target.baseName)

/-- The form of a function covers the definitions that reach, has one node for each version, and a node of its own for every
assignment.
Source: `analysis/ssa/builder.py`, docstring of `SSABuilder`
Kind: D -/
structure SsaSound (reads : IRAssignment → String → Prop) (f : IRFunction) : Prop where
  covers : CoversReaching reads (buildCfg f)
  single : ∀ w, (buildSsa (buildCfg f)).Named w → ((buildSsa (buildCfg f)).nodes.filter fun n => n.target = w).length = 1
  all : ((allAssignments f.bodyStatements).map IRAssignment.key).Subperm
    (((buildSsa (buildCfg f)).nodes.filter fun n => n.phiNode.isNone).map SSANode.key)

/-! ## What the graph holds -/

section graph

/-- What the nodes of a graph hold. Kind: D -/
def CFG.contents (cfg : CFG) : Dict Place (List IRStatement) := cfg.nodes.mapValues CFGNode.statements

/-- The ends of the edges. Kind: D -/
def CFG.ends (cfg : CFG) : List (Place × Place) := cfg.edges.map fun e => (e.sourceId, e.targetId)

theorem CFG.contents_addNode (cfg : CFG) (place : Place) (node : CFGNode) :
    (cfg.addNode place node).contents = cfg.contents.set place node.statements := Dict.mapValues_set _ _ _ _

@[simp] theorem CFG.contents_addEdge (cfg : CFG) (a b : Place) (t : CFGEdgeType) (c : String) :
    (cfg.addEdge a b t c).contents = cfg.contents := rfl

@[simp] theorem CFG.ends_addNode (cfg : CFG) (place : Place) (node : CFGNode) : (cfg.addNode place node).ends = cfg.ends := rfl

theorem CFG.ends_addEdge (cfg : CFG) (a b : Place) (t : CFGEdgeType) (c : String) :
    (cfg.addEdge a b t c).ends = cfg.ends ++ [(a, b)] := List.map_append

theorem buildPiece_spec (idx : ℕ) (p : Piece) (prev : Place) (cfg : CFG) :
    (buildPiece idx p prev cfg).2 = p.tail idx prev ∧
      (buildPiece idx p prev cfg).1.contents = (p.slots idx).foldl (fun d s => d.set s.1 s.2) cfg.contents ∧
      (buildPiece idx p prev cfg).1.ends = cfg.ends ++ p.flow idx prev := by
  cases p with
  | block | branch | loop | ret =>
    refine ⟨rfl, ?_, ?_⟩
    · simp only [buildPiece, CFG.contents_addEdge, CFG.contents_addNode]
      rfl
    · simp only [buildPiece, CFG.ends_addEdge, CFG.ends_addNode, List.append_assoc]
      rfl
  | skip => exact ⟨rfl, rfl, (List.append_nil _).symm⟩

theorem buildPieces_spec (ps : List Piece) : ∀ (idx : ℕ) (prev : Place) (cfg : CFG), prev ≠ .exit →
    (buildPieces idx ps prev cfg).2 ≠ .exit ∧
      (buildPieces idx ps prev cfg).1.contents = (slotsOf idx ps).foldl (fun d s => d.set s.1 s.2) cfg.contents ∧
      (buildPieces idx ps prev cfg).1.ends ++ [((buildPieces idx ps prev cfg).2, .exit)] = cfg.ends ++ flowOf idx ps prev := by
  induction ps with
  | nil => exact fun idx prev cfg hprev => ⟨hprev, rfl, rfl⟩
  | cons p ps ih =>
    intro idx prev cfg hprev
    obtain ⟨htail, hcontents, hends⟩ := buildPiece_spec (idx + p.length) p prev cfg
    have hnext : (buildPiece (idx + p.length) p prev cfg).2 ≠ .exit := by
      rw [htail]
      cases p with
      | block | branch | loop | ret => exact fun h => by cases h
      | skip => exact hprev
    obtain ⟨hlast, hslots, hflow⟩ := ih (idx + p.length) _ (buildPiece (idx + p.length) p prev cfg).1 hnext
    refine ⟨hlast, ?_, ?_⟩
    · rw [slotsOf, List.foldl_append, ← hcontents]
      exact hslots
    · rw [flowOf, ← List.append_assoc, ← hends, ← htail]
      exact hflow

theorem pieces_eq_nil {stmts : List IRStatement} (h : stmts.isEmpty) : pieces stmts = [] := by
  rw [List.isEmpty_iff.mp h]
  rfl

/-- The nodes hold what the slots do; of slots with one place the last. Source: `analysis/cfg/builder.py`, `build_cfg`. Kind: P -/
theorem contents_buildCfg (f : IRFunction) : (buildCfg f).contents = Dict.ofList f.slots := by
  have hstart : (startCfg f).contents = Dict.ofList [(.entry, []), (.exit, [])] := rfl
  unfold buildCfg
  dsimp only
  split_ifs with hempty
  · unfold IRFunction.slots
    rw [pieces_eq_nil hempty]
    rfl
  all_goals
    have hslots := (buildPieces_spec (pieces f.bodyStatements) 0 .entry (startCfg f) (fun h => by cases h)).2.1
    exact hslots

theorem CFG.links_iff {cfg : CFG} {a b : Place} : cfg.Links a b ↔ (a, b) ∈ cfg.ends := by simp [CFG.Links, CFG.ends]

/-- The edges are the links. Source: `analysis/cfg/builder.py`, `build_cfg`. Kind: P -/
theorem links_buildCfg (f : IRFunction) (a b : Place) : (buildCfg f).Links a b ↔ f.Leads a b := by
  rw [CFG.links_iff]
  unfold IRFunction.Leads IRFunction.flow buildCfg
  dsimp only
  split_ifs with hempty hlinked
  · rw [pieces_eq_nil hempty]
    exact Iff.rfl
  all_goals
    obtain ⟨hlast, -, hflow⟩ := buildPieces_spec (pieces f.bodyStatements) 0 .entry (startCfg f) (fun h => by cases h)
    have hflow : _ = flowOf 0 (pieces f.bodyStatements) .entry := hflow
    rw [← hflow]
  · -- the link to the exit is there already
    have hthere := hlinked.resolve_left hlast
    obtain ⟨e, he, htarget, hsource⟩ := hthere
    have hmem := CFG.links_iff.mp ⟨e, he, hsource, htarget⟩
    rw [List.mem_append, List.mem_singleton]
    exact ⟨.inl, fun h => h.elim id fun heq => heq ▸ hmem⟩
  · rw [CFG.ends_addEdge]

end graph

/-! ## What has a node -/

section kept

variable {f : IRFunction}

theorem directAssignments_eq (stmts : List IRStatement) :
    directAssignments stmts = stmts.flatMap fun s => s.assignment?.toList := by
  unfold directAssignments
  induction stmts with
  | nil => rfl
  | cons s stmts ih =>
    rw [List.flatMap_cons, ← ih, List.filterMap_cons]
    rcases s.assignment? with _ | a <;> rfl

theorem allAssignments_eq (stmts : List IRStatement) : allAssignments stmts = stmts.flatMap assignmentsIn := by
  induction stmts with
  | nil => rfl
  | cons s stmts ih => rw [allAssignments, ih, List.flatMap_cons]

theorem assignment_sublist (s : IRStatement) : s.assignment?.toList.Sublist (assignmentsIn s) := by
  cases s with
  | assignment a =>
    rw [assignmentsIn]
    exact List.Sublist.refl _
  | call | branch | loop | ret | other => exact List.nil_sublist _

theorem directAssignments_sublist (stmts : List IRStatement) : (directAssignments stmts).Sublist (allAssignments stmts) := by
  rw [directAssignments_eq, allAssignments_eq]
  exact flatMap_sublist assignment_sublist stmts

theorem assignments_pushBasic (s : IRStatement) (ps : List Piece) :
    (Piece.pushBasic s ps).flatMap Piece.assignments = assignmentsIn s ++ ps.flatMap Piece.assignments := by
  rcases ps with _ | ⟨p, ps⟩
  · show allAssignments [s] ++ [] = _
    rw [allAssignments, allAssignments]
    simp only [List.append_nil, List.flatMap_nil]
  · cases p with
    | block stmts =>
      show allAssignments (s :: stmts) ++ _ = _
      rw [allAssignments, List.append_assoc]
      rfl
    | branch | loop | ret | skip =>
      show allAssignments [s] ++ _ = _
      rw [allAssignments, allAssignments, List.append_nil]
      rfl

/-- The pieces have all assignments. Kind: L -/
theorem assignments_pieces (stmts : List IRStatement) : (pieces stmts).flatMap Piece.assignments = allAssignments stmts := by
  induction stmts with
  | nil => rfl
  | cons s stmts ih =>
    rw [allAssignments, ← ih]
    cases s with
    | assignment | call => exact assignments_pushBasic _ _
    | branch | loop | ret | other =>
      rw [pieces, List.flatMap_cons]
      simp only [Piece.assignments, assignmentsIn]

theorem assignments_slotsOf (ps : List Piece) (idx : ℕ) :
    (slotsOf idx ps).flatMap (fun s => allAssignments s.2) = ps.flatMap Piece.assignments := by
  induction ps generalizing idx with
  | nil => rfl
  | cons p ps ih =>
    rw [slotsOf, List.flatMap_append, ih, List.flatMap_cons]
    congr 1
    cases p <;> simp [Piece.slots, Piece.assignments, allAssignments]

/-- The slots have all assignments. Kind: L -/
theorem assignments_slots (f : IRFunction) : f.slots.flatMap (fun s => allAssignments s.2) = allAssignments f.bodyStatements := by
  rw [← assignments_pieces, ← assignments_slotsOf _ 0]
  rfl

/-- The nodes of assignments are those of the occurrences. Kind: L -/
theorem keys_assignmentNodes (cfg : CFG) : ((buildSsa cfg).nodes.filter fun n => n.phiNode.isNone).map SSANode.key =
    (cfg.contents.entries.flatMap fun e => directAssignments e.2).map IRAssignment.key := by
  obtain ⟨entries, h⟩ := exists_entriesOf cfg
  obtain ⟨hnodes, hoccs⟩ := filter_assignments fun e he => h.numbered.phiNode_isNone (e := e) he
  have hstmts : cfg.contents.entries.flatMap (fun e => directAssignments e.2) = cfg.occurrences.map Occurrence.stmt := by
    show (cfg.nodes.entries.map fun e => (e.1, e.2.statements)).flatMap (fun e => directAssignments e.2) = _
    unfold CFG.occurrences
    rw [List.map_flatMap, List.flatMap_map]
    exact List.flatMap_congr fun entry _ => (map_stmt_nodeOccurrences _ _).symm
  rw [h.nodes, hnodes, hstmts, ← h.occurrences, hoccs, List.map_map, List.map_map, List.map_map]
  refine List.map_congr_left fun d hd => ?_
  obtain ⟨⟨n, o⟩, he, heq⟩ := List.mem_filterMap.mp hd
  obtain ⟨o', ho, rfl⟩ := Option.map_eq_some_iff.mp heq
  obtain ⟨before, after, hsplit⟩ := List.append_of_mem he
  obtain ⟨-, hid, hline, htarget, -⟩ := (h.numbered before _ after hsplit).assignment o' ho
  exact congrArg₂ Prod.mk hid (congrArg₂ Prod.mk hline htarget)

/-- Nothing is nested where the assignments that stand in the slots are all. Kind: L -/
theorem flat_iff (f : IRFunction) : (∀ s ∈ f.slots, ∀ stmt ∈ s.2, stmt.assignment? = none → assignmentsIn stmt = []) ↔
    (allAssignments f.bodyStatements).length ≤ (f.slots.flatMap fun s => directAssignments s.2).length := by
  have hdirect : (f.slots.flatMap fun s => directAssignments s.2) =
      (f.slots.flatMap Prod.snd).flatMap fun s => s.assignment?.toList := by
    rw [List.flatMap_assoc]
    exact List.flatMap_congr fun s _ => directAssignments_eq s.2
  have hall : allAssignments f.bodyStatements = (f.slots.flatMap Prod.snd).flatMap assignmentsIn := by
    grind [assignments_slots, List.flatMap_assoc, allAssignments_eq]
  rw [hdirect, hall]
  constructor
  · intro h
    have heq : (f.slots.flatMap Prod.snd).flatMap assignmentsIn =
        (f.slots.flatMap Prod.snd).flatMap fun s => s.assignment?.toList := by
      refine List.flatMap_congr fun stmt hstmt => ?_
      obtain ⟨s, hs, hin⟩ := List.mem_flatMap.mp hstmt
      cases stmt with
      | assignment a => rw [assignmentsIn]; rfl
      | call | branch | loop | ret | other => exact h s hs _ hin rfl
    rw [heq]
  · intro hle s hs stmt hin hnone
    have heq := eq_of_length_flatMap_le assignment_sublist hle stmt (List.mem_flatMap.mpr ⟨s, hs, hin⟩)
    rw [← heq, hnone]
    rfl

/-- **Every assignment has a node exactly when none is nested or overwritten.**
Source: `analysis/cfg/builder.py`, `_build_statements_cfg`; `analysis/ssa/builder.py`, `build_ssa`
Kind: P -/
theorem all_iff_kept (f : IRFunction) : ((allAssignments f.bodyStatements).map IRAssignment.key).Subperm
    (((buildSsa (buildCfg f)).nodes.filter fun n => n.phiNode.isNone).map SSANode.key) ↔ f.Kept := by
  have hkept := Dict.flatMap_ofList_subperm directAssignments f.slots
  have hall : (f.slots.flatMap fun s => directAssignments s.2).Sublist (allAssignments f.bodyStatements) := by
    grind [assignments_slots, flatMap_sublist, directAssignments_sublist]
  rw [keys_assignmentNodes, contents_buildCfg]
  constructor
  · intro h
    have hle := h.length_le
    rw [List.length_map, List.length_map] at hle
    refine ⟨(flat_iff f).mpr (hle.trans hkept.length_le), ?_⟩
    exact (Dict.flatMap_ofList_perm_iff _ _).mp (hkept.perm_of_length_le (hall.length_le.trans hle))
  · intro h
    have heq := hall.eq_of_length_le ((flat_iff f).mp h.flat)
    rw [← heq]
    exact (((Dict.flatMap_ofList_perm_iff _ _).mpr h.unshared).symm.map _).subperm

end kept

/-! ## What is covered -/

section order

variable {f : IRFunction} {o : Occurrence} {v : String}

theorem mem_nodeOccurrences {place : Place} {stmts : List IRStatement} : o ∈ nodeOccurrences place stmts ↔
    o.place = place ∧ (directAssignments stmts)[o.index]? = some o.stmt := by
  unfold nodeOccurrences
  rw [List.mem_map]
  constructor
  · grind
  · rintro ⟨rfl, hget⟩
    exact ⟨(o.stmt, o.index), List.mem_zipIdx_iff_getElem?.mpr hget, rfl⟩

/-- Where nothing is overwritten, the occurrences are the assignments of the slots. Kind: L -/
theorem IRFunction.Kept.mem_occurrences (h : f.Kept) : o ∈ (buildCfg f).occurrences ↔
    ∃ s ∈ f.slots, o.place = s.1 ∧ (directAssignments s.2)[o.index]? = some o.stmt := by
  have hentries : o ∈ (buildCfg f).occurrences ↔
      ∃ s ∈ (buildCfg f).contents.entries, o.place = s.1 ∧ (directAssignments s.2)[o.index]? = some o.stmt := by
    show _ ↔ ∃ s ∈ (buildCfg f).nodes.entries.map fun e => (e.1, e.2.statements), _
    unfold CFG.occurrences
    rw [List.mem_flatMap]
    constructor
    · rintro ⟨entry, hentry, ho⟩
      exact ⟨_, List.mem_map_of_mem hentry, mem_nodeOccurrences.mp ho⟩
    · rintro ⟨s, hs, ho⟩
      obtain ⟨entry, hentry, rfl⟩ := List.mem_map.mp hs
      exact ⟨entry, hentry, mem_nodeOccurrences.mpr ho⟩
  rw [hentries, contents_buildCfg]
  constructor
  · rintro ⟨s, hs, ho⟩
    exact ⟨s, Dict.mem_of_get?_ofList (Dict.mem_entries.mp hs), ho⟩
  · rintro ⟨s, hs, hplace, hget⟩
    have hheld : directAssignments s.2 ≠ [] := by grind
    exact ⟨s, Dict.mem_entries.mpr (Dict.get?_ofList_of_lastHolds h.unshared hs hheld), hplace, hget⟩

/-- At most one slot with a place holds assignments. Kind: L -/
theorem IRFunction.Kept.slot_unique (h : f.Kept) {s t : Place × List IRStatement} (hs : s ∈ f.slots) (ht : t ∈ f.slots)
    (hplace : s.1 = t.1) {i j : ℕ} {a b : IRAssignment} (ha : (directAssignments s.2)[i]? = some a)
    (hb : (directAssignments t.2)[j]? = some b) : s = t := by
  have hheld : ∀ {stmts : List IRStatement} {i : ℕ} {a}, (directAssignments stmts)[i]? = some a →
      directAssignments stmts ≠ [] := by
    intro stmts i a hget hnil
    rw [hnil, List.getElem?_nil] at hget
    cases hget
  have hfirst := Dict.get?_ofList_of_lastHolds h.unshared hs (hheld ha)
  rw [hplace, Dict.get?_ofList_of_lastHolds h.unshared ht (hheld hb)] at hfirst
  exact Prod.ext hplace (Option.some.inj hfirst).symm

theorem IRFunction.Kept.assigns_iff (h : f.Kept) (place : Place) : (buildCfg f).Assigns v place ↔ f.Assigns v place := by
  constructor
  · rintro ⟨o, ho, rfl, rfl⟩
    obtain ⟨s, hs, hplace, hget⟩ := h.mem_occurrences.mp ho
    exact ⟨s, hs, hplace.symm, o.stmt, List.mem_of_getElem? hget, rfl⟩
  · rintro ⟨s, hs, rfl, a, ha, rfl⟩
    obtain ⟨i, hget⟩ := List.mem_iff_getElem?.mp ha
    exact ⟨⟨s.1, i, a⟩, h.mem_occurrences.mpr ⟨s, hs, rfl, hget⟩, rfl, rfl⟩

/-- The condition on the graph is that on the function. Kind: L -/
theorem IRFunction.Kept.fromLast_iff (h : f.Kept) (v : String) (place : Place) :
    FromLast (buildCfg f).Links ((buildCfg f).Assigns v) (buildCfg f).nodes.keys place ↔
      FromLast f.Leads (f.Assigns v) (f.slots.map Prod.fst) place := by
  have hlinks : (buildCfg f).Links = f.Leads := funext fun a => funext fun b => propext (links_buildCfg f a b)
  have hassigns : (buildCfg f).Assigns v = f.Assigns v := funext fun place => propext (h.assigns_iff place)
  have hkeys : (buildCfg f).nodes.keys = (Dict.ofList f.slots).keys := by
    rw [← contents_buildCfg]
    show _ = ((buildCfg f).nodes.entries.map fun e => (e.1, e.2.statements)).map Prod.fst
    rw [List.map_map]
    rfl
  unfold FromLast
  rw [hlinks, hassigns, hkeys]
  simp only [precedes_keys_ofList_iff]

/-- **The definitions that reach are covered exactly when they come from the last place before in the text.**
Source: `analysis/ssa/builder.py`, `build_ssa`
Kind: P -/
theorem IRFunction.Kept.coversReaching_iff_inOrder (h : f.Kept) {reads : IRAssignment → String → Prop}
    (hreads : ∀ a v, reads a v → inStr v a.valueExpression = true ∨ (a.operator ≠ "=" ∧ v = a.target)) :
    CoversReaching reads (buildCfg f) ↔ f.InOrder reads := by
  rw [coversReaching_iff (buildCfg f) hreads]
  constructor
  · intro hlast s hs before a after v hsplit hread hfree
    have hget : (directAssignments s.2)[before.length]? = some a := by
      rw [hsplit, List.getElem?_append_right le_rfl, Nat.sub_self, List.getElem?_cons_zero]
    rw [← h.fromLast_iff]
    refine hlast ⟨s.1, before.length, a⟩ (h.mem_occurrences.mpr ⟨s, hs, rfl, hget⟩) v hread ?_
    intro o ho hplace hlt
    obtain ⟨t, ht, hoplace, hoget⟩ := h.mem_occurrences.mp ho
    obtain rfl := h.slot_unique ht hs (hoplace.symm.trans hplace) hoget hget
    rw [hsplit, List.getElem?_append_left hlt] at hoget
    exact hfree _ (List.mem_of_getElem? hoget)
  · intro horder u hu v hread hexposed
    obtain ⟨s, hs, hplace, hget⟩ := h.mem_occurrences.mp hu
    obtain ⟨hlt, hat⟩ := List.getElem?_eq_some_iff.mp hget
    have hsplit : directAssignments s.2 =
        (directAssignments s.2).take u.index ++ u.stmt :: (directAssignments s.2).drop (u.index + 1) := by
      rw [← hat, List.getElem_cons_drop, List.take_append_drop]
    rw [h.fromLast_iff, hplace]
    refine horder s hs _ _ _ v hsplit hread fun b hb => ?_
    obtain ⟨j, hj, rfl⟩ := List.mem_take_iff_getElem.mp hb
    have hbelow : j < u.index := hj.trans_le (min_le_left _ _)
    refine hexposed ⟨s.1, j, _⟩ (h.mem_occurrences.mpr ⟨s, hs, rfl, ?_⟩) hplace.symm hbelow
    exact List.getElem?_eq_getElem _

end order

/-- **The form is sound exactly for the functions without nested or overwritten assignments whose uses are reached only by the
last assignment before them in the text.**
Source: `analysis/ssa/builder.py`, `build_ssa`; `analysis/cfg/builder.py`, `_build_statements_cfg`
Kind: P -/
theorem ssaSound_iff (f : IRFunction) (reads : IRAssignment → String → Prop)
    (hreads : ∀ a v, reads a v → inStr v a.valueExpression = true ∨ (a.operator ≠ "=" ∧ v = a.target)) :
    SsaSound reads f ↔ f.Kept ∧ f.InOrder reads := by
  constructor
  · intro h
    have hkept := (all_iff_kept f).mp h.all
    exact ⟨hkept, (hkept.coversReaching_iff_inOrder hreads).mp h.covers⟩
  · rintro ⟨hkept, horder⟩
    exact ⟨(hkept.coversReaching_iff_inOrder hreads).mpr horder, fun _ hw => single_definition _ hw, (all_iff_kept f).mpr hkept⟩

/-- A condition whose arms both assign, and a use behind it. Kind: D -/
def bothArms : IRFunction where
  id := "f"
  lineNumber := 1
  filePath := "a.php"
  name := "f"
  bodyStatements :=
    [.branch 2 "$c" [.assignment ⟨"n3", 3, "$x", "$_GET", "="⟩] [.assignment ⟨"n5", 5, "$x", "1", "="⟩],
      .assignment ⟨"n7", 7, "$y", "$x", "="⟩]

theorem ssaSound_iff_bothArms :
    SsaSound (fun a v => inStr v a.valueExpression = true) bothArms ↔
      bothArms.Kept ∧ bothArms.InOrder fun a v => inStr v a.valueExpression = true :=
  ssaSound_iff bothArms _ fun _ _ h => .inl h

/-- The use names the version of the second arm only: what the first arm assigns is lost. Kind: C -/
theorem first_arm_lost : ¬SsaSound (fun a v => inStr v a.valueExpression = true) bothArms := by
  intro h
  have hoccurrences : (buildCfg bothArms).occurrences =
      [⟨.thenArm 2, 0, ⟨"n3", 3, "$x", "$_GET", "="⟩⟩, ⟨.elseArm 2, 0, ⟨"n5", 5, "$x", "1", "="⟩⟩,
        ⟨.stmt 7 2, 0, ⟨"n7", 7, "$y", "$x", "="⟩⟩] := rfl
  have hkeys : (buildCfg bothArms).nodes.keys =
      [.entry, .exit, .branch 2, .thenArm 2, .elseArm 2, .merge 2, .stmt 7 2] := rfl
  have hlinks : ∀ {a b}, (a, b) ∈ bothArms.flow → (buildCfg bothArms).Links a b := fun hmem =>
    (links_buildCfg bothArms _ _).mpr hmem
  -- the first arm reaches the use over the merge, which assigns nothing
  have harrives : Arrives (buildCfg bothArms).Links ((buildCfg bothArms).Assigns "$x") (.thenArm 2) (.stmt 7 2) := by
    refine .pass (.step (hlinks (by decide))) ?_ (hlinks (a := .merge 2) (by decide))
    unfold CFG.Assigns
    rw [hoccurrences]
    decide
  have hlast := (coversReaching_iff (buildCfg bothArms) fun _ _ hread => .inl hread).mp h.covers
    ⟨.stmt 7 2, 0, ⟨"n7", 7, "$y", "$x", "="⟩⟩ (by rw [hoccurrences]; simp) "$x" (by decide +kernel)
    (fun _ _ _ hlt => absurd hlt (Nat.not_lt_zero _)) (.thenArm 2) (by unfold CFG.Assigns; rw [hoccurrences]; simp) harrives
  -- but the second arm stands between
  refine hlast.2 (.elseArm 2) (by unfold CFG.Assigns; rw [hoccurrences]; simp) ⟨?_, ?_⟩
  · exact ⟨[.entry, .exit, .branch 2, .thenArm 2], by rw [hkeys]; decide, by decide, by decide⟩
  · exact ⟨[.entry, .exit, .branch 2, .thenArm 2, .elseArm 2], by rw [hkeys]; decide, by decide, by decide⟩

end KarsaSec.Ssa
