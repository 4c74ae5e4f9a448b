import KarsaSec.Ssa.Model
import Mathlib.Data.List.Infix

/-!
# Static single assignment

`SSABuilder.build_ssa`: the assignments of the nodes, in the order of the nodes, get versions of their variables.

* `rename` is what an assignment adds, `insertPhis` what a node adds that counts as a merge point.
* `Traced` is the invariant of the loops: every entry is numbered by what stands before it. `exists_entriesOf` says it of the
  whole run, with the occurrences of the assignments.
-/

namespace KarsaSec.Ssa

open KarsaSec.Found

/-! ## Records -/

/-- Source: `analysis/ssa/models.py`, `SSAVar`. Kind: D -/
structure SSAVar where
  baseName : String
  version : ℕ
  deriving DecidableEq

/-- Source: `analysis/ssa/models.py`, `SSAVar.ssa_name`. Kind: D -/
def SSAVar.ssaName (v : SSAVar) : String := v.baseName ++ "_" ++ toString v.version

/-- Source: `analysis/ssa/models.py`, `PhiNode`. Kind: D -/
structure PhiNode where
  targetVar : SSAVar
  operandVars : List SSAVar
  basicBlockId : String
  deriving DecidableEq

/-- Source: `analysis/ssa/models.py`, `SSANode`. Kind: D -/
structure SSANode where
  id : String
  lineNumber : ℤ
  target : SSAVar
  phiNode : Option PhiNode := none
  useVars : List SSAVar := []
  label : String

/-- Source: `analysis/ssa/models.py`, `SSAFunction`. Kind: D -/
structure SSAFunction where
  functionName : String
  filePath : String
  nodes : List SSANode
  phiNodes : List PhiNode

/-- Source: `analysis/ssa/builder.py`, `var_counters`, `var_stacks` and the nodes of `ssa_func`. Kind: D -/
structure Renaming where
  varCounters : Dict String ℕ := .empty
  varStacks : Dict String (List ℕ) := .empty
  nodes : List SSANode := []
  phiNodes : List PhiNode := []

/-! ## The builder -/

namespace Renaming

/-- Source: `analysis/ssa/builder.py`, `get_new_version`. Kind: D -/
def getNewVersion (st : Renaming) (name : String) : SSAVar × Renaming :=
  let v := st.varCounters.getD name 0 + 1
  (⟨name, v⟩, { st with varCounters := st.varCounters.set name v, varStacks := st.varStacks.pushAt name v })

/-- Source: `analysis/ssa/builder.py`, `get_current_version`. Kind: D -/
def getCurrentVersion (st : Renaming) (name : String) : SSAVar := ⟨name, (st.varStacks.getD name []).getLast?.getD 0⟩

/-- The second operand is the target itself. Source: `analysis/ssa/builder.py`, `phi`. Kind: D -/
def insertPhi (nid : String) (lineNumber : ℤ) (st : Renaming) (varName : String) : Renaming :=
  let (targetVar, st) := st.getNewVersion varName
  let op1 : SSAVar := ⟨varName, targetVar.version - 1⟩
  let op2 : SSAVar := ⟨varName, targetVar.version⟩
  let phi : PhiNode := ⟨targetVar, [op1, op2], nid⟩
  let node : SSANode :=
    { id := nid ++ "::phi::" ++ varName
      lineNumber := lineNumber
      target := targetVar
      phiNode := some phi
      label := s!"Φ({op1.ssaName}, {op2.ssaName})" }
  { st with nodes := st.nodes ++ [node], phiNodes := st.phiNodes ++ [phi] }

/-- Source: `analysis/ssa/builder.py`, loop over `list(var_counters.keys())`. Kind: D -/
def insertPhis (nid : String) (lineNumber : ℤ) (st : Renaming) : Renaming :=
  st.varCounters.keys.foldl (insertPhi nid lineNumber) st

/-- The current versions of the variables whose names occur in the expression, and that of an augmented target.
Source: `analysis/ssa/builder.py`, `use_vars`
Kind: D -/
def usesOf (st : Renaming) (a : IRAssignment) : List SSAVar :=
  let useVars := (st.varCounters.keys.filter fun vname => inStr vname a.valueExpression).map st.getCurrentVersion
  if a.operator ≠ "=" ∧ st.varCounters.contains a.target then
    if a.target ∉ useVars.map SSAVar.baseName then useVars ++ [st.getCurrentVersion a.target] else useVars
  else useVars

/-- Source: `analysis/ssa/builder.py`, `isinstance(stmt, IRAssignment)`. Kind: D -/
def rename (st : Renaming) (a : IRAssignment) : Renaming :=
  let useVars := st.usesOf a
  let (targetVar, st) := st.getNewVersion a.target
  let node : SSANode :=
    { id := a.id
      lineNumber := a.lineNumber
      target := targetVar
      useVars := useVars
      label := targetVar.ssaName ++ " = " ++ a.valueExpression }
  { st with nodes := st.nodes ++ [node] }

end Renaming

/-- Source: `analysis/ssa/builder.py`, "Merge point". Kind: D -/
def CFGNode.isMergePoint (node : CFGNode) : Bool := node.nodeType = .condition && inStr "Merge" node.label

/-- Source: `analysis/ssa/builder.py`, loop over `cfg.nodes`. Kind: D -/
def visitNode (cfgId : String) (st : Renaming) (entry : Place × CFGNode) : Renaming :=
  let st := if entry.2.isMergePoint then st.insertPhis (entry.1.text cfgId) entry.2.lineNumber else st
  (directAssignments entry.2.statements).foldl Renaming.rename st

/-- Source: `analysis/ssa/builder.py`, `SSABuilder.build_ssa`. Kind: D -/
def buildSsa (cfg : CFG) : SSAFunction :=
  let st := cfg.nodes.entries.foldl (visitNode cfg.cfgId) {}
  { functionName := cfg.functionName, filePath := cfg.filePath, nodes := st.nodes, phiNodes := st.phiNodes }

/-! ## Numbering -/

/-- The number of nodes that define a variable. Kind: D -/
def defCount (v : String) (nodes : List SSANode) : ℕ := nodes.countP fun n => n.target.baseName = v

theorem defCount_snoc (v : String) (nodes : List SSANode) (n : SSANode) :
    defCount v (nodes ++ [n]) = defCount v nodes + if n.target.baseName = v then 1 else 0 := by
  unfold defCount
  rw [List.countP_append, List.countP_singleton]
  simp only [decide_eq_true_eq]

/-- An assignment that stands in a node, with its index among the assignments there. Kind: D -/
structure Occurrence where
  place : Place
  index : ℕ
  stmt : IRAssignment

/-- The occurrences of a node. Kind: D -/
def nodeOccurrences (place : Place) (stmts : List IRStatement) : List Occurrence :=
  (directAssignments stmts).zipIdx.map fun a => ⟨place, a.2, a.1⟩

/-- The assignments that stand in nodes, in the order of the nodes. Kind: D -/
def CFG.occurrences (cfg : CFG) : List Occurrence :=
  cfg.nodes.entries.flatMap fun entry => nodeOccurrences entry.1 entry.2.statements

/-- A node of the result with the occurrence it is made for; a phi node has none. Kind: D -/
abbrev Entry := SSANode × Option Occurrence

/-- What a node is, given the nodes before it. Kind: D -/
structure NumberedBy (before : List SSANode) (e : Entry) : Prop where
  version : e.1.target.version = defCount e.1.target.baseName before + 1
  phi : e.2 = none → 0 < defCount e.1.target.baseName before ∧ e.1.useVars = [] ∧
    ∃ nid, e.1.phiNode = some ⟨e.1.target, [⟨e.1.target.baseName, e.1.target.version - 1⟩, e.1.target], nid⟩
  assignment : ∀ o, e.2 = some o → e.1.phiNode = none ∧ e.1.id = o.stmt.id ∧ e.1.lineNumber = o.stmt.lineNumber ∧
    e.1.target.baseName = o.stmt.target ∧
    ∀ u, u ∈ e.1.useVars ↔ u.version = defCount u.baseName before ∧ 0 < u.version ∧
      (inStr u.baseName o.stmt.valueExpression = true ∨ (o.stmt.operator ≠ "=" ∧ u.baseName = o.stmt.target))

/-- Every entry is numbered by what stands before it. Kind: D -/
def Numbered (entries : List Entry) : Prop :=
  ∀ before e after, entries = before ++ e :: after → NumberedBy (before.map Prod.fst) e

/-- The invariant of the run: the entries are numbered, and the state knows the numbers. Kind: D -/
structure Traced (entries : List Entry) (st : Renaming) : Prop where
  nodes : st.nodes = entries.map Prod.fst
  phis : st.phiNodes = st.nodes.filterMap SSANode.phiNode
  counters : ∀ v, st.varCounters.getD v 0 = defCount v st.nodes
  tracked : ∀ v, v ∈ st.varCounters.keys ↔ 0 < defCount v st.nodes
  current : ∀ v, st.getCurrentVersion v = ⟨v, defCount v st.nodes⟩
  numbered : Numbered entries

/-- The entries of the whole run. Kind: D -/
structure EntriesOf (cfg : CFG) (entries : List Entry) : Prop where
  nodes : (buildSsa cfg).nodes = entries.map Prod.fst
  phis : (buildSsa cfg).phiNodes = (buildSsa cfg).nodes.filterMap SSANode.phiNode
  occurrences : entries.filterMap Prod.snd = cfg.occurrences
  numbered : Numbered entries

section run

variable {entries : List Entry} {st : Renaming}

theorem traced_empty : Traced [] {} where
  nodes := rfl
  phis := rfl
  counters _ := rfl
  tracked v := ⟨fun h => absurd h List.not_mem_nil, fun h => absurd h (lt_irrefl _)⟩
  current _ := rfl
  numbered before e after h := by
    rcases before with _ | ⟨_, _⟩ <;> cases h

theorem getCurrentVersion_getNewVersion (st : Renaming) (name v : String) :
    (st.getNewVersion name).2.getCurrentVersion v =
      if v = name then (st.getNewVersion name).1 else st.getCurrentVersion v := by
  unfold Renaming.getNewVersion Renaming.getCurrentVersion Dict.pushAt
  dsimp only
  split_ifs with h
  · simp_all [Dict.getD_set_self]
  · rw [Dict.getD_set_ne _ h]

/-- A node that is added for a new version of its variable. Kind: L -/
theorem Traced.snoc (h : Traced entries st) (name : String) {e : Entry} {phis : List PhiNode}
    (htarget : e.1.target = (st.getNewVersion name).1) (hnumbered : NumberedBy st.nodes e)
    (hphis : phis = st.phiNodes ++ e.1.phiNode.toList) :
    Traced (entries ++ [e]) { (st.getNewVersion name).2 with nodes := st.nodes ++ [e.1], phiNodes := phis } := by
  have hname : e.1.target.baseName = name := by rw [htarget]; rfl
  have hcount : ∀ v, defCount v (st.nodes ++ [e.1]) = if v = name then st.varCounters.getD name 0 + 1 else defCount v st.nodes := by
    intro v
    rw [defCount_snoc, hname, h.counters]
    by_cases hv : v = name
    · rw [if_pos hv, if_pos hv.symm, hv]
    · rw [if_neg hv, if_neg (Ne.symm hv), Nat.add_zero]
  have hcounters : ∀ v, (st.varCounters.set name (st.varCounters.getD name 0 + 1)).getD v 0 =
      if v = name then st.varCounters.getD name 0 + 1 else st.varCounters.getD v 0 := by
    intro v
    split_ifs with hv
    · rw [hv, Dict.getD_set_self]
    · rw [Dict.getD_set_ne _ hv]
  refine ⟨?_, ?_, fun v => ?_, fun v => ?_, fun v => ?_, fun before e' after heq => ?_⟩
  · rw [List.map_append, h.nodes]
    rfl
  · show phis = (st.nodes ++ [e.1]).filterMap SSANode.phiNode
    rw [hphis, List.filterMap_append, ← h.phis]
    rcases hphi : e.1.phiNode with _ | p
    · rw [List.filterMap_cons_none hphi]
      rfl
    · rw [List.filterMap_cons_some hphi]
      rfl
  · show (st.varCounters.set name _).getD v 0 = defCount v (st.nodes ++ [e.1])
    rw [hcount, hcounters, h.counters v]
  · show v ∈ (st.varCounters.set name _).keys ↔ 0 < defCount v (st.nodes ++ [e.1])
    rw [hcount, Dict.mem_keys_set, h.tracked]
    split_ifs with hv
    · exact ⟨fun _ => Nat.succ_pos _, fun _ => .inl hv⟩
    · exact ⟨fun hor => hor.resolve_left hv, .inr⟩
  · show (st.getNewVersion name).2.getCurrentVersion v = ⟨v, defCount v (st.nodes ++ [e.1])⟩
    rw [getCurrentVersion_getNewVersion, hcount, h.current]
    split_ifs with hv
    · rw [hv]
      rfl
    · rfl
  · rcases List.eq_nil_or_concat after with rfl | ⟨after, last, rfl⟩
    · obtain ⟨rfl, hlast⟩ := List.append_inj' heq rfl
      obtain rfl := List.singleton_inj.mp hlast
      rw [← h.nodes]
      exact hnumbered
    · rw [List.concat_eq_append, ← List.cons_append, ← List.append_assoc] at heq
      exact h.numbered before e' after (List.append_inj' heq rfl).1

/-- What an assignment uses. Source: `analysis/ssa/builder.py`, `use_vars`. Kind: L -/
theorem Traced.mem_usesOf (h : Traced entries st) (a : IRAssignment) (u : SSAVar) :
    u ∈ st.usesOf a ↔ u.version = defCount u.baseName st.nodes ∧ 0 < u.version ∧
      (inStr u.baseName a.valueExpression = true ∨ (a.operator ≠ "=" ∧ u.baseName = a.target)) := by
  have hnamed : ∀ u : SSAVar, u ∈ (st.varCounters.keys.filter fun vname => inStr vname a.valueExpression).map
      st.getCurrentVersion ↔ u.version = defCount u.baseName st.nodes ∧ 0 < u.version ∧
        inStr u.baseName a.valueExpression = true := by
    intro u
    rw [List.mem_map]
    constructor
    · rintro ⟨v, hv, rfl⟩
      obtain ⟨hkey, hin⟩ := List.mem_filter.mp hv
      rw [h.current]
      exact ⟨rfl, (h.tracked v).mp hkey, hin⟩
    · rintro ⟨hversion, hpos, hin⟩
      refine ⟨u.baseName, List.mem_filter.mpr ⟨(h.tracked _).mpr (hversion ▸ hpos), hin⟩, ?_⟩
      rw [h.current, ← hversion]
  have hcurrent : st.varCounters.contains a.target = true → ∀ u : SSAVar, u = st.getCurrentVersion a.target ↔
      u.version = defCount u.baseName st.nodes ∧ 0 < u.version ∧ u.baseName = a.target := by
    intro hkey u
    rw [h.current]
    constructor
    · rintro rfl
      exact ⟨rfl, (h.tracked _).mp (Dict.get?_isSome.mp hkey), rfl⟩
    · rintro ⟨hversion, -, hbase⟩
      rw [← hbase, ← hversion]
  unfold Renaming.usesOf
  dsimp only
  split_ifs with haug hnew
  · rw [hnamed]
    refine and_congr_right fun hversion => and_congr_right fun hpos => ⟨.inl, ?_⟩
    rintro (hin | ⟨-, hbase⟩)
    · exact hin
    · obtain ⟨w, hw, hwbase⟩ := List.mem_map.mp hnew
      rw [hbase, ← hwbase]
      exact ((hnamed w).mp hw).2.2
  · -- an augmented target that the expression does not name
    rw [List.mem_append, List.mem_singleton, hnamed, hcurrent haug.2]
    constructor
    · rintro (⟨hversion, hpos, hin⟩ | ⟨hversion, hpos, hbase⟩)
      · exact ⟨hversion, hpos, .inl hin⟩
      · exact ⟨hversion, hpos, .inr ⟨haug.1, hbase⟩⟩
    · rintro ⟨hversion, hpos, hin | ⟨-, hbase⟩⟩
      · exact .inl ⟨hversion, hpos, hin⟩
      · exact .inr ⟨hversion, hpos, hbase⟩
  · rw [hnamed]
    refine and_congr_right fun hversion => and_congr_right fun hpos => ⟨.inl, ?_⟩
    rintro (hin | ⟨hop, hbase⟩)
    · exact hin
    · refine absurd ⟨hop, ?_⟩ haug
      exact Dict.get?_isSome.mpr ((h.tracked _).mpr (hbase ▸ hversion ▸ hpos))

theorem Traced.rename (h : Traced entries st) (o : Occurrence) :
    ∃ n, Traced (entries ++ [(n, some o)]) (st.rename o.stmt) := by
  refine ⟨_, h.snoc o.stmt.target rfl ⟨?_, fun hnone => (Option.some_ne_none o hnone).elim, ?_⟩ ?_⟩
  · show st.varCounters.getD o.stmt.target 0 + 1 = _
    rw [h.counters]
  · intro o' ho'
    obtain rfl := Option.some.inj ho'
    exact ⟨rfl, rfl, rfl, rfl, h.mem_usesOf o.stmt⟩
  · exact (List.append_nil _).symm

theorem Traced.insertPhi (h : Traced entries st) {v : String} (hv : 0 < defCount v st.nodes) (nid : String)
    (lineNumber : ℤ) : ∃ n, Traced (entries ++ [(n, none)]) (Renaming.insertPhi nid lineNumber st v) := by
  refine ⟨_, h.snoc v rfl ⟨?_, fun _ => ⟨hv, rfl, nid, rfl⟩, fun o ho => ?_⟩ rfl⟩
  · show st.varCounters.getD v 0 + 1 = _
    rw [h.counters]
  · cases ho

theorem Traced.insertPhis (h : Traced entries st) (nid : String) (lineNumber : ℤ) :
    ∃ added, Traced (entries ++ added) (st.insertPhis nid lineNumber) ∧ added.filterMap Prod.snd = ([] : List Occurrence) := by
  have hkeys : ∀ v ∈ st.varCounters.keys, 0 < defCount v st.nodes := fun v hv => (h.tracked v).mp hv
  unfold Renaming.insertPhis
  revert hkeys
  generalize st.varCounters.keys = keys
  intro hkeys
  induction keys generalizing entries st with
  | nil => exact ⟨[], by rwa [List.append_nil], rfl⟩
  | cons v keys ih =>
    obtain ⟨n, hn⟩ := h.insertPhi (hkeys v List.mem_cons_self) nid lineNumber
    -- a variable that is tracked stays so
    have hstill : ∀ w ∈ keys, 0 < defCount w (Renaming.insertPhi nid lineNumber st v).nodes := by
      intro w hw
      refine (hkeys w (List.mem_cons_of_mem _ hw)).trans_le ?_
      rw [hn.nodes, List.map_append, ← h.nodes]
      exact (List.sublist_append_left _ _).countP_le
    obtain ⟨added, hadded, hnone⟩ := ih hn hstill
    refine ⟨(n, none) :: added, ?_, ?_⟩
    · rwa [List.append_assoc] at hadded
    · rw [List.filterMap_cons_none rfl]
      exact hnone

theorem Traced.renames (h : Traced entries st) (occs : List Occurrence) :
    ∃ added, Traced (entries ++ added) ((occs.map Occurrence.stmt).foldl Renaming.rename st) ∧
      added.filterMap Prod.snd = occs := by
  induction occs generalizing entries st with
  | nil => exact ⟨[], by rwa [List.append_nil], rfl⟩
  | cons o occs ih =>
    obtain ⟨n, hn⟩ := h.rename o
    obtain ⟨added, hadded, hoccs⟩ := ih hn
    refine ⟨(n, some o) :: added, ?_, ?_⟩
    · rwa [List.append_assoc] at hadded
    · simp_all

theorem map_stmt_nodeOccurrences (place : Place) (stmts : List IRStatement) :
    (nodeOccurrences place stmts).map Occurrence.stmt = directAssignments stmts := by
  unfold nodeOccurrences
  rw [List.map_map]
  exact List.zipIdx_map_fst 0 _

theorem Traced.visitNode (h : Traced entries st) (cfgId : String) (entry : Place × CFGNode) :
    ∃ added, Traced (entries ++ added) (visitNode cfgId st entry) ∧
      added.filterMap Prod.snd = nodeOccurrences entry.1 entry.2.statements := by
  obtain ⟨phis, hphis, hnone⟩ : ∃ added, Traced (entries ++ added)
      (if entry.2.isMergePoint then st.insertPhis (entry.1.text cfgId) entry.2.lineNumber else st) ∧
        added.filterMap Prod.snd = ([] : List Occurrence) := by
    split_ifs
    · exact h.insertPhis _ _
    · exact ⟨[], by rwa [List.append_nil], rfl⟩
  obtain ⟨added, hadded, hoccs⟩ := hphis.renames (nodeOccurrences entry.1 entry.2.statements)
  refine ⟨phis ++ added, ?_, ?_⟩
  · rw [← List.append_assoc]
    rwa [map_stmt_nodeOccurrences] at hadded
  · rw [List.filterMap_append, hnone, hoccs, List.nil_append]

/-- **The run numbers every assignment that stands in a node.** Source: `analysis/ssa/builder.py`, `build_ssa`. Kind: P -/
theorem exists_entriesOf (cfg : CFG) : ∃ entries, EntriesOf cfg entries := by
  have hrun : ∀ (l : List (Place × CFGNode)) {entries : List Entry} {st : Renaming}, Traced entries st →
      ∃ added, Traced (entries ++ added) (l.foldl (Ssa.visitNode cfg.cfgId) st) ∧
        added.filterMap Prod.snd = l.flatMap fun entry => nodeOccurrences entry.1 entry.2.statements := by
    intro l
    induction l with
    | nil => exact fun h => ⟨[], by rwa [List.append_nil], rfl⟩
    | cons entry l ih =>
      intro entries st h
      obtain ⟨first, hfirst, hoccs⟩ := h.visitNode cfg.cfgId entry
      obtain ⟨added, hadded, hrest⟩ := ih hfirst
      refine ⟨first ++ added, ?_, ?_⟩
      · rwa [← List.append_assoc]
      · rw [List.filterMap_append, hoccs, hrest, List.flatMap_cons]
  obtain ⟨entries, h, hoccs⟩ := hrun cfg.nodes.entries traced_empty
  rw [List.nil_append] at h
  exact ⟨entries, h.nodes, h.phis, hoccs, h.numbered⟩

end run

end KarsaSec.Ssa
