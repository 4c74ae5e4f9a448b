import KarsaSec.Taint.Model
import Mathlib.Logic.Relation

/-!
# Taint of versions

`analysis/taint/propagator.py`: a node of the single assignment form gets a state from its label, and else from the states of the
versions that it uses. Beside it stands what the states are about: values that flow from a version to another (`Flows`), past
nodes that sanitize (`Clean`).

* `exists_taintNode`: every node that assigns has its taint node.
* `Explained`: where a taint node comes from. A sanitized one needs a sanitizer somewhere in the function; a tainted one has a
  source that leads to it past all sanitizers.
-/

namespace KarsaSec.Taint

open KarsaSec.Found
open KarsaSec.Ssa (SSAVar)
open Relation (ReflTransGen)

/-! ## Data flow -/

/-- Where a value stands. Kind: D -/
inductive Point
  | variable (ssaName : String)
  | statement (cfgId : String)
  deriving DecidableEq

/-- A node assigns a version. Kind: D -/
def SSAFunction.Assigns (ssaFunc : SSAFunction) (n : SSANode) (v : SSAVar) : Prop := n ∈ ssaFunc.nodes ∧ n.target = some v

/-- A value flows in a step: from a version that is used to the one assigned, along an edge that names two versions, and along an
edge of two nodes into the statement that uses what the first defines. Kind: D -/
inductive Flows (ssaFunc : SSAFunction) (dfg : DataFlowGraph) : Point → Point → Prop
  | use {n : SSANode} {v u : SSAVar} (hassigns : ssaFunc.Assigns n v) (huse : u ∈ n.useVars) :
      Flows ssaFunc dfg (.variable u.ssaName) (.variable v.ssaName)
  | named {e : DataFlowEdge} {m n : SSANode} {u v : SSAVar} (he : e ∈ dfg.edges) (hsource : ssaFunc.Assigns m u)
      (htarget : ssaFunc.Assigns n v) (hu : e.sourceId = u.ssaName) (hv : e.targetId = v.ssaName) :
      Flows ssaFunc dfg (.variable u.ssaName) (.variable v.ssaName)
  | statement {e : DataFlowEdge} {a b : DataFlowNode} {d u : VariableRef} (he : e ∈ dfg.edges)
      (ha : dfg.nodes.get? e.sourceId = some a) (hb : dfg.nodes.get? e.targetId = some b) (hd : d ∈ a.definitions)
      (hu : u ∈ b.uses) (hname : d.name = e.varName) (hsame : d.ssaName = u.ssaName) :
      Flows ssaFunc dfg (.variable d.ssaName) (.statement b.statementId)

/-! ## The states -/

/-- Source: `analysis/taint/propagator.py`, `TaintPropagator`. Kind: D -/
structure TaintPropagator where
  sourceReg : SourceRegistry := {}
  sinkReg : SinkRegistry := {}
  sanitizerReg : SanitizerRegistry := {}

/-- The loop over the used versions: the first that is tainted ends it. Source: `analysis/taint/propagator.py`. Kind: D -/
def usedState (taintNodes : Dict String TaintNode) (state : TaintState) : List SSAVar → TaintState
  | [] => state
  | uvar :: rest =>
    match taintNodes.get? uvar.ssaName with
    | none => usedState taintNodes state rest
    | some parent =>
      if parent.state = .tainted then .tainted
      else if parent.state = .sanitized then usedState taintNodes .sanitized rest
      else usedState taintNodes state rest

namespace TaintPropagator

/-- Source: `analysis/taint/propagator.py`, `propagate_taint`. Kind: D -/
def taintNode (self : TaintPropagator) (taintNodes : Dict String TaintNode) (snode : SSANode) (target : SSAVar) :
    TaintNode :=
  let isSrc := self.sourceReg.isSource snode.label
  let isSan := self.sanitizerReg.isSanitizer snode.label
  { id := snode.id
    varName := target.ssaName
    state :=
      if isSan then .sanitized
      else if isSrc then .tainted
      else usedState taintNodes .untainted snode.useVars
    lineNumber := snode.lineNumber
    isSource := isSrc
    isSink := self.sinkReg.isSink snode.label
    isSanitizer := isSan
    label := snode.label }

/-- Source: `analysis/taint/propagator.py`, `propagate_taint`. Kind: D -/
def propagateNode (self : TaintPropagator) (taintNodes : Dict String TaintNode) (snode : SSANode) : Dict String TaintNode :=
  match snode.target with
  | none => taintNodes
  | some target => taintNodes.set target.ssaName (self.taintNode taintNodes snode target)

/-- The data flow graph is not read. Source: `analysis/taint/propagator.py`, `propagate_taint`. Kind: D -/
def propagateTaint (self : TaintPropagator) (ssaFunc : SSAFunction) : Dict String TaintNode :=
  ssaFunc.nodes.foldl self.propagateNode .empty

/-! ## What they are about -/

/-- A node with the label of a sanitizer stands here. Kind: D -/
def Sanitizes (self : TaintPropagator) (ssaFunc : SSAFunction) (p : Point) : Prop :=
  ∃ n v, ssaFunc.Assigns n v ∧ p = .variable v.ssaName ∧ self.sanitizerReg.isSanitizer n.label = true

/-- A path leads on and no node of it sanitizes, the ends included. Kind: D -/
def Clean (self : TaintPropagator) (ssaFunc : SSAFunction) (dfg : DataFlowGraph) (p q : Point) : Prop :=
  ¬self.Sanitizes ssaFunc p ∧ ReflTransGen (fun a b => Flows ssaFunc dfg a b ∧ ¬self.Sanitizes ssaFunc b) p q

theorem Clean.trans {self : TaintPropagator} {ssaFunc : SSAFunction} {dfg : DataFlowGraph} {p q r : Point}
    (h : self.Clean ssaFunc dfg p q) (hnext : self.Clean ssaFunc dfg q r) : self.Clean ssaFunc dfg p r :=
  ⟨h.1, h.2.trans hnext.2⟩

/-- Where a taint node comes from. Kind: D -/
structure Explained (propagator : TaintPropagator) (ssaFunc : SSAFunction) (dfg : DataFlowGraph) (name : String)
    (t : TaintNode) : Prop where
  node : ∃ n v, ssaFunc.Assigns n v ∧ name = v.ssaName ∧ t.varName = v.ssaName ∧
    t.isSource = propagator.sourceReg.isSource n.label ∧ t.isSink = propagator.sinkReg.isSink n.label ∧
    t.isSanitizer = propagator.sanitizerReg.isSanitizer n.label
  sanitized : t.state = .sanitized → ∃ n v, ssaFunc.Assigns n v ∧ propagator.sanitizerReg.isSanitizer n.label = true
  tainted : t.state = .tainted → ∃ n v, ssaFunc.Assigns n v ∧ propagator.sourceReg.isSource n.label = true ∧
    propagator.Clean ssaFunc dfg (.variable v.ssaName) (.variable t.varName)

end TaintPropagator

/-! ## Versions and their names -/

theorem ssaName_injective : Function.Injective SSAVar.ssaName := by
  rintro ⟨base, version⟩ ⟨base', version'⟩ h
  have hchars : base.toList ++ '_' :: (toString version).toList = base'.toList ++ '_' :: (toString version').toList := by
    have hlist := congrArg String.toList h
    have hsep : "_".toList = ['_'] := rfl
    simp only [SSAVar.ssaName, String.toList_append, List.append_assoc, hsep] at hlist
    exact hlist
  have hdigits : ∀ k : ℕ, '_' ∉ (toString k).toList := fun k hmem => absurd (isDigit_of_mem_toString hmem) (by decide)
  obtain ⟨hbase, hversion⟩ := append_last_sep_inj (hdigits version) (hdigits version') hchars
  rw [String.toList_injective hbase, toString_nat_inj (String.toList_injective hversion)]

/-- A version has an underscore in its name. Kind: L -/
theorem underscore_mem_ssaName (v : SSAVar) : '_' ∈ v.ssaName.toList := by simp [SSAVar.ssaName]

/-- The node of a version is the only one. Kind: L -/
theorem SSAFunction.Assigns.unique {ssaFunc : SSAFunction} {m n : SSANode} {u v : SSAVar} (hm : ssaFunc.Assigns m u)
    (hn : ssaFunc.Assigns n v) (hname : u.ssaName = v.ssaName) : m = n := by
  obtain rfl := ssaName_injective hname
  have hpairwise := List.pairwise_filterMap.mp ssaFunc.single
  by_contra hne
  have hsymm : Std.Symm fun a b : SSANode => ∀ x ∈ a.target, ∀ y ∈ b.target, x ≠ y :=
    ⟨fun _ _ h x hx y hy => (h y hy x hx).symm⟩
  exact hpairwise.forall hm.1 hn.1 hne u hm.2 u hn.2 rfl

/-! ## The propagation -/

namespace TaintPropagator

variable {self : TaintPropagator} {ssaFunc : SSAFunction} {dfg : DataFlowGraph} {taintNodes : Dict String TaintNode}

/-- The state from the used versions is that of one of them, or the one before. Kind: L -/
theorem usedState_cases (taintNodes : Dict String TaintNode) (state : TaintState) (useVars : List SSAVar) :
    usedState taintNodes state useVars = state ∨ ∃ u ∈ useVars, ∃ parent, taintNodes.get? u.ssaName = some parent ∧
      parent.state = usedState taintNodes state useVars := by
  induction useVars generalizing state with
  | nil => exact .inl rfl
  | cons uvar rest ih =>
    have hrest : ∀ {s}, (∃ u ∈ rest, ∃ parent, taintNodes.get? u.ssaName = some parent ∧ parent.state = s) →
        ∃ u ∈ uvar :: rest, ∃ parent, taintNodes.get? u.ssaName = some parent ∧ parent.state = s :=
      fun ⟨u, hu, h⟩ => ⟨u, List.mem_cons_of_mem _ hu, h⟩
    rw [usedState]
    rcases hparent : taintNodes.get? uvar.ssaName with _ | parent
    · exact (ih state).imp id hrest
    · grind

/-- A node is explained by its label and the nodes before it. Kind: L -/
theorem explained_taintNode {n : SSANode} {v : SSAVar} (hassigns : ssaFunc.Assigns n v)
    (hbefore : ∀ name t, taintNodes.get? name = some t → self.Explained ssaFunc dfg name t) :
    self.Explained ssaFunc dfg v.ssaName (self.taintNode taintNodes n v) := by
  have hsan : self.sanitizerReg.isSanitizer n.label = false → ¬self.Sanitizes ssaFunc (.variable v.ssaName) := by
    rintro hlabel ⟨m, u, hm, heq, hmlabel⟩
    rw [hassigns.unique hm (Point.variable.inj heq), hmlabel] at hlabel
    cases hlabel
  refine ⟨⟨n, v, hassigns, rfl, rfl, rfl, rfl, rfl⟩, fun hstate => ?_, fun hstate => ?_⟩
  all_goals
    dsimp only [taintNode] at hstate
    split_ifs at hstate with hlabel hsource
  · exact ⟨n, v, hassigns, hlabel⟩
  · -- a used version is sanitized
    rcases usedState_cases taintNodes .untainted n.useVars with h | ⟨u, hu, parent, hparent, hsame⟩
    · rw [h] at hstate
      cases hstate
    · exact (hbefore _ parent hparent).sanitized (hsame.trans hstate)
  · exact ⟨n, v, hassigns, hsource, hsan (Bool.eq_false_of_not_eq_true hlabel), .refl⟩
  · -- the value of a used version flows on
    rcases usedState_cases taintNodes .untainted n.useVars with h | ⟨u, hu, parent, hparent, hsame⟩
    · rw [h] at hstate
      cases hstate
    · have hexplained := hbefore _ parent hparent
      obtain ⟨s, w, hs, hsource', hclean⟩ := hexplained.tainted (hsame.trans hstate)
      obtain ⟨-, u', -, hu', hname, -⟩ := hexplained.node
      refine ⟨s, w, hs, hsource', hclean.1, hclean.2.tail ⟨?_, hsan (Bool.eq_false_of_not_eq_true hlabel)⟩⟩
      rw [hname, ← hu']
      exact .use hassigns hu

/-- **Every taint node is explained.** Source: `analysis/taint/propagator.py`, `propagate_taint`. Kind: P -/
theorem explained_propagateTaint (dfg : DataFlowGraph) {name : String} {t : TaintNode}
    (h : (self.propagateTaint ssaFunc).get? name = some t) : self.Explained ssaFunc dfg name t := by
  refine List.foldlRecOn ssaFunc.nodes self.propagateNode
    (motive := fun d => ∀ name t, d.get? name = some t → self.Explained ssaFunc dfg name t) ?_ ?_ name t h
  · simp
  · intro taintNodes hbefore n hn name t hget
    unfold propagateNode at hget
    rcases htarget : n.target with _ | v
    · rw [htarget] at hget
      exact hbefore name t hget
    · rw [htarget, Dict.get?_set] at hget
      split_ifs at hget with hname
      · obtain rfl := Option.some.inj hget
        rw [hname]
        exact explained_taintNode ⟨hn, htarget⟩ hbefore
      · exact hbefore name t hget

theorem mem_keys_propagateTaint (self : TaintPropagator) {n : SSANode} {v : SSAVar} (h : ssaFunc.Assigns n v) :
    v.ssaName ∈ (self.propagateTaint ssaFunc).keys := by
  have hkeys : ∀ (l : List SSANode) (d : Dict String TaintNode), v.ssaName ∈ d.keys ∨ n ∈ l →
      v.ssaName ∈ (l.foldl self.propagateNode d).keys := by
    intro l
    induction l with
    | nil => exact fun d hd => hd.resolve_right List.not_mem_nil
    | cons m l ih =>
      intro d hd
      refine ih _ ?_
      unfold propagateNode
      rcases hd with hd | hm
      · grind [Dict.mem_keys_set]
      · rcases List.mem_cons.mp hm with rfl | hm
        · rw [h.2]
          exact .inl (Dict.mem_keys_set.mpr (.inl rfl))
        · exact .inr hm
  exact hkeys _ _ (.inr h.1)

/-- **Every node that assigns has its taint node.** Source: `analysis/taint/propagator.py`, `propagate_taint`. Kind: P -/
theorem exists_taintNode (self : TaintPropagator) {n : SSANode} {v : SSAVar} (h : ssaFunc.Assigns n v) :
    ∃ t ∈ (self.propagateTaint ssaFunc).values, t.varName = v.ssaName ∧ t.isSource = self.sourceReg.isSource n.label ∧
      t.isSink = self.sinkReg.isSink n.label ∧ t.isSanitizer = self.sanitizerReg.isSanitizer n.label := by
  obtain ⟨t, hget⟩ := Option.isSome_iff_exists.mp (Dict.get?_isSome.mpr (mem_keys_propagateTaint self h))
  obtain ⟨m, u, hm, hname, hvar, hsource, hsink, hsanitizer⟩ :=
    (explained_propagateTaint { functionName := "" } hget).node
  obtain rfl := h.unique hm hname
  exact ⟨t, Dict.mem_values.mpr ⟨_, hget⟩, hvar.trans hname.symm, hsource, hsink, hsanitizer⟩

end TaintPropagator

end KarsaSec.Taint
