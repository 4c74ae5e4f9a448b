import KarsaSec.Dataflow.CallComponents
import KarsaSec.Dataflow.FunctionSummary

/-!
# The interprocedural solver

`graph/dataflow/interprocedural_solver.py`: the functions of a call graph are analysed component by component, a recursive
component until no fingerprint changes.

* `analyze` is the analysis of one registered body. `analyzeSingleNode`, `initialSummary`, `promoted` and `fallback` are the
  four summaries a function can get.
* `solve_spec` says which of them each function has in the end: a recursive component is settled in its second round.
* `justified_iff`: a summary claims no more than was analysed exactly where recursive functions are registered and their
  analyses complete, or fewer than two rounds are allowed.
-/

namespace KarsaSec.Dataflow

open KarsaSec.Found Relation

/-- What is registered of a function. Source: `interprocedural_solver.py`, `register_function_ast`. Kind: D -/
structure AstInfo (σ : Type) where
  filePath : String
  functionName : String
  statements : List σ
  parameters : List String

/-- Source: `interprocedural_solver.py`, `InterproceduralSolver`. Kind: D -/
structure InterproceduralSolver (σ : Type) where
  maxSccIterations : ℤ := 32
  summaries : Dict String FunctionSummary
  astRegistry : Dict String (AstInfo σ)

namespace InterproceduralSolver

variable {σ : Type} (sha256 : String → String) (analyze : AstInfo σ → FunctionSummary) (self : InterproceduralSolver σ)

/-- The name at the end of an identifier. Source: `interprocedural_solver.py`, `node_id.split("::")[-1]`. Kind: D -/
def lastPart (nodeId : String) : String := (nodeId.splitOn "::").getLastD ""

/-- Source: `interprocedural_solver.py`, `_analyze_single_node`. Kind: D -/
def analyzeSingleNode (nodeId : String) : FunctionSummary :=
  match self.astRegistry.get? nodeId with
  | none =>
    { functionName := lastPart nodeId
      filePath := ""
      parameters := []
      pathSummaries := [{ pathId := "unresolved_ast", taintState := .unknown }]
      status := .unknown
      isComplete := false }
  | some astInfo => analyze astInfo

/-- The summary of a member before the first round. Source: `interprocedural_solver.py`, `_solve_recursive_scc`. Kind: D -/
def initialSummary (nodeId : String) : FunctionSummary where
  functionName := ((self.astRegistry.get? nodeId).map AstInfo.functionName).getD (lastPart nodeId)
  filePath := ((self.astRegistry.get? nodeId).map AstInfo.filePath).getD ""
  parameters := ((self.astRegistry.get? nodeId).map AstInfo.parameters).getD []
  pathSummaries := [{ pathId := "initial_scc_approx", taintState := .unknown }]
  status := .partial_
  isComplete := false
  isRecursive := true

/-- The summary of a member in each round. Source: `interprocedural_solver.py`, `_solve_recursive_scc`. Kind: D -/
def promoted (nodeId : String) : FunctionSummary :=
  let newSummary := self.analyzeSingleNode analyze nodeId
  { functionName := newSummary.functionName
    filePath := newSummary.filePath
    parameters := newSummary.parameters
    pathSummaries := newSummary.pathSummaries
    sinkEffects := newSummary.sinkEffects
    status := .precise
    isComplete := true
    isRecursive := true }

/-- The summary of a member after too many rounds. Source: `interprocedural_solver.py`, `_solve_recursive_scc`. Kind: D -/
def fallback (existing : FunctionSummary) : FunctionSummary where
  functionName := existing.functionName
  filePath := existing.filePath
  parameters := existing.parameters
  pathSummaries := [{ pathId := "non_converged_fallback", taintState := .unknown }]
  status := .nonConverged
  isComplete := false
  isRecursive := true

/-- One member in one round; the flag says whether a summary changed.
Source: `interprocedural_solver.py`, `_solve_recursive_scc`
Kind: D -/
def revise (acc : Dict String FunctionSummary × Bool) (nodeId : String) : Option (Dict String FunctionSummary × Bool) := do
  let old ← acc.1.get? nodeId
  let newSummary := self.promoted analyze nodeId
  if newSummary.semanticFingerprint sha256 ≠ old.semanticFingerprint sha256 then
    some (acc.1.set nodeId newSummary, true)
  else some acc

/-- The rounds; the flag says whether the last one changed nothing.
Source: `interprocedural_solver.py`, `_solve_recursive_scc`
Kind: D -/
def rounds (scc : List String) : ℕ → Dict String FunctionSummary → Option (Dict String FunctionSummary × Bool)
  | 0, summaries => some (summaries, false)
  | n + 1, summaries => do
    let (revised, changed) ← (sortStrings scc).foldlM (self.revise sha256 analyze) (summaries, false)
    if changed then rounds scc n revised else some (revised, true)

/-- A member falls back. Source: `interprocedural_solver.py`, `_solve_recursive_scc`. Kind: D -/
def fallBack (summaries : Dict String FunctionSummary) (nodeId : String) : Option (Dict String FunctionSummary) := do
  let existing ← summaries.get? nodeId
  some (summaries.set nodeId (fallback existing))

/-- Source: `interprocedural_solver.py`, `_solve_recursive_scc`. Kind: D -/
def solveRecursiveScc (summaries : Dict String FunctionSummary) (scc : List String) :
    Option (Dict String FunctionSummary) := do
  let initial := scc.foldl (fun d nodeId => d.set nodeId (self.initialSummary nodeId)) summaries
  let (settled, converged) ← self.rounds sha256 analyze scc self.maxSccIterations.toNat initial
  if converged then some settled else scc.foldlM fallBack settled

/-- Source: `interprocedural_solver.py`, `is_recursive_scc`. Kind: D -/
def isRecursiveScc (callGraph : CallGraph) (scc : List String) : Bool :=
  scc.length > 1 || scc.any fun nodeId => (callGraph.outgoing.getD nodeId []).any fun edge => edge.calleeId = edge.callerId

/-- One component. Source: `interprocedural_solver.py`, `solve`. Kind: D -/
def solveScc (callGraph : CallGraph) (summaries : Dict String FunctionSummary) (scc : List String) :
    Option (Dict String FunctionSummary) :=
  if isRecursiveScc callGraph scc then self.solveRecursiveScc sha256 analyze summaries scc
  else
    match scc with
    | [] => none
    | nodeId :: _ => some (summaries.set nodeId (self.analyzeSingleNode analyze nodeId))

/-- Source: `interprocedural_solver.py`, `solve`. Kind: D -/
def solve (callGraph : CallGraph) : Option (Dict String FunctionSummary) := do
  let sccs ← callGraph.stronglyConnectedComponents
  sccs.foldlM (self.solveScc sha256 analyze callGraph) self.summaries

/-! ## One component -/

section component

variable {sha256 analyze self} {scc : List String} {summaries : Dict String FunctionSummary}

theorem get?_initial (l : List String) (summaries : Dict String FunctionSummary) (y : String) :
    (l.foldl (fun d nodeId => d.set nodeId (self.initialSummary nodeId)) summaries).get? y =
      if y ∈ l then some (self.initialSummary y) else summaries.get? y := by
  induction l generalizing summaries with
  | nil => rfl
  | cons x l ih =>
    rw [List.foldl_cons, ih, Dict.get?_set]
    by_cases hl : y ∈ l
    · rw [if_pos hl, if_pos (List.mem_cons_of_mem _ hl)]
    by_cases hy : y = x
    · rw [if_neg hl, if_pos hy, hy, if_pos List.mem_cons_self]
    · simp_all

theorem fallBacks (l : List String) (h : ∀ y ∈ l, (summaries.get? y).isSome) :
    ∃ settled, l.foldlM fallBack summaries = some settled ∧ (∀ y ∈ l, ∃ v, settled.get? y = some (fallback v)) ∧
      ∀ y ∉ l, settled.get? y = summaries.get? y := by
  induction l generalizing summaries with
  | nil => exact ⟨summaries, rfl, fun y hy => absurd hy List.not_mem_nil, fun y _ => rfl⟩
  | cons x l ih =>
    obtain ⟨v, hv⟩ := Option.isSome_iff_exists.mp (h x List.mem_cons_self)
    have htail : ∀ y ∈ l, ((summaries.set x (fallback v)).get? y).isSome := by grind [Dict.get?_set]
    obtain ⟨settled, hrun, hall, hrest⟩ := ih htail
    refine ⟨settled, ?_, fun y hy => ?_, fun y hy => ?_⟩
    · rw [List.foldlM_cons, fallBack, hv]
      exact hrun
    · grind [Dict.get?_set_self]
    · simp_all [Dict.get?_set_ne]

/-- A member is ready for a round: its summary is the one of the round, or not yet precise. Kind: D -/
def Ready (analyze : AstInfo σ → FunctionSummary) (self : InterproceduralSolver σ) (summaries : Dict String FunctionSummary)
    (y : String) : Prop :=
  ∃ v, summaries.get? y = some v ∧ (v = self.promoted analyze y ∨ v.status ≠ .precise)

theorem revise_settled {y : String} {b : Bool} (h : summaries.get? y = some (self.promoted analyze y)) :
    self.revise sha256 analyze (summaries, b) y = some (summaries, b) := by
  unfold revise
  simp [h]

/-- A summary that is not precise has another fingerprint, so it is replaced. Kind: L -/
theorem revise_new (hsha : Function.Injective sha256) {y : String} {b : Bool} {v : FunctionSummary}
    (h : summaries.get? y = some v) (hv : v.status ≠ .precise) :
    self.revise sha256 analyze (summaries, b) y = some (summaries.set y (self.promoted analyze y), true) := by
  have hne : (self.promoted analyze y).semanticFingerprint sha256 ≠ v.semanticFingerprint sha256 := fun heq =>
    hv (FunctionSummary.status_of_semanticFingerprint hsha heq).symm
  unfold revise
  simp [h, hne]

/-- After a round every member has the summary of the round, and something changed unless all had it before. Kind: L -/
theorem revises (hsha : Function.Injective sha256) (l : List String) {b : Bool} (h : ∀ y ∈ l, Ready analyze self summaries y) :
    ∃ revised changed, l.foldlM (self.revise sha256 analyze) (summaries, b) = some (revised, changed) ∧
      (∀ y ∈ l, revised.get? y = some (self.promoted analyze y)) ∧ (∀ y ∉ l, revised.get? y = summaries.get? y) ∧
        (changed = true ↔ b = true ∨ ∃ y ∈ l, summaries.get? y ≠ some (self.promoted analyze y)) := by
  induction l generalizing summaries b with
  | nil =>
    refine ⟨summaries, b, rfl, fun y hy => absurd hy List.not_mem_nil, fun y _ => rfl, ?_⟩
    exact ⟨.inl, fun h => h.elim id fun ⟨y, hy, _⟩ => absurd hy List.not_mem_nil⟩
  | cons x l ih =>
    obtain ⟨v, hv, hcases⟩ := h x List.mem_cons_self
    by_cases hsame : v = self.promoted analyze x
    · obtain ⟨revised, changed, hrun, hall, hrest, hchanged⟩ := ih (b := b) fun y hy => h y (List.mem_cons_of_mem _ hy)
      have hx : summaries.get? x = some (self.promoted analyze x) := hsame ▸ hv
      refine ⟨revised, changed, ?_, fun y hy => ?_, fun y hy => ?_, hchanged.trans (or_congr_right ?_)⟩
      · rw [List.foldlM_cons, revise_settled hx]
        exact hrun
      · grind
      · exact hrest y fun hl => hy (List.mem_cons_of_mem _ hl)
      · rw [List.exists_mem_cons_iff]
        exact (or_iff_right fun hne => hne hx).symm
    · have hnew : v.status ≠ .precise := hcases.resolve_left hsame
      have htail : ∀ y ∈ l, Ready analyze self (summaries.set x (self.promoted analyze x)) y := by
        intro y hy
        by_cases hyx : y = x
        · rw [hyx]
          exact ⟨_, Dict.get?_set_self _ _ _, .inl rfl⟩
        · obtain ⟨w, hw, hwcases⟩ := h y (List.mem_cons_of_mem _ hy)
          exact ⟨w, (Dict.get?_set_ne _ hyx _).trans hw, hwcases⟩
      obtain ⟨revised, changed, hrun, hall, hrest, hchanged⟩ := ih (b := true) htail
      refine ⟨revised, changed, ?_, fun y hy => ?_, fun y hy => ?_, ?_⟩
      · rw [List.foldlM_cons, revise_new hsha hv hnew]
        exact hrun
      · grind [Dict.get?_set_self]
      · obtain ⟨hne, hl⟩ := not_or.mp fun hor => hy (List.mem_cons.mpr hor)
        rw [hrest y hl, Dict.get?_set_ne _ hne]
      · refine iff_of_true (hchanged.mpr (.inl rfl)) (.inr ⟨x, List.mem_cons_self, fun heq => hsame ?_⟩)
        rw [hv] at heq
        exact Option.some.inj heq

/-- What becomes of a member of a recursive component. Kind: D -/
def RecursiveOutcome (analyze : AstInfo σ → FunctionSummary) (self : InterproceduralSolver σ) (y : String)
    (v : FunctionSummary) : Prop :=
  if 2 ≤ self.maxSccIterations then v = self.promoted analyze y
  else v.status = .nonConverged ∧ v.isComplete = false

/-- The first round changes every summary and the second none. Kind: L -/
theorem rounds_spec (self : InterproceduralSolver σ) (analyze : AstInfo σ → FunctionSummary)
    (hsha : Function.Injective sha256) (hne : scc ≠ [])
    (h : ∀ y ∈ scc, ∃ v, summaries.get? y = some v ∧ v.status ≠ .precise) (n : ℕ) :
    ∃ settled, self.rounds sha256 analyze scc n summaries = some (settled, decide (2 ≤ n)) ∧
      (∀ y ∈ scc, (settled.get? y).isSome ∧ (2 ≤ n → settled.get? y = some (self.promoted analyze y))) ∧
        ∀ y ∉ scc, settled.get? y = summaries.get? y := by
  have hmem : ∀ {y}, y ∈ sortStrings scc ↔ y ∈ scc := List.mem_insertionSort _
  rcases n with _ | n
  · refine ⟨summaries, rfl, fun y hy => ?_, fun y _ => rfl⟩
    obtain ⟨v, hv, -⟩ := h y hy
    exact ⟨hv ▸ rfl, fun htwo => absurd htwo (by decide)⟩
  have hready : ∀ y ∈ sortStrings scc, Ready analyze self summaries y := by
    intro y hy
    obtain ⟨v, hv, hstatus⟩ := h y (hmem.mp hy)
    exact ⟨v, hv, .inr hstatus⟩
  obtain ⟨first, changed, hfirst, hall, hrest, hchanged⟩ := revises (b := false) hsha (sortStrings scc) hready
  have htrue : changed = true := by
    obtain ⟨x, hx⟩ := List.exists_mem_of_ne_nil scc hne
    obtain ⟨v, hv, hstatus⟩ := h x hx
    refine hchanged.mpr (.inr ⟨x, hmem.mpr hx, fun heq => hstatus ?_⟩)
    rw [hv] at heq
    rw [Option.some.inj heq]
    rfl
  have hone : self.rounds sha256 analyze scc (n + 1) summaries = self.rounds sha256 analyze scc n first := by
    rw [rounds, hfirst, htrue]
    rfl
  rw [hone]
  rcases n with _ | n
  · refine ⟨first, rfl, fun y hy => ?_, fun y hy => hrest y fun hl => hy (hmem.mp hl)⟩
    rw [hall y (hmem.mpr hy)]
    exact ⟨rfl, fun _ => rfl⟩
  · have hready' : ∀ y ∈ sortStrings scc, Ready analyze self first y := fun y hy => ⟨_, hall y hy, .inl rfl⟩
    obtain ⟨second, changed', hsecond, hall', hrest', hchanged'⟩ := revises (b := false) hsha (sortStrings scc) hready'
    have hfalse : changed' = false := by grind
    have htwo : self.rounds sha256 analyze scc (n + 1) first = some (second, true) := by
      rw [rounds, hsecond, hfalse]
      rfl
    rw [htwo]
    refine ⟨second, ?_, fun y hy => ?_, fun y hy => ?_⟩
    · rw [decide_eq_true (by omega)]
    · rw [hall' y (hmem.mpr hy)]
      exact ⟨rfl, fun _ => rfl⟩
    · rw [hrest' y fun hl => hy (hmem.mp hl), hrest y fun hl => hy (hmem.mp hl)]

/-- Source: `interprocedural_solver.py`, `_solve_recursive_scc`. Kind: L -/
theorem solveRecursiveScc_spec (self : InterproceduralSolver σ) (analyze : AstInfo σ → FunctionSummary)
    (hsha : Function.Injective sha256) (hne : scc ≠ []) :
    ∃ settled, self.solveRecursiveScc sha256 analyze summaries scc = some settled ∧
      (∀ y ∈ scc, ∃ v, settled.get? y = some v ∧ RecursiveOutcome analyze self y v) ∧
        ∀ y ∉ scc, settled.get? y = summaries.get? y := by
  have hstart : ∀ y ∈ scc, ∃ v, (scc.foldl (fun d nodeId => d.set nodeId (self.initialSummary nodeId)) summaries).get? y =
      some v ∧ v.status ≠ .precise := by
    intro y hy
    refine ⟨self.initialSummary y, ?_, fun h => nomatch h⟩
    rw [get?_initial, if_pos hy]
  obtain ⟨settled, hrounds, hall, hrest⟩ := rounds_spec self analyze hsha hne hstart
    self.maxSccIterations.toNat
  have hkept : ∀ y ∉ scc, settled.get? y = summaries.get? y := by
    intro y hy
    rw [hrest y hy, get?_initial, if_neg hy]
  by_cases htwo : 2 ≤ self.maxSccIterations.toNat
  · refine ⟨settled, ?_, fun y hy => ⟨_, (hall y hy).2 htwo, ?_⟩, hkept⟩
    · unfold solveRecursiveScc
      dsimp only
      rw [hrounds, decide_eq_true htwo]
      rfl
    · unfold RecursiveOutcome
      rw [if_pos (by omega)]
  · obtain ⟨final, hfinal, hfallen, hkept'⟩ := fallBacks scc fun y hy => (hall y hy).1
    refine ⟨final, ?_, fun y hy => ?_, fun y hy => (hkept' y hy).trans (hkept y hy)⟩
    · unfold solveRecursiveScc
      dsimp only
      rw [hrounds, decide_eq_false htwo]
      exact hfinal
    · obtain ⟨v, hv⟩ := hfallen y hy
      refine ⟨_, hv, ?_⟩
      unfold RecursiveOutcome
      rw [if_neg (by omega)]
      exact ⟨rfl, rfl⟩

/-- What becomes of a function. Kind: D -/
def Outcome (analyze : AstInfo σ → FunctionSummary) (self : InterproceduralSolver σ) (recursive : Bool) (y : String)
    (v : FunctionSummary) : Prop :=
  if recursive then RecursiveOutcome analyze self y v else v = self.analyzeSingleNode analyze y

theorem solveScc_spec (self : InterproceduralSolver σ) (analyze : AstInfo σ → FunctionSummary)
    (summaries : Dict String FunctionSummary) (hsha : Function.Injective sha256) (g : CallGraph) (hne : scc ≠ []) :
    ∃ settled, self.solveScc sha256 analyze g summaries scc = some settled ∧
      (∀ y ∈ scc, ∃ v, settled.get? y = some v ∧ Outcome analyze self (isRecursiveScc g scc) y v) ∧
        ∀ y ∉ scc, settled.get? y = summaries.get? y := by
  unfold solveScc Outcome
  by_cases hrecursive : isRecursiveScc g scc = true
  · simp_all [solveRecursiveScc_spec]
  · simp only [hrecursive, Bool.false_eq_true, if_false]
    rcases scc with _ | ⟨x, rest⟩
    · exact absurd rfl hne
    have hrest : rest = [] := by
      by_contra hcons
      refine hrecursive (Bool.or_eq_true_iff.mpr (.inl (decide_eq_true ?_)))
      have := List.length_pos_iff.mpr hcons
      rw [List.length_cons]
      omega
    subst hrest
    refine ⟨_, rfl, fun y hy => ?_, fun y hy => ?_⟩
    · simp_all
    · simp_all [Dict.get?_set_ne]

/-- The components after each other: each function has its outcome. Kind: L -/
theorem solveSccs_spec (self : InterproceduralSolver σ) (analyze : AstInfo σ → FunctionSummary)
    (summaries : Dict String FunctionSummary) (hsha : Function.Injective sha256) (g : CallGraph) (sccs : List (List String))
    (hne : [] ∉ sccs) (hnodup : sccs.flatten.Nodup) :
    ∃ settled, sccs.foldlM (self.solveScc sha256 analyze g) summaries = some settled ∧
      (∀ C ∈ sccs, ∀ y ∈ C, ∃ v, settled.get? y = some v ∧ Outcome analyze self (isRecursiveScc g C) y v) ∧
        ∀ y ∉ sccs.flatten, settled.get? y = summaries.get? y := by
  induction sccs generalizing summaries with
  | nil => exact ⟨summaries, rfl, fun C hC => absurd hC List.not_mem_nil, fun y _ => rfl⟩
  | cons C sccs ih =>
    rw [List.flatten_cons] at hnodup
    obtain ⟨-, hrestnodup, hdisjoint⟩ := List.nodup_append.mp hnodup
    have hC : C ≠ [] := fun heq => hne (heq ▸ List.mem_cons_self)
    obtain ⟨first, hfirst, hall, hkept⟩ := solveScc_spec self analyze summaries hsha g hC
    obtain ⟨settled, hrun, hrest, hunchanged⟩ :=
      ih first (fun hmem => hne (List.mem_cons_of_mem _ hmem)) hrestnodup
    refine ⟨settled, ?_, fun D hD y hy => ?_, fun y hy => ?_⟩
    · rw [List.foldlM_cons, hfirst]
      exact hrun
    · rcases List.mem_cons.mp hD with rfl | hD
      · rw [hunchanged y fun hmem => hdisjoint y hy y hmem rfl]
        exact hall y hy
      · exact hrest D hD y hy
    · rw [List.flatten_cons, List.mem_append, not_or] at hy
      rw [hunchanged y hy.2, hkept y hy.1]

end component

/-! ## Recursive components -/

/-- A component is recursive when its functions lead back to themselves. Kind: L -/
theorem isRecursiveScc_iff {g : CallGraph} {sccs : List (List String)} (h : Search.AreComponents g.Calls g.nodes.keys sccs)
    {C : List String} (hC : C ∈ sccs) {n : String} (hn : n ∈ C) : isRecursiveScc g C = true ↔ TransGen g.Calls n n := by
  have hnode : ∀ {D x}, D ∈ sccs → x ∈ D → x ∈ g.nodes.keys := fun hD hx =>
    h.partition.mem_iff.mp (List.mem_flatten_of_mem hD hx)
  have hnodup : sccs.flatten.Nodup := h.partition.nodup_iff.mpr g.nodes.nodup_keys
  have hmutual : ∀ {x}, x ∈ C → ReflTransGen g.Calls n x ∧ ReflTransGen g.Calls x n := fun hx =>
    (h.share _ (hnode hC hn) _ (hnode hC hx)).mp ⟨C, hC, hn, hx⟩
  unfold isRecursiveScc
  rw [Bool.or_eq_true_iff, decide_eq_true_iff, List.any_eq_true]
  constructor
  · rintro (hlength | ⟨x, hx, hself⟩)
    · -- another member leads there and back
      obtain ⟨m, hm, hne⟩ : ∃ m ∈ C, m ≠ n := by
        by_contra hall
        push Not at hall
        have hsub := (List.nodup_flatten.mp hnodup).1 C hC |>.subperm fun x hx => List.mem_singleton.mpr (hall x hx)
        have := hsub.length_le
        rw [List.length_singleton] at this
        omega
      obtain ⟨hto, hback⟩ := hmutual hm
      rcases reflTransGen_iff_eq_or_transGen.mp hto with heq | hto
      · exact absurd heq hne
      · exact hto.trans_left hback
    · obtain ⟨edge, hedge, heq⟩ := List.any_eq_true.mp hself
      rw [g.outgoing_eq] at hedge
      obtain ⟨hmem, hcaller⟩ := List.mem_filter.mp hedge
      have hcaller := of_decide_eq_true hcaller
      have hcall : g.Calls x x :=
        ⟨hnode hC hx, hnode hC hx, edge, hmem, hcaller, (of_decide_eq_true heq).trans hcaller⟩
      obtain ⟨hto, hback⟩ := hmutual hx
      exact (TransGen.trans_right hto (.single hcall)).trans_left hback
  · intro hloop
    obtain ⟨w, hcall, hback⟩ := TransGen.head'_iff.mp hloop
    obtain ⟨D, hD, hnD, hwD⟩ := (h.share n (hnode hC hn) w hcall.2.1).mpr ⟨.single hcall, hback⟩
    obtain rfl : C = D := by
      by_contra hne
      have : Std.Symm (@List.Disjoint String) := ⟨fun _ _ hdisjoint => hdisjoint.symm⟩
      exact (List.nodup_flatten.mp hnodup).2.forall hC hD hne hn hnD
    by_cases hw : w = n
    · right
      obtain ⟨-, -, edge, hmem, hcaller, hcallee⟩ := hcall
      refine ⟨n, hn, List.any_eq_true.mpr ⟨edge, ?_, decide_eq_true (hcallee.trans (hw.trans hcaller.symm))⟩⟩
      rw [g.outgoing_eq]
      exact List.mem_filter.mpr ⟨hmem, decide_eq_true hcaller⟩
    · left
      have hpair : [w, n].Nodup := by simp [hw]
      have := (hpair.subperm fun x hx => by
        rcases List.mem_cons.mp hx with rfl | hx
        · exact hwD
        · exact List.mem_singleton.mp hx ▸ hn : [w, n].Subperm C).length_le
      exact this

/-! ## What the summaries claim -/

variable {sha256 analyze self}

/-- A summary that claims to be precise or complete is one of a registered body that was analysed completely, and of callees
in its component that are precise. Source: `interprocedural_solver.py`, `solve`. Kind: D -/
def Justified (analyze : AstInfo σ → FunctionSummary) (self : InterproceduralSolver σ) (g : CallGraph)
    (summaries : Dict String FunctionSummary) (n : String) : Prop :=
  ∀ v, summaries.get? n = some v → v.status = .precise ∨ v.isComplete = true →
    (∃ astInfo, self.astRegistry.get? n = some astInfo ∧ (analyze astInfo).isComplete = true) ∧
      ∀ c, g.Calls n c → ReflTransGen g.Calls c n → ∃ w, summaries.get? c = some w ∧ w.status = .precise

/-- A recursive function is registered and its analysis complete, unless fewer than two rounds are allowed; the analysis of
another is not called precise without being complete. Kind: D -/
def Supported (analyze : AstInfo σ → FunctionSummary) (self : InterproceduralSolver σ) (g : CallGraph) (n : String) : Prop :=
  (TransGen g.Calls n n → 2 ≤ self.maxSccIterations →
      ∃ astInfo, self.astRegistry.get? n = some astInfo ∧ (analyze astInfo).isComplete = true) ∧
    (¬TransGen g.Calls n n →
      ∀ astInfo, self.astRegistry.get? n = some astInfo → (analyze astInfo).status = .precise →
        (analyze astInfo).isComplete = true)

/-- Which summary each function of the graph gets. Source: `interprocedural_solver.py`, `solve`. Kind: P -/
theorem solve_spec (self : InterproceduralSolver σ) (analyze : AstInfo σ → FunctionSummary)
    (hsha : Function.Injective sha256) (g : CallGraph) :
    ∃ summaries, self.solve sha256 analyze g = some summaries ∧ ∀ n ∈ g.nodes.keys, ∃ v, summaries.get? n = some v ∧
      (TransGen g.Calls n n → RecursiveOutcome analyze self n v) ∧
        (¬TransGen g.Calls n n → v = self.analyzeSingleNode analyze n) := by
  obtain ⟨sccs, hsccs, hcomponents⟩ := g.components_areComponents
  have hnodup : sccs.flatten.Nodup := hcomponents.partition.nodup_iff.mpr g.nodes.nodup_keys
  obtain ⟨summaries, hrun, hall, -⟩ := solveSccs_spec self analyze self.summaries hsha g
    sccs hcomponents.nonempty hnodup
  refine ⟨summaries, ?_, fun n hn => ?_⟩
  · unfold solve
    rw [hsccs]
    exact hrun
  · obtain ⟨C, hC, hnC⟩ := List.mem_flatten.mp (hcomponents.partition.mem_iff.mpr hn)
    obtain ⟨v, hv, houtcome⟩ := hall C hC n hnC
    have hrecursive := isRecursiveScc_iff hcomponents hC hnC
    unfold Outcome at houtcome
    refine ⟨v, hv, fun hloop => ?_, fun hnot => ?_⟩
    · rwa [if_pos (hrecursive.mpr hloop)] at houtcome
    · rwa [if_neg fun h => hnot (hrecursive.mp h)] at houtcome

/-- A function that does not lead back to itself claims too much exactly when its analysis does. Kind: L -/
theorem justified_acyclic_iff {g : CallGraph} {summaries : Dict String FunctionSummary} {n : String}
    (hloop : ¬TransGen g.Calls n n) (h : summaries.get? n = some (self.analyzeSingleNode analyze n)) :
    Justified analyze self g summaries n ↔ Supported analyze self g n := by
  unfold Justified Supported
  rcases hinfo : self.astRegistry.get? n with _ | astInfo
  · refine iff_of_true (fun v hv hclaims => ?_) ⟨fun hyes => absurd hyes hloop, fun _ _ hsome => nomatch hsome⟩
    obtain rfl : self.analyzeSingleNode analyze n = v := Option.some.inj (h.symm.trans hv)
    unfold analyzeSingleNode at hclaims
    rw [hinfo] at hclaims
    rcases hclaims with hstatus | hcomplete
    · cases hstatus
    · cases hcomplete
  · have hanalysed : self.analyzeSingleNode analyze n = analyze astInfo := by
      unfold analyzeSingleNode
      rw [hinfo]
    constructor
    · refine fun hjustified => ⟨fun hyes => absurd hyes hloop, fun _ info hsome hprecise => ?_⟩
      obtain rfl : astInfo = info := Option.some.inj hsome
      obtain ⟨info', hsome', hcomplete⟩ := (hjustified _ h (.inl (hanalysed ▸ hprecise))).1
      rw [Option.some.inj hsome']
      exact hcomplete
    · grind [TransGen.head']

/-- **No summary claims more than was analysed exactly when the recursive functions are registered and analysed completely,
or fewer than two rounds are allowed.**
Source: `interprocedural_solver.py`, `solve`, `_solve_recursive_scc`
Kind: P -/
theorem justified_iff (hsha : Function.Injective sha256) (self : InterproceduralSolver σ)
    (analyze : AstInfo σ → FunctionSummary) (g : CallGraph) :
    ∃ summaries, self.solve sha256 analyze g = some summaries ∧ (∀ n ∈ g.nodes.keys, (summaries.get? n).isSome) ∧
      ((∀ n ∈ g.nodes.keys, Justified analyze self g summaries n) ↔ ∀ n ∈ g.nodes.keys, Supported analyze self g n) := by
  obtain ⟨summaries, hrun, hall⟩ := solve_spec self analyze hsha g
  refine ⟨summaries, hrun, fun n hn => ?_, ?_⟩
  · obtain ⟨v, hv, -⟩ := hall n hn
    exact hv ▸ rfl
  refine forall₂_congr fun n hn => ?_
  obtain ⟨v, hv, hrecursive, hacyclic⟩ := hall n hn
  by_cases hloop : TransGen g.Calls n n
  · have houtcome := hrecursive hloop
    unfold RecursiveOutcome at houtcome
    split_ifs at houtcome with htwo
    · -- promoted whatever was analysed
      subst houtcome
      constructor
      · intro hjustified
        exact ⟨fun _ _ => (hjustified _ hv (.inl rfl)).1, fun hnot => absurd hloop hnot⟩
      · rintro ⟨hsupported, -⟩ w hw -
        refine ⟨hsupported hloop htwo, fun c hcall hback => ?_⟩
        obtain ⟨u, hu, hcallee, -⟩ := hall c hcall.2.1
        have hcycle := hcallee (TransGen.tail' hback hcall)
        unfold RecursiveOutcome at hcycle
        rw [if_pos htwo] at hcycle
        exact ⟨u, hu, hcycle ▸ rfl⟩
    · refine iff_of_true (fun w hw hclaims => ?_) ⟨fun _ h => absurd h htwo, fun hnot => absurd hloop hnot⟩
      obtain rfl : v = w := Option.some.inj (hv.symm.trans hw)
      rcases hclaims with hstatus | hcomplete
      · rw [houtcome.1] at hstatus
        cases hstatus
      · rw [houtcome.2] at hcomplete
        cases hcomplete
  · exact justified_acyclic_iff hloop (hacyclic hloop ▸ hv)

/-- The summary of a body without a return. Source: `interprocedural_analyzer.py`, `analyze_function`. Kind: D -/
def defaultExit (astInfo : AstInfo String) : FunctionSummary where
  functionName := astInfo.functionName
  filePath := astInfo.filePath
  parameters := astInfo.parameters
  pathSummaries := [{ pathId := "default_exit", taintState := .untainted }]

/-- A function that calls itself. Kind: D -/
def selfCalling : CallGraph :=
  (CallGraph.empty.addFunction { nodeId := "a.php::f", filePath := "a.php", functionName := "f" }).addCall
    { callerId := "a.php::f", calleeId := "a.php::f", callSiteId := "c1" }

/-- Nothing is registered. Kind: D -/
def unregistered : InterproceduralSolver String where
  summaries := .empty
  astRegistry := .empty

theorem justified_iff_selfCalling :
    ∃ summaries, unregistered.solve id defaultExit selfCalling = some summaries ∧
      (∀ n ∈ selfCalling.nodes.keys, (summaries.get? n).isSome) ∧
        ((∀ n ∈ selfCalling.nodes.keys, Justified defaultExit unregistered selfCalling summaries n) ↔
          ∀ n ∈ selfCalling.nodes.keys, Supported defaultExit unregistered selfCalling n) :=
  justified_iff Function.injective_id _ _ _

/-- A recursive function that is not registered is called precise and complete. Kind: C -/
theorem unregistered_precise :
    ∃ summaries v, unregistered.solve id defaultExit selfCalling = some summaries ∧
      summaries.get? "a.php::f" = some v ∧ v.status = .precise ∧ v.isComplete = true ∧
        ¬Justified defaultExit unregistered selfCalling summaries "a.php::f" := by
  have hmem : "a.php::f" ∈ selfCalling.nodes.keys := by decide
  have hloop : TransGen selfCalling.Calls "a.php::f" "a.php::f" :=
    .single ⟨hmem, hmem, _, List.mem_singleton.mpr rfl, rfl, rfl⟩
  obtain ⟨summaries, hrun, hall⟩ := solve_spec unregistered defaultExit Function.injective_id selfCalling
  obtain ⟨v, hv, hrecursive, -⟩ := hall _ hmem
  have houtcome := hrecursive hloop
  unfold RecursiveOutcome at houtcome
  rw [if_pos (by decide)] at houtcome
  subst houtcome
  refine ⟨summaries, _, hrun, hv, rfl, rfl, fun hjustified => ?_⟩
  obtain ⟨⟨astInfo, hsome, -⟩, -⟩ := hjustified _ hv (.inl rfl)
  cases hsome

end InterproceduralSolver

end KarsaSec.Dataflow
