import KarsaSec.Dataflow.AbstractState
import KarsaSec.Dataflow.ResourceGraph
import KarsaSec.Found.Runs

/-!
# Guard facts across files

The registry of guard facts of `graph/dataflow/interprocedural_guard.py`, and runs of an environment beside it.

* `mem_getPropagatedFacts` says which facts pass from file to file: those of an included or including file, for the version
  that the variable has here.
* `Monitored` runs an environment and a registry and notes which versions a variable had and which facts were registered
  for its value, before its last assignment. `Invalidated` says that none of them is its version or passes now.
* `invalidated_iff`: this is so along a run as long as no variable is touched before its first assignment.
-/

namespace KarsaSec.Dataflow

open KarsaSec.Found

/-- Source: `interprocedural_guard.py`, `InterproceduralRelationKind`. Kind: D -/
inductive InterproceduralRelationKind
  | includeRequire
  | functionCall
  | parameterPassing
  | returnValue
  | explicitAssignment
  deriving DecidableEq, Repr

/-- Source: `interprocedural_guard.py`, `GuardFact`. Kind: D -/
structure GuardFact where
  varName : String
  varVersion : String
  constraint : SemanticConstraint
  sourceFile : String
  sourceFunction : String := ""
  sourceBlock : String := ""
  establishingStatement : String := ""
  relationKind : InterproceduralRelationKind := .includeRequire
  lifetime : String := "SCOPE_BOUNDED"
  isInvalidated : Bool := false
  deriving DecidableEq

/-- The facts by their files. Source: `interprocedural_guard.py`, `InterproceduralGuardManager`. Kind: D -/
structure InterproceduralGuardManager where
  resourceGraph : ResourceGraph
  factRegistry : Dict String (List GuardFact)

namespace InterproceduralGuardManager

variable (manager : InterproceduralGuardManager)

/-- Source: `interprocedural_guard.py`, `register_fact`. Kind: D -/
def registerFact (fact : GuardFact) : InterproceduralGuardManager :=
  { manager with factRegistry := manager.factRegistry.pushAt fact.sourceFile fact }

/-- Source: `interprocedural_guard.py`, `invalidate_for_variable`. Kind: D -/
def invalidateForVariable (filePath varName : String) : InterproceduralGuardManager :=
  match manager.factRegistry.get? filePath with
  | none => manager
  | some facts =>
    { manager with
      factRegistry := manager.factRegistry.set filePath
        (facts.map fun fact => if fact.varName = varName then { fact with isInvalidated := true } else fact) }

/-- An inclusion chain either way; a chain is truthy when it is not empty.
Source: `interprocedural_guard.py`, `get_propagated_facts`
Kind: D -/
def hasChain (sourceFile targetFile : String) : Bool :=
  ((manager.resourceGraph.findIncludeChain sourceFile targetFile).getD [] ≠ []) ||
    ((manager.resourceGraph.findIncludeChain targetFile sourceFile).getD [] ≠ [])

/-- The facts whose constraints `get_propagated_facts` collects.
Source: `interprocedural_guard.py`, `get_propagated_facts`
Kind: D -/
def propagatedFacts (targetFile targetVar : String) (currentEnv : AbstractEnvironment) : List GuardFact :=
  manager.factRegistry.entries.flatMap fun (sourceFile, facts) =>
    if sourceFile = targetFile then []
    else if manager.hasChain sourceFile targetFile then
      facts.filter fun fact =>
        fact.varName = targetVar ∧ !fact.isInvalidated ∧ (currentEnv.getValue targetVar).varVersion = fact.varVersion
    else []

/-- Source: `interprocedural_guard.py`, `get_propagated_facts`. Kind: D -/
def getPropagatedFacts (targetFile targetVar : String) (currentEnv : AbstractEnvironment) : Finset SemanticConstraint :=
  ((manager.propagatedFacts targetFile targetVar currentEnv).map GuardFact.constraint).toFinset

variable {manager}

/-- A fact passes to another file that is joined with its own by inclusions, as long as it is not invalidated and its
version is the variable's. Kind: L -/
theorem mem_propagatedFacts {targetFile x : String} {env : AbstractEnvironment} {fact : GuardFact} :
    fact ∈ manager.propagatedFacts targetFile x env ↔
      ∃ sourceFile facts, manager.factRegistry.get? sourceFile = some facts ∧ fact ∈ facts ∧ sourceFile ≠ targetFile ∧
        manager.hasChain sourceFile targetFile ∧ fact.varName = x ∧ fact.isInvalidated = false ∧
          fact.varVersion = env.getVersion x := by
  unfold propagatedFacts
  simp only [List.mem_flatMap, Prod.exists, Dict.mem_entries, AbstractEnvironment.varVersion_getValue]
  refine exists_congr fun sourceFile => exists_congr fun facts => and_congr_right fun _ => ?_
  split_ifs with hsame hchain
  · simp_all
  · grind
  · simp_all

/-- Source: `interprocedural_guard.py`, `get_propagated_facts`. Kind: L -/
theorem mem_getPropagatedFacts {targetFile x : String} {env : AbstractEnvironment} {c : SemanticConstraint} :
    c ∈ manager.getPropagatedFacts targetFile x env ↔
      ∃ fact ∈ manager.propagatedFacts targetFile x env, fact.constraint = c := by
  unfold getPropagatedFacts
  rw [List.mem_toFinset, List.mem_map]

end InterproceduralGuardManager

/-! ## Runs -/

/-- What happens to an environment and the registry beside it. Kind: D -/
inductive EnvOperation
  | read (varName : String)
  | setValue (value : AbstractValue)
  | withConstraints (varName : String) (newConstraints : Finset SemanticConstraint)
  | assignmentKill (varName : String) (newTaint : AbstractTaintState) (provId provDesc : String)
  | join (other : AbstractEnvironment)
  | registerFact (fact : GuardFact)
  | invalidateForVariable (filePath varName : String)

/-- An environment, a registry, and what was known of each variable. Kind: D -/
structure Monitored where
  env : AbstractEnvironment
  manager : InterproceduralGuardManager
  /-- A variable with the version it had when it was read, set or constrained, or a fact was registered for its value. -/
  held : List (String × String) := []
  /-- A variable with a version it had before its last assignment. -/
  before : List (String × String) := []
  /-- The facts that were registered for the value their variable had. -/
  registered : List GuardFact := []
  /-- The facts that were registered for a value before the last assignment of its variable. -/
  stale : List GuardFact := []
  /-- The variable that was assigned last, if nothing else happened since. -/
  assigned : Option String := none

namespace Monitored

/-- Nothing is known yet. Kind: D -/
def start (env : AbstractEnvironment) (manager : InterproceduralGuardManager) : Monitored where
  env := env
  manager := manager

/-- A variable is touched: the version it has is noted. Kind: D -/
def touch (s : Monitored) (varName : String) : Monitored :=
  { s with held := (varName, s.env.getVersion varName) :: s.held, assigned := none }

/-- One operation. Kind: D -/
def step (s : Monitored) : EnvOperation → Monitored
  | .read varName => s.touch varName
  | .setValue value => { s.touch value.varName with env := s.env.setValue value }
  | .withConstraints varName newConstraints =>
    { s.touch varName with env := s.env.setValue ((s.env.getValue varName).withConstraints newConstraints) }
  | .assignmentKill varName newTaint provId provDesc =>
    { s with
      env := s.env.assignmentKill varName newTaint provId provDesc
      before := s.held.filter (fun p => p.1 = varName) ++ s.before
      stale := s.registered.filter (fun fact => fact.varName = varName) ++ s.stale
      assigned := some varName }
  | .join other => { s with env := s.env.join other, assigned := none }
  | .registerFact fact =>
    if fact.varVersion = s.env.getVersion fact.varName then
      { s.touch fact.varName with manager := s.manager.registerFact fact, registered := fact :: s.registered }
    else { s with manager := s.manager.registerFact fact, assigned := none }
  | .invalidateForVariable filePath varName =>
    { s with manager := s.manager.invalidateForVariable filePath varName, assigned := none }

/-- Nothing known of a value is left after the assignment. Kind: D -/
structure Invalidated (s : Monitored) : Prop where
  version : ∀ x v, (x, v) ∈ s.before → s.env.getVersion x ≠ v
  constraints : ∀ x, s.assigned = some x → (s.env.getValue x).allConstraints = ∅
  facts : ∀ fact ∈ s.stale, ∀ targetFile, fact ∉ s.manager.propagatedFacts targetFile fact.varName s.env

/-- An assignment finds a counter of its variable, or the variable untouched. Kind: D -/
def Counted (s : Monitored) : EnvOperation → Prop
  | .assignmentKill varName _ _ _ => varName ∈ s.env.versionCounters.keys ∨ ∀ v, (varName, v) ∉ s.held
  | _ => True

/-! ## What is noted, in any run -/

/-- Noted versions are at most the present one. Kind: D -/
structure Noted (s : Monitored) : Prop where
  held_le : ∀ x v, (x, v) ∈ s.held → ∃ n ≤ s.env.count x, v = versionText x n
  held_first : ∀ x v, (x, v) ∈ s.held → x ∉ s.env.versionCounters.keys → v = versionText x 1
  before_le : ∀ x v, (x, v) ∈ s.before → x ∈ s.env.versionCounters.keys ∧ ∃ n ≤ s.env.count x, v = versionText x n
  registered_held : ∀ fact ∈ s.registered, (fact.varName, fact.varVersion) ∈ s.held
  stale_before : ∀ fact ∈ s.stale, (fact.varName, fact.varVersion) ∈ s.before

variable {s : Monitored}

theorem noted_start (env : AbstractEnvironment) (manager : InterproceduralGuardManager) : (start env manager).Noted where
  held_le := fun _ _ h => by cases h
  held_first := fun _ _ h => by cases h
  before_le := fun _ _ h => by cases h
  registered_held := fun _ h => by cases h
  stale_before := fun _ h => by cases h

/-- Counters that grow keep what is noted. Kind: L -/
theorem Noted.grow (h : s.Noted) {s' : Monitored} (hkeys : ∀ x ∈ s.env.versionCounters.keys, x ∈ s'.env.versionCounters.keys)
    (hcount : ∀ x, s.env.count x ≤ s'.env.count x) (hheld : s'.held = s.held) (hbefore : s'.before = s.before)
    (hregistered : s'.registered = s.registered) (hstale : s'.stale = s.stale) : s'.Noted where
  held_le := fun x v hv => by
    obtain ⟨n, hn, rfl⟩ := h.held_le x v (hheld ▸ hv)
    exact ⟨n, hn.trans (hcount x), rfl⟩
  held_first := fun x v hv hx => h.held_first x v (hheld ▸ hv) fun hmem => hx (hkeys x hmem)
  before_le := fun x v hv => by
    obtain ⟨hmem, n, hn, rfl⟩ := h.before_le x v (hbefore ▸ hv)
    exact ⟨hkeys x hmem, n, hn.trans (hcount x), rfl⟩
  registered_held := by
    rw [hheld, hregistered]
    exact h.registered_held
  stale_before := by
    rw [hbefore, hstale]
    exact h.stale_before

theorem Noted.touch (h : s.Noted) (y : String) : (s.touch y).Noted where
  held_le := fun x v hv => by
    rcases List.mem_cons.mp hv with heq | hv
    · obtain ⟨rfl, rfl⟩ := Prod.mk.inj heq
      exact ⟨_, le_rfl, rfl⟩
    · exact h.held_le x v hv
  held_first := fun x v hv hx => by
    rcases List.mem_cons.mp hv with heq | hv
    · obtain ⟨rfl, rfl⟩ := Prod.mk.inj heq
      exact congrArg (versionText x) (AbstractEnvironment.count_of_not_mem hx)
    · exact h.held_first x v hv hx
  before_le := h.before_le
  registered_held := fun fact hfact => List.mem_cons_of_mem _ (h.registered_held fact hfact)
  stale_before := h.stale_before

theorem Noted.register (h : s.Noted) {fact : GuardFact} (hversion : fact.varVersion = s.env.getVersion fact.varName) :
    ({ s.touch fact.varName with
        manager := s.manager.registerFact fact, registered := fact :: s.registered } : Monitored).Noted where
  held_le := (h.touch fact.varName).held_le
  held_first := (h.touch fact.varName).held_first
  before_le := h.before_le
  registered_held := fun fact' hfact' => by
    rcases List.mem_cons.mp hfact' with rfl | hfact'
    · exact hversion ▸ List.mem_cons_self
    · exact (h.touch fact.varName).registered_held fact' hfact'
  stale_before := h.stale_before

/-- An assignment moves what was noted of its variable to what was before. Kind: L -/
theorem Noted.kill (h : s.Noted) (x : String) (newTaint : AbstractTaintState) (provId provDesc : String) :
    (s.step (.assignmentKill x newTaint provId provDesc)).Noted where
  held_le := fun y v hv => by
    obtain ⟨n, hn, rfl⟩ := h.held_le y v hv
    exact ⟨n, hn.trans (AbstractEnvironment.count_le_assignmentKill y), rfl⟩
  held_first := fun y v hv hy =>
    h.held_first y v hv fun hmem => hy (AbstractEnvironment.mem_keys_assignmentKill.mpr (.inl hmem))
  before_le := fun y v hv => by
    rcases List.mem_append.mp hv with hnew | hold
    · obtain ⟨hheld, hy⟩ := List.mem_filter.mp hnew
      obtain ⟨n, hn, rfl⟩ := h.held_le y v hheld
      refine ⟨AbstractEnvironment.mem_keys_assignmentKill.mpr (.inr (of_decide_eq_true hy)), n, ?_, rfl⟩
      exact hn.trans (AbstractEnvironment.count_le_assignmentKill y)
    · obtain ⟨hmem, n, hn, rfl⟩ := h.before_le y v hold
      refine ⟨AbstractEnvironment.mem_keys_assignmentKill.mpr (.inl hmem), n, ?_, rfl⟩
      exact hn.trans (AbstractEnvironment.count_le_assignmentKill y)
  registered_held := h.registered_held
  stale_before := fun fact hfact => by
    rcases List.mem_append.mp hfact with hnew | hold
    · obtain ⟨hregistered, hname⟩ := List.mem_filter.mp hnew
      exact List.mem_append_left _ (List.mem_filter.mpr ⟨h.registered_held fact hregistered, hname⟩)
    · exact List.mem_append_right _ (h.stale_before fact hold)

theorem Noted.step (h : s.Noted) (op : EnvOperation) : (s.step op).Noted := by
  cases op with
  | read x => exact h.touch x
  | setValue value =>
    exact (h.touch value.varName).grow (fun _ hx => hx) (fun _ => le_rfl) rfl rfl rfl rfl
  | withConstraints x cs => exact (h.touch x).grow (fun _ hx => hx) (fun _ => le_rfl) rfl rfl rfl rfl
  | assignmentKill x newTaint provId provDesc => exact h.kill x newTaint provId provDesc
  | join other =>
    exact h.grow (fun x hx => AbstractEnvironment.mem_keys_join.mpr (.inl hx)) AbstractEnvironment.count_le_join
      rfl rfl rfl rfl
  | registerFact fact =>
    by_cases hversion : fact.varVersion = s.env.getVersion fact.varName
    · show (if _ then _ else _ : Monitored).Noted
      rw [if_pos hversion]
      exact h.register hversion
    · show (if _ then _ else _ : Monitored).Noted
      rw [if_neg hversion]
      exact h.grow (fun _ hx => hx) (fun _ => le_rfl) rfl rfl rfl rfl
  | invalidateForVariable filePath x => exact h.grow (fun _ hx => hx) (fun _ => le_rfl) rfl rfl rfl rfl

/-! ## When an assignment invalidates -/

/-- A version that is past stays past when no counter goes back, and a stale fact does not pass: its version is
past. Kind: L -/
theorem Noted.invalidated (h : s.Noted) (hpast : ∀ x v, (x, v) ∈ s.before → s.env.getVersion x ≠ v)
    (hclear : ∀ x, s.assigned = some x → (s.env.getValue x).allConstraints = ∅) : s.Invalidated where
  version := hpast
  constraints := hclear
  facts := fun fact hfact targetFile hpasses => by
    obtain ⟨_, _, -, -, -, -, -, -, hversion⟩ := InterproceduralGuardManager.mem_propagatedFacts.mp hpasses
    exact hpast _ _ (h.stale_before fact hfact) hversion.symm

theorem Invalidated.past (hs : s.Invalidated) (h : s.Noted) {x v : String} (hv : (x, v) ∈ s.before) :
    ∃ n < s.env.count x, v = versionText x n := by
  obtain ⟨-, n, hn, rfl⟩ := h.before_le x v hv
  refine ⟨n, lt_of_le_of_ne hn fun heq => hs.version x _ hv ?_, rfl⟩
  rw [heq]
  rfl

/-- Where no counter goes back, a past version stays past. Kind: L -/
theorem Invalidated.grow (hs : s.Invalidated) (h : s.Noted) {s' : Monitored} (h' : s'.Noted)
    (hcount : ∀ x, s.env.count x ≤ s'.env.count x) (hbefore : s'.before = s.before) (hassigned : s'.assigned = none) :
    s'.Invalidated := by
  refine h'.invalidated (fun x v hv heq => ?_) fun x hx => by rw [hassigned] at hx; cases hx
  obtain ⟨n, hn, rfl⟩ := hs.past h (hbefore ▸ hv)
  have := versionText_inj heq
  have := hcount x
  omega

/-- An assignment invalidates exactly when it finds a counter, or the variable untouched. Kind: L -/
theorem invalidated_kill_iff (hs : s.Invalidated) (h : s.Noted) (x : String) (newTaint : AbstractTaintState)
    (provId provDesc : String) : (s.step (.assignmentKill x newTaint provId provDesc)).Invalidated ↔
      x ∈ s.env.versionCounters.keys ∨ ∀ v, (x, v) ∉ s.held := by
  constructor
  · intro h'
    by_contra hnot
    obtain ⟨hfirst, hheld⟩ := not_or.mp hnot
    obtain ⟨v, hv⟩ := not_forall.mp hheld
    have hv := not_not.mp hv
    refine h'.version x v (List.mem_append_left _ (List.mem_filter.mpr ⟨hv, decide_eq_true rfl⟩)) ?_
    -- the first assignment is numbered like the variable before it
    rw [h.held_first x v hv hfirst, ← AbstractEnvironment.nextCount_of_not_mem hfirst,
      ← AbstractEnvironment.count_assignmentKill_self]
    rfl
  · intro hcounted
    refine (h.kill x newTaint provId provDesc).invalidated (fun y v hv heq => ?_) fun y hy => ?_
    · have hcases : ∃ n < (s.env.assignmentKill x newTaint provId provDesc).count y, v = versionText y n := by
        rcases List.mem_append.mp hv with hnew | hold
        · obtain ⟨hheld, hy⟩ := List.mem_filter.mp hnew
          obtain rfl : y = x := of_decide_eq_true hy
          rcases hcounted with hmem | huntouched
          · obtain ⟨n, hn, rfl⟩ := h.held_le y v hheld
            refine ⟨n, ?_, rfl⟩
            rw [AbstractEnvironment.count_assignmentKill_self, AbstractEnvironment.nextCount_of_mem hmem]
            omega
          · exact absurd hheld (huntouched v)
        · obtain ⟨n, hn, rfl⟩ := hs.past h hold
          exact ⟨n, hn.trans_le (AbstractEnvironment.count_le_assignmentKill y), rfl⟩
      obtain ⟨n, hn, rfl⟩ := hcases
      exact hn.ne' (versionText_inj heq)
    · obtain rfl : x = y := Option.some.inj hy
      show ((s.env.assignmentKill x newTaint provId provDesc).getValue x).allConstraints = ∅
      rw [AbstractEnvironment.getValue_assignmentKill]
      rfl

theorem invalidated_step_iff (h : s.Noted) (hs : s.Invalidated) (op : EnvOperation) :
    (s.step op).Invalidated ↔ s.Counted op := by
  cases op with
  | assignmentKill x newTaint provId provDesc => exact invalidated_kill_iff hs h x newTaint provId provDesc
  | read x =>
    exact iff_of_true (hs.grow h (h.step (.read x)) (fun _ => le_rfl) rfl rfl) trivial
  | setValue value =>
    exact iff_of_true (hs.grow h (h.step (.setValue value)) (fun _ => le_rfl) rfl rfl) trivial
  | withConstraints x cs =>
    exact iff_of_true (hs.grow h (h.step (.withConstraints x cs)) (fun _ => le_rfl) rfl rfl) trivial
  | join other =>
    exact iff_of_true (hs.grow h (h.step (.join other)) AbstractEnvironment.count_le_join rfl rfl) trivial
  | registerFact fact =>
    have henv : (s.step (.registerFact fact)).env = s.env := by
      unfold Monitored.step
      dsimp only
      split_ifs <;> rfl
    refine iff_of_true (hs.grow h (h.step (.registerFact fact)) (fun x => by rw [henv]) ?_ ?_) trivial
    all_goals
      unfold Monitored.step
      dsimp only
      split_ifs <;> rfl
  | invalidateForVariable filePath x =>
    exact iff_of_true (hs.grow h (h.step (.invalidateForVariable filePath x)) (fun _ => le_rfl) rfl rfl) trivial

theorem invalidated_start (env : AbstractEnvironment) (manager : InterproceduralGuardManager) :
    (start env manager).Invalidated where
  version := fun _ _ h => by cases h
  constraints := fun _ h => by cases h
  facts := fun _ h => by cases h

/-- **Assignments invalidate as long as no variable is touched before its first one.**
Source: `abstract_state.py`, `assignment_kill`; `interprocedural_guard.py`, `get_propagated_facts`
Kind: P -/
theorem invalidated_iff (env : AbstractEnvironment) (manager : InterproceduralGuardManager) (ops : List EnvOperation) :
    (∀ s ∈ reached step (start env manager) ops, s.Invalidated) ↔ Along step Counted (start env manager) ops :=
  forall_reached_iff (I := Noted) (J := Invalidated) (fun _ op h => h.step op)
    (fun _ op h hs => invalidated_step_iff h hs op) (noted_start env manager) (invalidated_start env manager) ops

/-- A number was checked for, in another file. Kind: D -/
def numericFact : GuardFact where
  varName := "$x"
  varVersion := "$x#1"
  constraint := .numeric
  sourceFile := "guard.php"

/-- One file includes another, and no fact is known. Kind: D -/
def guardedInclude : InterproceduralGuardManager where
  resourceGraph := { edges := [{ sourceId := "sink.php", targetId := "guard.php", kind := .includes }] }
  factRegistry := .empty

/-- A fact registered for a variable still passes after its first assignment. Kind: C -/
theorem guard_survives_assignment :
    ∃ s ∈ reached step (start .empty guardedInclude)
        [.registerFact numericFact, .assignmentKill "$x" .tainted "" ""],
      numericFact ∈ s.stale ∧ numericFact ∈ s.manager.propagatedFacts "sink.php" "$x" s.env ∧ ¬ s.Invalidated := by
  refine ⟨_, foldl_mem_reached _ _, ?_, ?_, fun h => ?_⟩
  · decide +kernel
  · decide +kernel
  · exact h.facts numericFact (by decide +kernel) "sink.php" (by decide +kernel)

end Monitored

end KarsaSec.Dataflow
