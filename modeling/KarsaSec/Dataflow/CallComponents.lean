import KarsaSec.Dataflow.CallGraph
import Mathlib.Data.Finset.Card

/-!
# Components of the call graph

`strongly_connected_components` finishes, and what it returns are the components.

* `SccState.search` is what the variables say of the search, `SccState.Aligned` that they agree with each other.
* `Connected` is what a call of `strongconnect` leaves: the lowest number in its result is the node's own, or the one
  of a node on the stack that it leads to, and no edge from a new node on the stack goes to an older node with a
  lower number. `Exploring` says the same between two callees.
* `components_areComponents` puts them together.
-/

namespace KarsaSec.Dataflow

open KarsaSec.Found Relation Search

namespace SccState

/-- What the variables say of the search. Kind: D -/
def search (s : SccState) : Search String :=
  ⟨fun x => (s.indices.get? x).isSome, fun x => (s.indices.get? x).getD 0, s.stack, s.sccs⟩

/-- The variables agree: the set has the nodes of the stack, a node that is met is a function, has a lowest number
and a number below the next one. Kind: D -/
structure Aligned (g : CallGraph) (s : SccState) : Prop where
  onStack : ∀ x, x ∈ s.onStack ↔ x ∈ s.stack
  lowlink : ∀ x, (s.indices.get? x).isSome → (s.lowlink.get? x).isSome
  below : ∀ x i, s.indices.get? x = some i → i < s.index
  known : ∀ x, (s.indices.get? x).isSome → x ∈ g.nodes.keys

variable {s : SccState} {g : CallGraph} {v : String}

theorem num_of_get? {x : String} {i : ℕ} (h : s.indices.get? x = some i) : s.search.num x = i := by
  show (s.indices.get? x).getD 0 = i
  rw [h]
  rfl

theorem search_enter (s : SccState) (v : String) : (s.enter v).search = s.search.push v s.index := by
  have hmet : (fun x => ((s.enter v).indices.get? x).isSome = true) =
      fun x => x = v ∨ (s.indices.get? x).isSome = true := by
    funext x
    show (((s.indices.set v s.index).get? x).isSome = true) = _
    rw [Dict.get?_set]
    by_cases hx : x = v
    · simp_all
    · simp_all
  have hnum : (fun x => ((s.enter v).indices.get? x).getD 0) =
      Function.update (fun x => (s.indices.get? x).getD 0) v s.index := by
    funext x
    show ((s.indices.set v s.index).get? x).getD 0 = _
    rw [Dict.get?_set]
    by_cases hx : x = v
    · rw [if_pos hx, hx, Function.update_self]
      rfl
    · rw [if_neg hx, Function.update_of_ne hx]
  rw [search, hmet, hnum]
  rfl

theorem Aligned.enter (h : s.Aligned g) (hv : v ∈ g.nodes.keys) : (s.enter v).Aligned g where
  onStack x := by
    show x ∈ insert v s.onStack ↔ x ∈ v :: s.stack
    rw [Finset.mem_insert, List.mem_cons, h.onStack]
  lowlink x hx := by
    have hset : ((s.indices.set v s.index).get? x).isSome := hx
    show ((s.lowlink.set v s.index).get? x).isSome
    rw [Dict.get?_set] at hset ⊢
    split
    · rfl
    · rename_i hne
      rw [if_neg hne] at hset
      exact h.lowlink x hset
  below x i hx := by
    have hset : (s.indices.set v s.index).get? x = some i := hx
    show i < s.index + 1
    rw [Dict.get?_set] at hset
    split at hset
    · cases hset
      exact Nat.lt_succ_self _
    · exact Nat.lt_succ_of_lt (h.below x i hset)
  known x hx := by
    have hset : ((s.indices.set v s.index).get? x).isSome := hx
    rw [Dict.get?_set] at hset
    split at hset
    · rename_i heq
      exact heq ▸ hv
    · exact h.known x hset

/-- A new lowest number changes nothing else. Kind: L -/
theorem Aligned.lower (h : s.Aligned g) (low : ℕ) : { s with lowlink := s.lowlink.set v low }.Aligned g where
  onStack := h.onStack
  lowlink x hx := by
    show ((s.lowlink.set v low).get? x).isSome
    rw [Dict.get?_set]
    split
    · rfl
    · exact h.lowlink x hx
  below := h.below
  known := h.known

/-- The loop takes off what lies above a node, and the node. Kind: L -/
theorem popComponent_spec {base : List String} : (new : List String) → {onStack : Finset String} →
    (new ++ v :: base).Nodup → (∀ x, x ∈ onStack ↔ x ∈ new ++ v :: base) →
      ∃ onStack', popComponent v (new ++ v :: base) onStack = some (base, onStack', new ++ [v]) ∧
        ∀ x, x ∈ onStack' ↔ x ∈ base
  | [], onStack, hnodup, hon => by
    refine ⟨onStack.erase v, ?_, fun x => ?_⟩
    · simp_all [popComponent]
    · grind
  | w :: new, onStack, hnodup, hon => by
    obtain ⟨hw, hrest⟩ := List.nodup_cons.mp hnodup
    have hne : w ≠ v := fun heq => hw (heq ▸ List.mem_append_right _ List.mem_cons_self)
    have herase : ∀ x, x ∈ onStack.erase w ↔ x ∈ new ++ v :: base := by
      intro x
      rw [Finset.mem_erase, hon]
      constructor
      · simp_all
      · grind
    obtain ⟨onStack', hpop, hon'⟩ := popComponent_spec new hrest herase
    refine ⟨onStack', ?_, hon'⟩
    rw [List.cons_append, popComponent, if_neg (not_not.mpr ((hon w).mpr List.mem_cons_self)), if_neg hne, hpop]
    rfl

end SccState

namespace CallGraph

variable {g : CallGraph}

theorem mem_calleeIds {v w : String} :
    w ∈ g.calleeIds v ↔ w ∈ g.nodes.keys ∧ ∃ e ∈ g.edges, e.callerId = v ∧ e.calleeId = w := by
  rw [calleeIds, sortStrings, (List.perm_insertionSort _ _).mem_iff, List.mem_dedup, List.mem_map, g.outgoing_eq]
  constructor
  · rintro ⟨e, he, rfl⟩
    obtain ⟨he, hnode⟩ := List.mem_filter.mp he
    obtain ⟨he, hcaller⟩ := List.mem_filter.mp he
    exact ⟨Dict.get?_isSome.mp hnode, e, he, of_decide_eq_true hcaller, rfl⟩
  · rintro ⟨hnode, e, he, hcaller, rfl⟩
    exact ⟨e, List.mem_filter.mpr ⟨List.mem_filter.mpr ⟨he, decide_eq_true hcaller⟩, Dict.get?_isSome.mpr hnode⟩, rfl⟩

theorem Calls.mem_calleeIds {v w : String} (h : g.Calls v w) : w ∈ g.calleeIds v :=
  CallGraph.mem_calleeIds.mpr h.2

theorem calls_of_mem {v w : String} (hv : v ∈ g.nodes.keys) (h : w ∈ g.calleeIds v) : g.Calls v w :=
  ⟨hv, CallGraph.mem_calleeIds.mp h⟩

/-- The functions that are not met yet. Kind: D -/
def unmet (g : CallGraph) (s : SccState) : Finset String :=
  g.nodes.keys.toFinset.filter fun x => s.indices.get? x = none

theorem unmet_mono {s s' : SccState} (h : ∀ x, (s.indices.get? x).isSome → (s'.indices.get? x).isSome) :
    (g.unmet s').card ≤ (g.unmet s).card := by
  refine Finset.card_le_card fun x hx => ?_
  obtain ⟨hkey, hnone⟩ := Finset.mem_filter.mp hx
  refine Finset.mem_filter.mpr ⟨hkey, ?_⟩
  rw [← Option.not_isSome_iff_eq_none] at hnone ⊢
  exact fun hsome => hnone (h x hsome)

/-- Entering a function leaves one less to meet. Kind: L -/
theorem unmet_enter {s : SccState} {v : String} (hv : v ∈ g.nodes.keys) (hnew : s.indices.get? v = none) :
    (g.unmet (s.enter v)).card < (g.unmet s).card := by
  have hget : ∀ x, (s.enter v).indices.get? x = if x = v then some s.index else s.indices.get? x := fun x =>
    Dict.get?_set _ _ _ _
  refine Finset.card_lt_card ((Finset.ssubset_iff_of_subset fun x hx => ?_).mpr ⟨v, ?_, fun hin => ?_⟩)
  · obtain ⟨hkey, hnone⟩ := Finset.mem_filter.mp hx
    refine Finset.mem_filter.mpr ⟨hkey, ?_⟩
    rw [hget] at hnone
    split at hnone
    · cases hnone
    · exact hnone
  · exact Finset.mem_filter.mpr ⟨List.mem_toFinset.mpr hv, hnew⟩
  · have hnone := (Finset.mem_filter.mp hin).2
    rw [hget, if_pos rfl] at hnone
    cases hnone

/-! ## One function -/

/-- What a call of `strongconnect` on a new function leaves. Kind: D -/
structure Connected (g : CallGraph) (path : List String) (v : String) (s s' : SccState) : Prop where
  sound : Sound g.Calls path s'.search
  aligned : s'.Aligned g
  kept : ∀ x, (s.indices.get? x).isSome →
    s'.indices.get? x = s.indices.get? x ∧ s'.lowlink.get? x = s.lowlink.get? x
  index : s'.indices.get? v = some s.index
  stack : ∃ new low, s'.stack = new ++ s.stack ∧ s'.lowlink.get? v = some low ∧
    (∀ x ∈ new, ∀ y ∈ s.stack, g.Calls x y → low ≤ s'.search.num y) ∧
    (low = s.index ∨ ∃ z ∈ s'.stack, s'.search.num z = low ∧ ReflTransGen g.Calls v z)

/-- A recursive call does so where the functions that are not met yet are few enough. Kind: D -/
def Connects (g : CallGraph) (connect : String → SccState → Option SccState) (bound : ℕ) : Prop :=
  ∀ path v s, Sound g.Calls path s.search → s.Aligned g → v ∈ g.nodes.keys → s.indices.get? v = none →
    (∀ x ∈ path, ReflTransGen g.Calls x v) → (g.unmet s).card ≤ bound →
      ∃ s', connect v s = some s' ∧ Connected g path v s s'

/-- Between two callees of a function that was entered in the state `start`: `new` are the nodes above it on the
stack, `low` is its lowest number, and the callees that are `seen` have been visited. Kind: D -/
structure Exploring (g : CallGraph) (path : List String) (v : String) (start s : SccState) (seen new : List String)
    (low : ℕ) : Prop where
  fresh : start.indices.get? v = none
  path_stack : ∀ x ∈ path, x ∈ start.stack
  sound : Sound g.Calls (v :: path) s.search
  aligned : s.Aligned g
  kept : ∀ x, (start.indices.get? x).isSome →
    s.indices.get? x = start.indices.get? x ∧ s.lowlink.get? x = start.lowlink.get? x
  index : s.indices.get? v = some start.index
  stack : s.stack = new ++ v :: start.stack
  lowlink : s.lowlink.get? v = some low
  edges : ∀ x ∈ new, ∀ y ∈ start.stack, g.Calls x y → low ≤ s.search.num y
  callees : ∀ y ∈ seen, (s.indices.get? y).isSome ∧ (y ∈ start.stack → low ≤ s.search.num y)
  low_le : low ≤ start.index
  witness : ∃ z ∈ s.stack, s.search.num z = low ∧ ReflTransGen g.Calls v z

section

variable {path : List String} {v : String} {start s : SccState} {seen new : List String} {low : ℕ}

theorem Exploring.num_eq (h : Exploring g path v start s seen new low) : s.search.num v = start.index :=
  SccState.num_of_get? h.index

theorem Exploring.key (h : Exploring g path v start s seen new low) : v ∈ g.nodes.keys :=
  h.aligned.known v (Option.isSome_of_eq_some h.index)

/-- The functions that were met when the loop began are still met. Kind: L -/
theorem Exploring.unmet_le (h : Exploring g path v start s seen new low) :
    (g.unmet s).card ≤ (g.unmet (start.enter v)).card := by
  refine unmet_mono fun x hx => ?_
  have hset : ((start.indices.set v start.index).get? x).isSome := hx
  rw [Dict.get?_set] at hset
  split at hset
  · rename_i heq
    rw [heq, h.index]
    rfl
  · rw [(h.kept x hset).1]
    exact hset

theorem Exploring.mem_stack (h : Exploring g path v start s seen new low) {x : String} (hx : x ∈ start.stack) :
    x ∈ s.stack := by
  rw [h.stack]
  exact List.mem_append_right _ (List.mem_cons_of_mem _ hx)

/-- The path leads to every callee. Kind: L -/
theorem Exploring.reach (h : Exploring g path v start s seen new low) {w : String} (hw : g.Calls v w) :
    ∀ x ∈ v :: path, ReflTransGen g.Calls x w := by
  intro x hx
  have hv : v ∈ s.search.stack := h.sound.path_stack v List.mem_cons_self
  have hle : s.search.num x ≤ s.search.num v := by
    rcases List.mem_cons.mp hx with rfl | hpath
    · exact le_rfl
    · exact ((h.sound.older h.stack).1 x (h.path_stack x hpath)).le
  exact (h.sound.forth x hx v hv hle).tail hw

/-- The lowest number is lowered to that of a callee, or to the lowest one of a callee. Kind: L -/
theorem Exploring.lower (h : Exploring g path v start s seen new low) {w : String} {other : ℕ}
    (hmet : (s.indices.get? w).isSome) (hcallee : w ∈ start.stack → other ≤ s.search.num w)
    (hwitness : other < low → ∃ z ∈ s.stack, s.search.num z = other ∧ ReflTransGen g.Calls v z) :
    Exploring g path v start { s with lowlink := s.lowlink.set v (min low other) } (seen ++ [w]) new (min low other) where
  fresh := h.fresh
  path_stack := h.path_stack
  sound := h.sound
  aligned := h.aligned.lower _
  kept x hx := by
    refine ⟨(h.kept x hx).1, ?_⟩
    have hne : x ≠ v := by
      rintro rfl
      rw [h.fresh] at hx
      cases hx
    exact (Dict.get?_set_ne _ hne _).trans (h.kept x hx).2
  index := h.index
  stack := h.stack
  lowlink := Dict.get?_set_self _ _ _
  edges x hx y hy hedge := (min_le_left _ _).trans (h.edges x hx y hy hedge)
  callees y hy := by
    rcases List.mem_append.mp hy with hold | hnew
    · exact ⟨(h.callees y hold).1, fun hin => (min_le_left _ _).trans ((h.callees y hold).2 hin)⟩
    · obtain rfl := List.mem_singleton.mp hnew
      exact ⟨hmet, fun hin => (min_le_right _ _).trans (hcallee hin)⟩
  low_le := (min_le_left _ _).trans h.low_le
  witness := by
    rcases Nat.lt_or_ge other low with hlt | hge
    · rw [min_eq_right hlt.le]
      exact hwitness hlt
    · rw [min_eq_left hge]
      exact h.witness

/-- A new callee is connected, and the lowest number is lowered to its lowest number. Kind: L -/
theorem Exploring.connected (h : Exploring g path v start s seen new low) {w : String} (hw : g.Calls v w)
    (hunmet : s.indices.get? w = none) {s' : SccState} (hc : Connected g (v :: path) w s s') :
    ∃ new' lowW, s'.lowlink.get? v = some low ∧ s'.lowlink.get? w = some lowW ∧
      Exploring g path v start { s' with lowlink := s'.lowlink.set v (min low lowW) } (seen ++ [w]) new'
        (min low lowW) := by
  obtain ⟨newer, lowW, hstack, hlowW, hedges, hlow⟩ := hc.stack
  have hnum : ∀ x, (s.indices.get? x).isSome → s'.search.num x = s.search.num x := by
    intro x hx
    show (s'.indices.get? x).getD 0 = (s.indices.get? x).getD 0
    rw [(hc.kept x hx).1]
  have hstart : ∀ x ∈ start.stack, (s.indices.get? x).isSome := fun x hx =>
    h.sound.met_of_stack x (h.mem_stack hx)
  have hv : (s.indices.get? v).isSome := Option.isSome_of_eq_some h.index
  refine ⟨newer ++ new, lowW, (hc.kept v hv).2.trans h.lowlink, hlowW, ?_⟩
  constructor
  case fresh => exact h.fresh
  case path_stack => exact h.path_stack
  case sound => exact hc.sound
  case aligned => exact hc.aligned.lower _
  case kept =>
    intro x hx
    obtain ⟨hindex, hlowlink⟩ := h.kept x hx
    have hmet : (s.indices.get? x).isSome := by
      rw [hindex]
      exact hx
    have hne : x ≠ v := by
      rintro rfl
      rw [h.fresh] at hx
      cases hx
    obtain ⟨hindex', hlowlink'⟩ := hc.kept x hmet
    exact ⟨hindex'.trans hindex, ((Dict.get?_set_ne _ hne _).trans hlowlink').trans hlowlink⟩
  case index => exact (hc.kept v hv).1.trans h.index
  case stack =>
    show s'.stack = _
    rw [hstack, h.stack, List.append_assoc]
  case lowlink => exact Dict.get?_set_self _ _ _
  case edges =>
    intro x hx y hy hedge
    show min low lowW ≤ s'.search.num y
    rcases List.mem_append.mp hx with hnewer | hnew
    · exact (min_le_right _ _).trans (hedges x hnewer y (h.mem_stack hy) hedge)
    · rw [hnum y (hstart y hy)]
      exact (min_le_left _ _).trans (h.edges x hnew y hy hedge)
  case callees =>
    intro y hy
    show (s'.indices.get? y).isSome ∧ (y ∈ start.stack → min low lowW ≤ s'.search.num y)
    rcases List.mem_append.mp hy with hold | hnew
    · obtain ⟨hmet, hle⟩ := h.callees y hold
      rw [hnum y hmet, (hc.kept y hmet).1]
      exact ⟨hmet, fun hin => (min_le_left _ _).trans (hle hin)⟩
    · rw [List.mem_singleton.mp hnew]
      refine ⟨Option.isSome_of_eq_some hc.index, fun hin => ?_⟩
      have hmet := hstart w hin
      rw [hunmet] at hmet
      cases hmet
  case low_le => exact (min_le_left _ _).trans h.low_le
  case witness =>
    show ∃ z ∈ s'.stack, s'.search.num z = min low lowW ∧ ReflTransGen g.Calls v z
    rcases Nat.lt_or_ge lowW low with hlt | hge
    · rw [min_eq_right hlt.le]
      rcases hlow with hown | ⟨z, hz, hznum, hreach⟩
      · have hbelow := h.aligned.below v _ h.index
        have hle := h.low_le
        omega
      · exact ⟨z, hz, hznum, (ReflTransGen.single hw).trans hreach⟩
    · rw [min_eq_left hge]
      obtain ⟨z, hz, hznum, hreach⟩ := h.witness
      refine ⟨z, ?_, (hnum z (h.sound.met_of_stack z hz)).trans hznum, hreach⟩
      rw [hstack]
      exact List.mem_append_right _ hz

/-- One callee is visited. Kind: L -/
theorem Exploring.visit (h : Exploring g path v start s seen new low) {w : String} (hw : w ∈ g.calleeIds v)
    {connect : String → SccState → Option SccState} {bound : ℕ} (hconnect : g.Connects connect bound)
    (hbound : (g.unmet (start.enter v)).card ≤ bound) :
    ∃ s' new' low', SccState.visit connect v s w = some s' ∧
      Exploring g path v start s' (seen ++ [w]) new' low' := by
  have hedge := calls_of_mem h.key hw
  rw [SccState.visit]
  cases hindex : s.indices.get? w with
  | none =>
    have hnew : s.indices.contains w = false := by
      rw [Dict.contains, hindex]
      rfl
    obtain ⟨s', hrun, hc⟩ := hconnect (v :: path) w s h.sound h.aligned hedge.2.1 hindex (h.reach hedge)
      (h.unmet_le.trans hbound)
    obtain ⟨new', lowW, hlowV, hlowW, hexploring⟩ := h.connected hedge hindex hc
    refine ⟨_, new', _, ?_, hexploring⟩
    rw [if_pos hnew, hrun]
    show (s'.lowlink.get? v >>= fun lowV => s'.lowlink.get? w >>= fun lowW =>
      some { s' with lowlink := s'.lowlink.set v (min lowV lowW) }) = _
    rw [hlowV, hlowW]
    rfl
  | some indexW =>
    have hold : ¬ s.indices.contains w = false := by
      rw [Dict.contains, hindex]
      exact Bool.noConfusion
    have hmet : (s.indices.get? w).isSome := Option.isSome_of_eq_some hindex
    have hnum := SccState.num_of_get? hindex
    rw [if_neg hold]
    split
    · rename_i hon
      refine ⟨_, new, min low indexW, ?_, h.lower hmet (fun _ => hnum.ge) fun _ =>
        ⟨w, (h.aligned.onStack w).mp hon, hnum, .single hedge⟩⟩
      rw [h.lowlink]
      rfl
    · rename_i hoff
      have hout : w ∉ start.stack := fun hin => hoff ((h.aligned.onStack w).mpr (h.mem_stack hin))
      refine ⟨s, new, low, rfl, { h with callees := fun y hy => ?_ }⟩
      rcases List.mem_append.mp hy with hbefore | hlast
      · exact h.callees y hbefore
      · simp_all

/-- All callees are visited. Kind: L -/
theorem Exploring.visits {connect : String → SccState → Option SccState} {bound : ℕ}
    (hconnect : g.Connects connect bound) (hbound : (g.unmet (start.enter v)).card ≤ bound) {rest : List String}
    (hrest : ∀ w ∈ rest, w ∈ g.calleeIds v) (h : Exploring g path v start s seen new low) :
    ∃ s' new' low', rest.foldlM (SccState.visit connect v) s = some s' ∧
      Exploring g path v start s' (seen ++ rest) new' low' := by
  induction rest generalizing s seen new low with
  | nil =>
    rw [List.append_nil]
    exact ⟨s, new, low, rfl, h⟩
  | cons w rest ih =>
    obtain ⟨s₁, new₁, low₁, hvisit, h₁⟩ := h.visit (hrest w List.mem_cons_self) hconnect hbound
    obtain ⟨s₂, new₂, low₂, hvisits, h₂⟩ := ih (fun w' hw' => hrest w' (List.mem_cons_of_mem _ hw')) h₁
    refine ⟨s₂, new₂, low₂, ?_, ?_⟩
    · rw [List.foldlM_cons, hvisit]
      exact hvisits
    · rw [List.append_assoc] at h₂
      exact h₂

/-- A function is entered. Kind: L -/
theorem exploring_enter (hsound : Sound g.Calls path start.search) (haligned : start.Aligned g)
    (hv : v ∈ g.nodes.keys) (hfresh : start.indices.get? v = none)
    (hreach : ∀ x ∈ path, ReflTransGen g.Calls x v) :
    Exploring g path v start (start.enter v) [] [] start.index where
  fresh := hfresh
  path_stack := hsound.path_stack
  sound := by
    rw [SccState.search_enter]
    refine hsound.push (fun hmet => ?_) (fun x hx => ?_) hreach
    · have hsome : (start.indices.get? v).isSome := hmet
      rw [hfresh] at hsome
      cases hsome
    · obtain ⟨i, hi⟩ := Option.isSome_iff_exists.mp hx
      rw [SccState.num_of_get? hi]
      exact haligned.below x i hi
  aligned := haligned.enter hv
  kept x hx := by
    have hne : x ≠ v := by
      rintro rfl
      rw [hfresh] at hx
      cases hx
    exact ⟨Dict.get?_set_ne _ hne _, Dict.get?_set_ne _ hne _⟩
  index := Dict.get?_set_self _ _ _
  stack := rfl
  lowlink := Dict.get?_set_self _ _ _
  edges x hx := absurd hx List.not_mem_nil
  callees y hy := absurd hy List.not_mem_nil
  low_le := le_rfl
  witness := by
    refine ⟨v, List.mem_cons_self, ?_, .refl⟩
    have hget : (start.enter v).indices.get? v = some start.index := Dict.get?_set_self _ _ _
    exact SccState.num_of_get? hget

/-- A function is left: it stays on the stack, or its component comes off. Kind: L -/
theorem Exploring.finish (h : Exploring g path v start s (g.calleeIds v) new low) :
    ∃ s', s.finish v = some s' ∧ Connected g path v start s' := by
  have hexplored : ∀ y, g.Calls v y → s.search.met y := fun y hedge => (h.callees y hedge.mem_calleeIds).1
  have hread : s.finish v = if low = start.index then
      (SccState.popComponent v s.stack s.onStack).bind fun r =>
        some { s with stack := r.1, onStack := r.2.1, sccs := s.sccs ++ [sortStrings r.2.2] }
      else some s := by
    rw [SccState.finish, h.lowlink, h.index]
    rfl
  rw [hread]
  by_cases hlow : low = start.index
  · have hnodup : (new ++ v :: start.stack).Nodup := h.stack ▸ h.sound.stack_nodup
    have halign : ∀ x, x ∈ s.onStack ↔ x ∈ new ++ v :: start.stack := fun x => h.stack ▸ h.aligned.onStack x
    obtain ⟨onStack, hpop, hon⟩ := SccState.popComponent_spec new hnodup halign
    have hclosing : Closing g.Calls path s.search v new start.stack (sortStrings (new ++ [v])) :=
      { sound := h.sound
        stack := h.stack
        path := h.path_stack
        explored := hexplored
        inside := fun x hx y hy hedge => by
          rw [h.num_eq, ← hlow]
          rcases hx with rfl | hnew
          · exact (h.callees y hedge.mem_calleeIds).2 hy
          · exact h.edges x hnew y hy hedge
        all := List.perm_insertionSort _ _ }
    rw [if_pos hlow, h.stack, hpop]
    refine ⟨_, rfl, ?_⟩
    constructor
    case sound => exact hclosing.pop
    case aligned => exact ⟨hon, h.aligned.lowlink, h.aligned.below, h.aligned.known⟩
    case kept => exact h.kept
    case index => exact h.index
    case stack =>
      exact ⟨[], low, rfl, h.lowlink, fun x hx => absurd hx List.not_mem_nil, Or.inl hlow⟩
  · rw [if_neg hlow]
    have hlt : low < start.index := lt_of_le_of_ne h.low_le hlow
    refine ⟨s, rfl, ?_⟩
    constructor
    case sound =>
      obtain ⟨z, hz, hznum, hreach⟩ := h.witness
      refine h.sound.keep hexplored hz ?_ hreach
      rw [hznum, h.num_eq]
      exact hlt
    case aligned => exact h.aligned
    case kept => exact h.kept
    case index => exact h.index
    case stack =>
      refine ⟨new ++ [v], low, ?_, h.lowlink, fun x hx y hy hedge => ?_, Or.inr h.witness⟩
      · rw [h.stack, List.append_assoc, List.singleton_append]
      · rcases List.mem_append.mp hx with hnew | hlast
        · exact h.edges x hnew y hy hedge
        · rw [List.mem_singleton.mp hlast] at hedge
          exact (h.callees y hedge.mem_calleeIds).2 hy

end

/-- The recursion does its work within a depth of the number of functions that are not met. Kind: P -/
theorem connects_strongconnect (g : CallGraph) (depth : ℕ) : g.Connects (g.strongconnect depth) depth := by
  induction depth with
  | zero =>
    intro path v s _ _ hv hfresh _ hbound
    have hin : v ∈ g.unmet s := Finset.mem_filter.mpr ⟨List.mem_toFinset.mpr hv, hfresh⟩
    exact absurd (Finset.card_pos.mpr ⟨v, hin⟩) (not_lt.mpr hbound)
  | succ depth ih =>
    intro path v s hsound haligned hv hfresh hreach hbound
    have hbound' : (g.unmet (s.enter v)).card ≤ depth := by
      have hless := unmet_enter hv hfresh
      omega
    have hcallees : ∀ w ∈ g.calleeIds v, w ∈ g.calleeIds v := fun _ hw => hw
    obtain ⟨s₁, new, low, hvisits, h₁⟩ :=
      (exploring_enter hsound haligned hv hfresh hreach).visits ih hbound' hcallees
    obtain ⟨s', hfinish, hconnected⟩ := Exploring.finish h₁
    refine ⟨s', ?_, hconnected⟩
    rw [strongconnect, hvisits]
    exact hfinish

/-! ## All functions -/

/-- One turn of the loop over all functions. Kind: L -/
theorem connectNode_spec {s : SccState} (hsound : Sound g.Calls [] s.search) (haligned : s.Aligned g) {v : String}
    (hv : v ∈ g.nodes.keys) :
    ∃ s', g.connectNode s v = some s' ∧ Sound g.Calls [] s'.search ∧ s'.Aligned g ∧ (s'.indices.get? v).isSome ∧
      ∀ x, (s.indices.get? x).isSome → (s'.indices.get? x).isSome := by
  rw [connectNode]
  cases hindex : s.indices.get? v with
  | none =>
    have hnew : s.indices.contains v = false := by
      rw [Dict.contains, hindex]
      rfl
    have hbound : (g.unmet s).card ≤ g.nodes.keys.length :=
      (Finset.card_filter_le _ _).trans (List.toFinset_card_le _)
    obtain ⟨s', hrun, hc⟩ := g.connects_strongconnect g.nodes.keys.length [] v s hsound haligned hv hindex
      (fun x hx => absurd hx List.not_mem_nil) hbound
    rw [if_pos hnew]
    refine ⟨s', hrun, hc.sound, hc.aligned, Option.isSome_of_eq_some hc.index, fun x hx => ?_⟩
    rw [(hc.kept x hx).1]
    exact hx
  | some i =>
    have hold : ¬ s.indices.contains v = false := by
      rw [Dict.contains, hindex]
      exact Bool.noConfusion
    rw [if_neg hold]
    exact ⟨s, rfl, hsound, haligned, Option.isSome_of_eq_some hindex, fun _ hx => hx⟩

theorem connectNodes_spec {nodes : List String} (hnodes : ∀ v ∈ nodes, v ∈ g.nodes.keys) {s : SccState}
    (hsound : Sound g.Calls [] s.search) (haligned : s.Aligned g) :
    ∃ s', nodes.foldlM g.connectNode s = some s' ∧ Sound g.Calls [] s'.search ∧ s'.Aligned g ∧
      (∀ x, (s.indices.get? x).isSome → (s'.indices.get? x).isSome) ∧ ∀ v ∈ nodes, (s'.indices.get? v).isSome := by
  induction nodes generalizing s with
  | nil => exact ⟨s, rfl, hsound, haligned, fun _ hx => hx, fun v hv => absurd hv List.not_mem_nil⟩
  | cons v nodes ih =>
    obtain ⟨s₁, hrun, hsound₁, haligned₁, hmet, hgrows⟩ :=
      connectNode_spec hsound haligned (hnodes v List.mem_cons_self)
    obtain ⟨s₂, hruns, hsound₂, haligned₂, hgrows₂, hall⟩ :=
      ih (fun w hw => hnodes w (List.mem_cons_of_mem _ hw)) hsound₁ haligned₁
    refine ⟨s₂, ?_, hsound₂, haligned₂, fun x hx => hgrows₂ x (hgrows x hx), fun w hw => ?_⟩
    · rw [List.foldlM_cons, hrun]
      exact hruns
    · rcases List.mem_cons.mp hw with rfl | hw
      · exact hgrows₂ w hmet
      · exact hall w hw

/-- What is returned are the components of the call graph, callees before callers. Kind: P -/
theorem components_areComponents (g : CallGraph) :
    ∃ sccs, g.stronglyConnectedComponents = some sccs ∧ AreComponents g.Calls g.nodes.keys sccs := by
  have hperm : (sortStrings g.nodes.keys).Perm g.nodes.keys := List.perm_insertionSort _ _
  have hstart : ({} : SccState).search = ⟨fun _ => False, fun _ => 0, [], []⟩ := by simp [SccState.search]
  have haligned : ({} : SccState).Aligned g :=
    { onStack := fun x => ⟨fun hx => absurd hx (Finset.notMem_empty x), fun hx => absurd hx List.not_mem_nil⟩
      lowlink := fun x hx => Bool.noConfusion hx
      below := fun x i hx => (Option.some_ne_none i hx.symm).elim
      known := fun x hx => Bool.noConfusion hx }
  have hnodes : ∀ v ∈ sortStrings g.nodes.keys, v ∈ g.nodes.keys := fun v hv => hperm.mem_iff.mp hv
  obtain ⟨s, hrun, hsound, haligned', _, hall⟩ :=
    connectNodes_spec hnodes (hstart ▸ sound_start fun _ => 0) haligned
  refine ⟨s.sccs, ?_, hsound.areComponents g.nodes.nodup_keys fun x => ?_⟩
  · rw [stronglyConnectedComponents, hrun]
    rfl
  · exact ⟨haligned'.known x, fun hx => hall x (hperm.mem_iff.mpr hx)⟩

end CallGraph

end KarsaSec.Dataflow
