import Mathlib.Data.List.Nodup
import Mathlib.Data.List.Pairwise
import Mathlib.Data.Nat.Basic
import Mathlib.Logic.Function.Basic
import Mathlib.Logic.Relation
import Mathlib.Order.Basic

/-!
# Components by depth-first search

The idea of Tarjan's algorithm, away from any program: nodes are numbered as they are first met, and a stack keeps
those whose component is not finished.

* `Search` is what a search has so far: the nodes it has met with their numbers, the stack with the newest node first,
  and the finished components.
* `Search.Sound` is its invariant, for the nodes on the path that the search is on: every node of the stack leads
  back to one of the path that is not newer, and every node of the path leads to all that are newer.
* `Sound.push`, `Sound.keep` and `Sound.pop`: the search goes to a new node; leaves a node that leads to an older
  one; or leaves one that does not, and takes it with all newer ones off the stack as a component.
* `Sound.finished`: with an empty path the components are the classes of nodes that lead to each other, callees
  before callers.
-/

namespace KarsaSec.Found

open Relation

variable {α : Type*}

/-- What a search has so far. Kind: D -/
structure Search (α : Type*) where
  met : α → Prop
  num : α → ℕ
  stack : List α
  comps : List (List α)

namespace Search

variable (E : α → α → Prop)

/-- The invariant of a search that is on a path, the newest node first. Kind: D -/
structure Sound (path : List α) (s : Search α) : Prop where
  met_of_stack : ∀ x ∈ s.stack, s.met x
  newer : s.stack.Pairwise fun x y => s.num y < s.num x
  path_stack : ∀ x ∈ path, x ∈ s.stack
  explored : ∀ x y, s.met x → x ∉ path → E x y → s.met y
  back : ∀ y ∈ s.stack, ∃ x ∈ path, s.num x ≤ s.num y ∧ ReflTransGen E y x
  forth : ∀ x ∈ path, ∀ y ∈ s.stack, s.num x ≤ s.num y → ReflTransGen E x y
  done : ∀ x, x ∈ s.comps.flatten ↔ s.met x ∧ x ∉ s.stack
  once : s.comps.flatten.Nodup
  nonempty : [] ∉ s.comps
  component : ∀ C ∈ s.comps, ∀ x ∈ C, ∀ y, y ∈ C ↔ ReflTransGen E x y ∧ ReflTransGen E y x
  down : ∀ x y, x ∈ s.comps.flatten → E x y → y ∈ s.comps.flatten
  order : s.comps.Pairwise fun C D => ∀ x ∈ C, ∀ y ∈ D, ¬ E x y

variable {E} {path : List α} {s : Search α} {v : α}

/-- At the start nothing is met. Kind: L -/
theorem sound_start (num : α → ℕ) : Sound E [] ⟨fun _ => False, num, [], []⟩ where
  met_of_stack _ h := absurd h List.not_mem_nil
  newer := List.Pairwise.nil
  path_stack _ h := absurd h List.not_mem_nil
  explored _ _ h := h.elim
  back _ h := absurd h List.not_mem_nil
  forth _ h := absurd h List.not_mem_nil
  done _ := ⟨fun h => absurd h List.not_mem_nil, fun h => h.1.elim⟩
  once := List.nodup_nil
  nonempty := List.not_mem_nil
  component _ h := absurd h List.not_mem_nil
  down _ _ h := absurd h List.not_mem_nil
  order := List.Pairwise.nil

/-- A set that edges do not leave is not left. Kind: L -/
theorem closed_of_reach {P : α → Prop} (hclosed : ∀ x y, P x → E x y → P y) {x y : α} (hx : P x)
    (h : ReflTransGen E x y) : P y := by
  induction h with
  | refl => exact hx
  | tail _ hedge ih => exact hclosed _ _ ih hedge

/-- A search goes to a new node. Kind: D -/
def push [DecidableEq α] (s : Search α) (v : α) (n : ℕ) : Search α :=
  { s with met := fun x => x = v ∨ s.met x, num := Function.update s.num v n, stack := v :: s.stack }

/-- The search goes on to a new node that its path leads to. Kind: P -/
theorem Sound.push [DecidableEq α] (h : Sound E path s) (hv : ¬ s.met v) {n : ℕ} (hn : ∀ x, s.met x → s.num x < n)
    (hreach : ∀ x ∈ path, ReflTransGen E x v) : Sound E (v :: path) (s.push v n) := by
  have hne : ∀ {x}, s.met x → x ≠ v := fun hx heq => hv (heq ▸ hx)
  have hold : ∀ {x}, s.met x → (s.push v n).num x = s.num x := fun hx => Function.update_of_ne (hne hx) _ _
  have hnew : (s.push v n).num v = n := Function.update_self _ _ _
  have hpath : ∀ x ∈ path, s.met x := fun x hx => h.met_of_stack x (h.path_stack x hx)
  refine ⟨fun x hx => ?_, ?_, fun x hx => ?_, fun x y hx hpath' hedge => ?_, fun y hy => ?_, fun x hx y hy hle => ?_,
    fun x => ?_, h.once, h.nonempty, h.component, h.down, h.order⟩
  · rcases List.mem_cons.mp hx with rfl | hx
    · exact Or.inl rfl
    · exact Or.inr (h.met_of_stack x hx)
  · refine List.pairwise_cons.mpr ⟨fun y hy => ?_, h.newer.imp_of_mem fun hx hy hlt => ?_⟩
    · rw [hnew, hold (h.met_of_stack y hy)]
      exact hn y (h.met_of_stack y hy)
    · rw [hold (h.met_of_stack _ hx), hold (h.met_of_stack _ hy)]
      exact hlt
  · rcases List.mem_cons.mp hx with rfl | hx
    · exact List.mem_cons_self
    · exact List.mem_cons_of_mem _ (h.path_stack x hx)
  · rcases hx with rfl | hx
    · exact absurd List.mem_cons_self hpath'
    · exact Or.inr (h.explored x y hx (fun hin => hpath' (List.mem_cons_of_mem _ hin)) hedge)
  · rcases List.mem_cons.mp hy with rfl | hy
    · exact ⟨y, List.mem_cons_self, le_rfl, .refl⟩
    · obtain ⟨x, hx, hle, hback⟩ := h.back y hy
      refine ⟨x, List.mem_cons_of_mem _ hx, ?_, hback⟩
      rw [hold (hpath x hx), hold (h.met_of_stack y hy)]
      exact hle
  · rcases List.mem_cons.mp hx with rfl | hin
    · rcases List.mem_cons.mp hy with rfl | hy
      · exact .refl
      · rw [hnew, hold (h.met_of_stack y hy)] at hle
        exact absurd (hn y (h.met_of_stack y hy)) (not_lt.mpr hle)
    · rcases List.mem_cons.mp hy with rfl | hy
      · exact hreach x hin
      · rw [hold (hpath x hin), hold (h.met_of_stack y hy)] at hle
        exact h.forth x hin y hy hle
  · show x ∈ s.comps.flatten ↔ (x = v ∨ s.met x) ∧ x ∉ v :: s.stack
    rw [h.done, List.mem_cons, not_or]
    constructor
    · simp_all
    · grind

variable {new base : List α}

/-- What lies below a node of the stack is older. Kind: L -/
theorem Sound.older (h : Sound E path s) (hstack : s.stack = new ++ v :: base) :
    (∀ y ∈ base, s.num y < s.num v) ∧ ∀ x ∈ new, s.num v < s.num x := by
  have hnewer := h.newer
  rw [hstack, List.pairwise_append] at hnewer
  exact ⟨(List.pairwise_cons.mp hnewer.2.1).1, fun x hx => hnewer.2.2 x hx v List.mem_cons_self⟩

/-- Where the newest node of the path is explored, the rest of the path is all that is left to explore. Kind: L -/
theorem Sound.met_closed (h : Sound E (v :: path) s) (hv : ∀ y, E v y → s.met y) (x y : α) (hx : s.met x)
    (hpath : x ∉ path) (hedge : E x y) : s.met y := by
  by_cases hxv : x = v
  · exact hv y (hxv ▸ hedge)
  · exact h.explored x y hx (fun hin => (List.mem_cons.mp hin).elim hxv hpath) hedge

/-- A node that leads to an older one stays on the stack when it is left. Kind: P -/
theorem Sound.keep (h : Sound E (v :: path) s) (hv : ∀ y, E v y → s.met y) {z : α} (hz : z ∈ s.stack)
    (hlt : s.num z < s.num v) (hreach : ReflTransGen E v z) : Sound E path s where
  met_of_stack := h.met_of_stack
  newer := h.newer
  path_stack x hx := h.path_stack x (List.mem_cons_of_mem _ hx)
  explored := h.met_closed hv
  back y hy := by
    obtain ⟨x, hx, hle, hback⟩ := h.back y hy
    rcases List.mem_cons.mp hx with rfl | hx
    · obtain ⟨x', hx', hle', hback'⟩ := h.back z hz
      rcases List.mem_cons.mp hx' with rfl | hx'
      · exact absurd hlt (not_lt.mpr hle')
      · exact ⟨x', hx', (hle'.trans hlt.le).trans hle, hback.trans (hreach.trans hback')⟩
    · exact ⟨x, hx, hle, hback⟩
  forth x hx := h.forth x (List.mem_cons_of_mem _ hx)
  done := h.done
  once := h.once
  nonempty := h.nonempty
  component := h.component
  down := h.down
  order := h.order

theorem Sound.stack_nodup (h : Sound E path s) : s.stack.Nodup :=
  h.newer.imp fun hlt heq => absurd (heq ▸ hlt) (lt_irrefl _)

/-- A search leaves a node and takes it off the stack with all newer ones. Kind: D -/
def pop (s : Search α) (base C : List α) : Search α := { s with stack := base, comps := s.comps ++ [C] }

section

variable {C : List α}

/-- The newest nodes of the stack, down to one of the path, with no edge to an older one. Kind: D -/
structure Closing (E : α → α → Prop) (path : List α) (s : Search α) (v : α) (new base C : List α) : Prop where
  sound : Sound E (v :: path) s
  stack : s.stack = new ++ v :: base
  path : ∀ x ∈ path, x ∈ base
  explored : ∀ y, E v y → s.met y
  inside : ∀ x, x = v ∨ x ∈ new → ∀ y ∈ base, E x y → s.num v ≤ s.num y
  all : C.Perm (new ++ [v])

namespace Closing

variable (h : Closing E path s v new base C)

include h

theorem mem_iff {x : α} : x ∈ C ↔ x = v ∨ x ∈ new := by
  rw [h.all.mem_iff, List.mem_append, List.mem_singleton, or_comm]

theorem mem_stack_iff {x : α} : x ∈ s.stack ↔ x ∈ C ∨ x ∈ base := by
  rw [h.mem_iff, h.stack, List.mem_append, List.mem_cons, or_assoc, or_left_comm]

theorem num_le {x : α} (hx : x ∈ C) : s.num v ≤ s.num x := by
  rcases h.mem_iff.mp hx with rfl | hnew
  · exact le_rfl
  · exact ((h.sound.older h.stack).2 x hnew).le

theorem not_mem_base {x : α} (hx : x ∈ C) : x ∉ base := fun hbase =>
  absurd ((h.sound.older h.stack).1 x hbase) (not_lt.mpr (h.num_le hx))

/-- Edges from the component stay in it or go to finished ones. Kind: L -/
theorem closed (x y : α) (hx : x ∈ C ∨ x ∈ s.comps.flatten) (hedge : E x y) : y ∈ C ∨ y ∈ s.comps.flatten := by
  rcases hx with hC | hdone
  · have hmet := h.sound.met_of_stack x (h.mem_stack_iff.mpr (Or.inl hC))
    have hy := h.sound.met_closed h.explored x y hmet (fun hpath => h.not_mem_base hC (h.path x hpath)) hedge
    by_cases hstack : y ∈ s.stack
    · rcases h.mem_stack_iff.mp hstack with hC' | hbase
      · exact Or.inl hC'
      · have hle := h.inside x (h.mem_iff.mp hC) y hbase hedge
        exact absurd ((h.sound.older h.stack).1 y hbase) (not_lt.mpr hle)
    · exact Or.inr ((h.sound.done y).mpr ⟨hy, hstack⟩)
  · exact Or.inr (h.sound.down x y hdone hedge)

theorem not_done {x : α} (hx : x ∈ s.stack) : x ∉ s.comps.flatten := fun hdone => ((h.sound.done x).mp hdone).2 hx

/-- Every node of the component leads to the one of the path. Kind: L -/
theorem back {x : α} (hx : x ∈ C) : ReflTransGen E x v := by
  obtain ⟨g, hg, _, hreach⟩ := h.sound.back x (h.mem_stack_iff.mpr (Or.inl hx))
  rcases List.mem_cons.mp hg with rfl | hpath
  · exact hreach
  · have hbase := h.path g hpath
    rcases closed_of_reach h.closed (Or.inl hx) hreach with hC | hdone
    · exact absurd hbase (h.not_mem_base hC)
    · exact absurd hdone (h.not_done (h.mem_stack_iff.mpr (Or.inr hbase)))

theorem forth {x : α} (hx : x ∈ C) : ReflTransGen E v x :=
  h.sound.forth v List.mem_cons_self x (h.mem_stack_iff.mpr (Or.inl hx)) (h.num_le hx)

/-- What leads to a node of the component and back is in it. Kind: L -/
theorem mem_of_reach {x y : α} (hx : x ∈ C) (hxy : ReflTransGen E x y) (hyx : ReflTransGen E y x) : y ∈ C := by
  rcases closed_of_reach h.closed (Or.inl hx) hxy with hC | hdone
  · exact hC
  · have hdone' := closed_of_reach (P := fun z => z ∈ s.comps.flatten) h.sound.down hdone hyx
    exact absurd hdone' (h.not_done (h.mem_stack_iff.mpr (Or.inl hx)))

/-- A node that leads to no older one is left, and a component is finished. Kind: P -/
theorem pop : Sound E path (s.pop base C) := by
  have hbase : ∀ {x}, x ∈ base → x ∈ s.stack := fun hx => h.mem_stack_iff.mpr (Or.inr hx)
  have hflatten : ∀ {x}, x ∈ (s.pop base C).comps.flatten ↔ x ∈ s.comps.flatten ∨ x ∈ C := by
    intro x
    show x ∈ (s.comps ++ [C]).flatten ↔ _
    rw [List.flatten_append, List.mem_append, List.flatten_singleton]
  have hsublist : (new ++ [v]).Sublist s.stack := by
    rw [h.stack, show new ++ v :: base = (new ++ [v]) ++ base by rw [List.append_assoc, List.singleton_append]]
    exact List.sublist_append_left _ _
  refine ⟨fun x hx => h.sound.met_of_stack x (hbase hx), ?_, h.path, h.sound.met_closed h.explored, fun y hy => ?_,
    fun x hx y hy => h.sound.forth x (List.mem_cons_of_mem _ hx) y (hbase hy), fun x => ?_, ?_, ?_,
    fun D hD x hx y => ?_, fun x y hx hedge => ?_, ?_⟩
  · have hnewer := h.sound.newer
    rw [h.stack, List.pairwise_append] at hnewer
    exact (List.pairwise_cons.mp hnewer.2.1).2
  · obtain ⟨x, hx, hle, hreach⟩ := h.sound.back y (hbase hy)
    rcases List.mem_cons.mp hx with rfl | hpath
    · exact absurd ((h.sound.older h.stack).1 y hy) (not_lt.mpr hle)
    · exact ⟨x, hpath, hle, hreach⟩
  · rw [hflatten, h.sound.done, h.mem_stack_iff]
    show _ ↔ s.met x ∧ x ∉ base
    constructor
    · rintro (⟨hmet, hout⟩ | hC)
      · exact ⟨hmet, fun hin => hout (Or.inr hin)⟩
      · exact ⟨h.sound.met_of_stack x (h.mem_stack_iff.mpr (Or.inl hC)), h.not_mem_base hC⟩
    · grind
  · show (s.comps ++ [C]).flatten.Nodup
    rw [List.flatten_append, List.flatten_singleton]
    refine h.sound.once.append (h.all.nodup_iff.mpr (h.sound.stack_nodup.sublist hsublist)) fun x hdone hC => ?_
    exact h.not_done (h.mem_stack_iff.mpr (Or.inl hC)) hdone
  · intro hempty
    rcases List.mem_append.mp hempty with hold | hnew
    · exact h.sound.nonempty hold
    · have hv : v ∈ C := h.mem_iff.mpr (Or.inl rfl)
      rw [← List.mem_singleton.mp hnew] at hv
      exact List.not_mem_nil hv
  · rcases List.mem_append.mp hD with hold | hnew
    · exact h.sound.component D hold x hx y
    · rw [List.mem_singleton.mp hnew] at hx ⊢
      constructor
      · intro hy
        exact ⟨(h.back hx).trans (h.forth hy), (h.back hy).trans (h.forth hx)⟩
      · rintro ⟨hxy, hyx⟩
        exact h.mem_of_reach hx hxy hyx
  · rw [hflatten] at hx ⊢
    exact (h.closed x y hx.symm hedge).symm
  · show (s.comps ++ [C]).Pairwise _
    refine List.pairwise_append.mpr ⟨h.sound.order, List.pairwise_singleton _ _, fun D hD C' hC' x hx y hy hedge => ?_⟩
    rw [List.mem_singleton.mp hC'] at hy
    have hdone : y ∈ s.comps.flatten := h.sound.down x y (List.mem_flatten.mpr ⟨D, hD, hx⟩) hedge
    exact h.not_done (h.mem_stack_iff.mpr (Or.inl hy)) hdone

end Closing

end

/-! ## The end -/

/-- The components of some nodes: each node is in one, nodes share one exactly if they lead to each other, and an
edge goes to no later one. Kind: D -/
structure AreComponents (E : α → α → Prop) (nodes : List α) (comps : List (List α)) : Prop where
  partition : comps.flatten.Perm nodes
  nonempty : [] ∉ comps
  share : ∀ x ∈ nodes, ∀ y ∈ nodes, (∃ C ∈ comps, x ∈ C ∧ y ∈ C) ↔ ReflTransGen E x y ∧ ReflTransGen E y x
  order : ∀ x y, E x y → ∀ i j : Fin comps.length, x ∈ comps.get i → y ∈ comps.get j → j ≤ i

/-- A search that has met all nodes and is on no path has their components. Kind: P -/
theorem Sound.areComponents (h : Sound E [] s) {nodes : List α} (hnodes : nodes.Nodup)
    (hmet : ∀ x, s.met x ↔ x ∈ nodes) : AreComponents E nodes s.comps := by
  have hempty : s.stack = [] := by
    rw [List.eq_nil_iff_forall_not_mem]
    intro y hy
    obtain ⟨x, hx, _⟩ := h.back y hy
    exact List.not_mem_nil hx
  have hdone : ∀ x, x ∈ s.comps.flatten ↔ x ∈ nodes := by
    intro x
    rw [h.done, hempty, hmet]
    exact and_iff_left List.not_mem_nil
  refine ⟨(List.perm_ext_iff_of_nodup h.once hnodes).mpr hdone, h.nonempty, fun x hx y _ => ?_, fun x y hedge i j hx hy => ?_⟩
  · constructor
    · rintro ⟨C, hC, hxC, hyC⟩
      exact (h.component C hC x hxC y).mp hyC
    · intro hreach
      obtain ⟨C, hC, hxC⟩ := List.mem_flatten.mp ((hdone x).mpr hx)
      exact ⟨C, hC, hxC, (h.component C hC x hxC y).mpr hreach⟩
  · by_contra hlt
    have hlater : i < j := by omega
    exact List.pairwise_iff_get.mp h.order i j hlater x hx y hy hedge

end Search

end KarsaSec.Found
