import KarsaSec.Found.Worklist
import Mathlib.Algebra.GroupWithZero.Nat
import Mathlib.Algebra.Order.BigOperators.Group.List
import Mathlib.Algebra.Order.Group.Nat
import Mathlib.Data.List.Count

/-!
# All paths without a repeated node

A search that follows every edge from a node, does not enter the nodes on its way again, and ends at the target. Edges that
run side by side are followed one by one.

* `ways` is the number of choices of edges along a list of nodes.
* `pathsFrom_spec`: the search ends, and returns each path without a repeated node once for each choice of edges, and
  nothing else.
* `exists_simple_iff`: there is such a path exactly if the edges lead to the target.
-/

namespace KarsaSec.Found

variable {α : Type*} [DecidableEq α] (next : α → List α)

/-- What a search gives for each element of a list, one after the other. Kind: D -/
def gather {β : Type*} (f : α → Option (List β)) : List α → Option (List β)
  | [] => some []
  | b :: bs => (f b).bind fun r => (gather f bs).map (r ++ ·)

/-- The paths to the target that do not enter the seen nodes, with a bound on their length. Kind: D -/
def pathsFrom (target : α) : ℕ → List α → α → Option (List (List α))
  | 0, _, _ => none
  | n + 1, seen, a =>
    if a ∈ seen then some []
    else if a = target then some [[a]]
    else (gather (pathsFrom target n (seen ++ [a])) (next a)).map fun r => r.map (a :: ·)

/-- The number of ways to choose an edge for each step of a path. Kind: D -/
def ways : List α → ℕ
  | [] => 0
  | [_] => 1
  | a :: b :: rest => (next a).count b * ways (b :: rest)

/-- A list of different nodes from one to the other, none of them seen. Kind: D -/
structure Simple (seen : List α) (a target : α) (path : List α) : Prop where
  head : path.head? = some a
  last : path.getLast? = some target
  nodup : path.Nodup
  unseen : ∀ x ∈ path, x ∉ seen

instance (seen : List α) (a target : α) (path : List α) : Decidable (Simple seen a target path) :=
  decidable_of_iff (path.head? = some a ∧ path.getLast? = some target ∧ path.Nodup ∧ ∀ x ∈ path, x ∉ seen)
    ⟨fun h => ⟨h.1, h.2.1, h.2.2.1, h.2.2.2⟩, fun h => ⟨h.head, h.last, h.nodup, h.unseen⟩⟩

/-- How often a path is to be returned. Kind: D -/
def pathCount (seen : List α) (a target : α) (path : List α) : ℕ := if Simple seen a target path then ways next path else 0

variable {next} {target a b : α} {seen path rest all : List α}

omit [DecidableEq α] in
theorem gather_spec {β : Type*} [BEq β] {f : α → Option (List β)} {c : α → β → ℕ} (bs : List α)
    (h : ∀ b ∈ bs, ∃ r, f b = some r ∧ ∀ q, r.count q = c b q) :
    ∃ r, gather f bs = some r ∧ ∀ q, r.count q = (bs.map fun b => c b q).sum := by
  induction bs with
  | nil => exact ⟨[], rfl, fun q => rfl⟩
  | cons b bs ih =>
    obtain ⟨r, hr, hcount⟩ := h b List.mem_cons_self
    obtain ⟨r', hr', hcount'⟩ := ih fun c hc => h c (List.mem_cons_of_mem b hc)
    refine ⟨r ++ r', ?_, fun q => ?_⟩
    · rw [gather, hr, Option.bind_some, hr', Option.map_some]
    · rw [List.count_append, hcount, hcount', List.map_cons, List.sum_cons]

/-- What is counted for one element only is counted as often as the element is there. Kind: L -/
theorem sum_map_eq {c : α → ℕ} (bs : List α) (h : ∀ x ≠ b, c x = 0) : (bs.map c).sum = bs.count b * c b := by
  induction bs with
  | nil => rw [List.map_nil, List.sum_nil, List.count_nil, Nat.zero_mul]
  | cons x bs ih =>
    rw [List.map_cons, List.sum_cons, ih, List.count_cons]
    by_cases hx : x = b
    · rw [hx, if_pos (beq_self_eq_true b), Nat.succ_mul, Nat.add_comm]
    · rw [h x hx, if_neg fun heq => hx (beq_iff_eq.mp heq), Nat.zero_add, Nat.add_zero]

omit [DecidableEq α] in
/-- A path that avoids some nodes avoids fewer. Kind: L -/
theorem Simple.of_seen {fewer : List α} (h : Simple seen a target path) (hsub : ∀ x ∈ fewer, x ∈ seen) :
    Simple fewer a target path :=
  ⟨h.head, h.last, h.nodup, fun x hx hmem => h.unseen x hx (hsub x hmem)⟩

omit [DecidableEq α] in
/-- A path goes on from its second node, with its first one seen. Kind: L -/
theorem simple_cons_iff (ha : a ∉ seen) : Simple seen a target (a :: b :: rest) ↔ Simple (seen ++ [a]) b target (b :: rest) := by
  constructor
  · rintro ⟨-, hlast, hnodup, hunseen⟩
    rw [List.nodup_cons] at hnodup
    refine ⟨rfl, hlast, hnodup.2, fun x hx hmem => ?_⟩
    rcases List.mem_append.mp hmem with hmem | hmem
    · exact hunseen x (List.mem_cons_of_mem a hx) hmem
    · exact hnodup.1 (List.mem_singleton.mp hmem ▸ hx)
  · rintro ⟨-, hlast, hnodup, hunseen⟩
    refine ⟨rfl, hlast, List.nodup_cons.mpr ⟨fun hmem => ?_, hnodup⟩, fun x hx hmem => ?_⟩
    · exact hunseen a hmem (List.mem_append_right seen (List.mem_singleton.mpr rfl))
    · rcases List.mem_cons.mp hx with rfl | hx
      · exact ha hmem
      · exact hunseen x hx (List.mem_append_left [a] hmem)

/-- The paths from a node that is not the target: an edge, and a path on. Kind: L -/
theorem pathCount_cons (ha : a ∉ seen) (htarget : a ≠ target) (q : List α) :
    pathCount next seen a target (a :: q) = ((next a).map fun b => pathCount next (seen ++ [a]) b target q).sum := by
  cases q with
  | nil =>
    have hzero : ∀ b, pathCount next (seen ++ [a]) b target [] = 0 := fun b => if_neg fun h => absurd h.head (by simp)
    rw [List.sum_eq_zero fun m hm => by obtain ⟨b, -, rfl⟩ := List.mem_map.mp hm; exact hzero b]
    exact if_neg fun h => htarget (Option.some.inj h.last)
  | cons b rest =>
    have hother : ∀ x ≠ b, pathCount next (seen ++ [a]) x target (b :: rest) = 0 := fun x hx =>
      if_neg fun h => hx (Option.some.inj h.head).symm
    rw [sum_map_eq (next a) hother]
    unfold pathCount
    by_cases hsimple : Simple (seen ++ [a]) b target (b :: rest)
    · rw [if_pos hsimple, if_pos ((simple_cons_iff ha).mpr hsimple)]
      rfl
    · rw [if_neg hsimple, if_neg (mt (simple_cons_iff ha).mp hsimple), Nat.mul_zero]

/-- From the target there is the path that stays there. Kind: L -/
theorem pathCount_self (ha : a ∉ seen) (htarget : a = target) (p : List α) :
    pathCount next seen a target p = if p = [a] then 1 else 0 := by
  subst htarget
  by_cases hp : p = [a]
  · subst hp
    refine (if_pos ⟨rfl, rfl, List.nodup_singleton a, fun x hx => ?_⟩).trans (if_pos rfl).symm
    rw [List.mem_singleton.mp hx]
    exact ha
  · rw [if_neg hp, pathCount, if_neg]
    rintro ⟨hhead, hlast, hnodup, -⟩
    obtain ⟨rest, rfl⟩ := List.head?_eq_some_iff.mp hhead
    rcases List.eq_nil_or_concat' rest with rfl | ⟨front, x, rfl⟩
    · exact hp rfl
    · rw [← List.cons_append, List.getLast?_concat] at hlast
      rw [List.nodup_cons, Option.some.inj hlast] at hnodup
      exact hnodup.1 (List.mem_append_right front (List.mem_singleton.mpr rfl))

/-- **The search ends, and returns each path without a repeated node once for each choice of edges.** Kind: P -/
theorem pathsFrom_spec (hall : ∀ a, ∀ b ∈ next a, b ∈ all) {n : ℕ} (ha : a ∈ all) (hn : unvisited all seen < n) :
    ∃ paths, pathsFrom next target n seen a = some paths ∧ ∀ p, paths.count p = pathCount next seen a target p := by
  induction n generalizing a seen with
  | zero => exact absurd hn (Nat.not_lt_zero _)
  | succ n ih =>
    rw [pathsFrom]
    by_cases hseen : a ∈ seen
    · refine ⟨[], if_pos hseen, fun p => (if_neg fun h => ?_).symm⟩
      exact h.unseen a (List.mem_of_mem_head? h.head) hseen
    rw [if_neg hseen]
    by_cases htarget : a = target
    · refine ⟨[[a]], if_pos htarget, fun p => ?_⟩
      rw [pathCount_self hseen htarget, List.count_singleton]
      by_cases hp : p = [a]
      · rw [if_pos hp, if_pos (beq_iff_eq.mpr hp.symm)]
      · rw [if_neg hp, if_neg fun heq => hp (beq_iff_eq.mp heq).symm]
    rw [if_neg htarget]
    have hless : unvisited all (seen ++ [a]) < n := Nat.lt_of_lt_of_le (unvisited_lt ha hseen) (Nat.le_of_lt_succ hn)
    obtain ⟨paths, hpaths, hcount⟩ := gather_spec (next a) fun b hb => ih (hall a b hb) hless
    refine ⟨paths.map (a :: ·), by rw [hpaths, Option.map_some], fun p => ?_⟩
    by_cases hhead : p.head? = some a
    · obtain ⟨q, rfl⟩ := List.head?_eq_some_iff.mp hhead
      rw [List.count_map_of_injective paths (a :: ·) (List.cons_injective), hcount, pathCount_cons hseen htarget]
    · rw [pathCount, if_neg fun h => hhead h.head, List.count_eq_zero]
      intro hmem
      obtain ⟨q, -, rfl⟩ := List.mem_map.mp hmem
      exact hhead rfl

/-! ## Where a path is -/

/-- A path can be chosen exactly if there is an edge for each step. Kind: L -/
theorem ways_pos_iff : {path : List α} → 0 < ways next path ↔ path ≠ [] ∧ path.IsChain fun a b => b ∈ next a
  | [] => by simp [ways]
  | [_] => by simp [ways]
  | a :: b :: rest => by
    rw [ways, Nat.pos_iff_ne_zero, Nat.mul_ne_zero_iff, ← Nat.pos_iff_ne_zero, ← Nat.pos_iff_ne_zero, ways_pos_iff,
      List.count_pos_iff, List.isChain_cons_cons]
    simp

/-- What is not on a path yet is put before it, and what is on it cuts it short. Kind: L -/
theorem exists_simple_of_edge {path : List α} (hedge : b ∈ next a) (h : Simple [] b target path) (hways : 0 < ways next path) :
    ∃ path, Simple [] a target path ∧ 0 < ways next path := by
  obtain ⟨hne, hchain⟩ := ways_pos_iff.mp hways
  by_cases ha : a ∈ path
  · obtain ⟨front, rest, rfl⟩ := List.append_of_mem ha
    have hsuffix : (a :: rest) <:+ front ++ a :: rest := List.suffix_append front (a :: rest)
    refine ⟨a :: rest, ⟨rfl, ?_, h.nodup.sublist hsuffix.sublist, fun x _ => List.not_mem_nil⟩,
      ways_pos_iff.mpr ⟨List.cons_ne_nil a rest, hchain.suffix hsuffix⟩⟩
    rw [← h.last, List.getLast?_append_of_ne_nil front (List.cons_ne_nil a rest)]
  · obtain ⟨rest, rfl⟩ := List.head?_eq_some_iff.mp h.head
    refine ⟨a :: b :: rest, ⟨rfl, ?_, List.nodup_cons.mpr ⟨ha, h.nodup⟩, fun x _ => List.not_mem_nil⟩,
      ways_pos_iff.mpr ⟨List.cons_ne_nil a _, List.isChain_cons_cons.mpr ⟨hedge, hchain⟩⟩⟩
    rw [List.getLast?_cons_cons, h.last]

/-- **There is a path without a repeated node exactly if the edges lead to the target.** Kind: P -/
theorem exists_simple_iff : (∃ path, Simple [] a target path ∧ 0 < ways next path) ↔ Reaches next a target := by
  constructor
  · rintro ⟨path, hsimple, hways⟩
    obtain ⟨hne, hchain⟩ := ways_pos_iff.mp hways
    have hreaches := List.relationReflTransGen_of_exists_isChain path hchain hne
    rwa [List.head_of_mem_head? hsimple.head, List.getLast_of_mem_getLast? hsimple.last] at hreaches
  · intro h
    induction h using Relation.ReflTransGen.head_induction_on with
    | refl =>
      refine ⟨[target], ⟨rfl, rfl, List.nodup_singleton target, fun x _ => List.not_mem_nil⟩, Nat.one_pos⟩
    | head hedge _ ih =>
      obtain ⟨path, hsimple, hways⟩ := ih
      exact exists_simple_of_edge hedge hsimple hways

end KarsaSec.Found
