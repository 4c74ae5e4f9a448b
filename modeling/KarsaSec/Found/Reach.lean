import Mathlib.Data.List.Basic
import Mathlib.Logic.Relation

/-!
# Reachability

Breadth-first search over a list of edges.

* `bfs` pops a queue; a node that is new is kept and its targets that are not kept yet are queued.
* `mem_reachFrom`: what the search keeps is what can be reached along edges.
-/

namespace KarsaSec.Found

variable {α : Type*} [DecidableEq α] (edges : List (α × α))

/-- The targets of the edges that leave a node, in order. Kind: D -/
def targets (a : α) : List α := (edges.filter fun e => e.1 = a).map Prod.snd

/-- Breadth-first search with a bound on the number of pops. Kind: D -/
def bfs : ℕ → List α → List α → List α
  | 0, _, kept => kept
  | _ + 1, [], kept => kept
  | n + 1, a :: queue, kept =>
    if a ∈ kept then bfs n queue kept
    else bfs n (queue ++ (targets edges a).filter fun b => b ∉ kept ++ [a]) (kept ++ [a])

/-- The search, where the bound on the pops is not met. Kind: D -/
def bfsWithin : ℕ → List α → List α → Option (List α)
  | 0, _, _ => none
  | _ + 1, [], kept => some kept
  | n + 1, a :: queue, kept =>
    if a ∈ kept then bfsWithin n queue kept
    else bfsWithin n (queue ++ (targets edges a).filter fun b => b ∉ kept ++ [a]) (kept ++ [a])

/-- What the search keeps from one start; no node is expanded twice, so the edges bound the pops.
Kind: D -/
def reachFrom (start : α) : List α := bfs edges (edges.length + 2) [start] []

variable {edges}

theorem mem_targets {a b : α} : b ∈ targets edges a ↔ (a, b) ∈ edges := by
  simp [targets]

/-- The edges that leave nodes not kept yet. Kind: D -/
def freshEdges (edges : List (α × α)) (kept : List α) : List (α × α) :=
  edges.filter fun e => e.1 ∉ kept

/-- Keeping a new node uses up its edges. Kind: L -/
theorem length_freshEdges {kept : List α} {a : α} (ha : a ∉ kept) :
    (freshEdges edges (kept ++ [a])).length + (targets edges a).length =
      (freshEdges edges kept).length := by
  unfold freshEdges targets
  rw [List.length_map]
  simp only [List.mem_append, List.mem_singleton]
  induction edges with
  | nil => rfl
  | cons e rest ih =>
    by_cases hea : e.1 = a
    · grind
    · by_cases hin : e.1 ∈ kept
      · simp_all
      · grind

/-- The search keeps what it has kept. Kind: L -/
theorem mem_bfs_of_mem {n : ℕ} {queue kept : List α} {a : α} (h : a ∈ kept) :
    a ∈ bfs edges n queue kept := by
  induction n generalizing queue kept with
  | zero => exact h
  | succ n ih =>
    rcases queue with _ | ⟨b, queue⟩
    · exact h
    · grind [bfs]

/-- Only nodes that can be reached are kept. Kind: L -/
theorem bfs_sound {P : α → Prop} (hstep : ∀ a b, P a → (a, b) ∈ edges → P b) {n : ℕ}
    {queue kept : List α} (hq : ∀ a ∈ queue, P a) (hk : ∀ a ∈ kept, P a) :
    ∀ a ∈ bfs edges n queue kept, P a := by
  induction n generalizing queue kept with
  | zero => exact hk
  | succ n ih =>
    rcases queue with _ | ⟨b, queue⟩
    · exact hk
    · unfold bfs
      have hb : P b := hq b List.mem_cons_self
      have hrest : ∀ a ∈ queue, P a := fun a ha => hq a (List.mem_cons_of_mem _ ha)
      split
      · exact ih hrest hk
      · refine ih (fun a ha => ?_) fun a ha => ?_
        · grind [mem_targets]
        · grind

/-- With a bound that covers the queue and the edges of new nodes, the search keeps the queue and is
closed under edges. Kind: L -/
theorem bfs_closed {n : ℕ} {queue kept : List α}
    (hn : queue.length + (freshEdges edges kept).length < n)
    (hclosed : ∀ a ∈ kept, ∀ b, (a, b) ∈ edges → b ∈ kept ∨ b ∈ queue) :
    (∀ a ∈ queue, a ∈ bfs edges n queue kept) ∧
      ∀ a ∈ bfs edges n queue kept, ∀ b, (a, b) ∈ edges → b ∈ bfs edges n queue kept := by
  induction n generalizing queue kept with
  | zero => omega
  | succ n ih =>
    rcases queue with _ | ⟨c, queue⟩
    · refine ⟨fun a ha => absurd ha List.not_mem_nil, fun a ha b hab => ?_⟩
      exact (hclosed a ha b hab).resolve_right List.not_mem_nil
    · rw [List.length_cons] at hn
      unfold bfs
      split
      · rename_i hc
        have hcl : ∀ a ∈ kept, ∀ b, (a, b) ∈ edges → b ∈ kept ∨ b ∈ queue := by grind
        obtain ⟨hq, hcl'⟩ := ih (by omega) hcl
        refine ⟨fun a ha => ?_, hcl'⟩
        rcases List.mem_cons.mp ha with rfl | ha
        · exact mem_bfs_of_mem hc
        · exact hq a ha
      · rename_i hc
        set more := (targets edges c).filter fun b => b ∉ kept ++ [c] with hmore
        have hfresh := @length_freshEdges _ _ edges _ _ hc
        have hlen : more.length ≤ (targets edges c).length := List.length_filter_le _ _
        have hcl : ∀ a ∈ kept ++ [c], ∀ b, (a, b) ∈ edges →
            b ∈ kept ++ [c] ∨ b ∈ queue ++ more := by
          intro a ha b hab
          by_cases hb : b ∈ kept ++ [c]
          · exact Or.inl hb
          · right
            rcases List.mem_append.mp ha with ha | ha
            · grind
            · obtain rfl := List.mem_singleton.mp ha
              refine List.mem_append_right _ (List.mem_filter.mpr ⟨mem_targets.mpr hab, ?_⟩)
              simpa using hb
        have hbound : (queue ++ more).length + (freshEdges edges (kept ++ [c])).length < n := by
          rw [List.length_append]
          omega
        obtain ⟨hq, hcl'⟩ := ih hbound hcl
        refine ⟨fun a ha => ?_, hcl'⟩
        rcases List.mem_cons.mp ha with rfl | ha
        · simp [mem_bfs_of_mem]
        · exact hq a (List.mem_append_left _ ha)

/-- The queue and the edges of new nodes bound the pops. Kind: L -/
theorem bfsWithin_eq_some {n : ℕ} {queue kept : List α} (hn : queue.length + (freshEdges edges kept).length < n) :
    bfsWithin edges n queue kept = some (bfs edges n queue kept) := by
  induction n generalizing queue kept with
  | zero => exact absurd hn (Nat.not_lt_zero _)
  | succ n ih =>
    rcases queue with _ | ⟨a, queue⟩
    · rfl
    · rw [List.length_cons] at hn
      unfold bfsWithin bfs
      by_cases ha : a ∈ kept
      · rw [if_pos ha, if_pos ha]
        exact ih (by omega)
      · have hfresh := @length_freshEdges _ _ edges _ _ ha
        have hlen := List.length_filter_le (fun b => decide (b ∉ kept ++ [a])) (targets edges a)
        rw [if_neg ha, if_neg ha]
        refine ih ?_
        rw [List.length_append]
        omega

theorem bfsWithin_start (start : α) : bfsWithin edges (edges.length + 2) [start] [] = some (reachFrom edges start) := by
  refine bfsWithin_eq_some ?_
  have hle := List.length_filter_le (fun e => decide (e.1 ∉ ([] : List α))) edges
  have hfresh : (freshEdges edges []).length ≤ edges.length := hle
  rw [List.length_singleton]
  omega

/-- **Breadth-first search keeps what can be reached.** Kind: P -/
theorem mem_reachFrom {start a : α} :
    a ∈ reachFrom edges start ↔ Relation.ReflTransGen (fun b c => (b, c) ∈ edges) start a := by
  constructor
  · refine bfs_sound (fun b c hb hbc => hb.tail hbc) (fun b hb => ?_)
      (fun b hb => absurd hb List.not_mem_nil) a
    rw [List.mem_singleton.mp hb]
  · intro h
    have hfresh : freshEdges edges [] = edges := by simp [freshEdges]
    have hbound : [start].length + (freshEdges edges []).length < edges.length + 2 := by
      rw [hfresh, List.length_singleton]
      omega
    obtain ⟨hstart, hclosed⟩ := bfs_closed hbound fun b hb => absurd hb List.not_mem_nil
    induction h with
    | refl => exact hstart start (List.mem_singleton.mpr rfl)
    | tail _ hbc ih => exact hclosed _ ih _ hbc

end KarsaSec.Found
