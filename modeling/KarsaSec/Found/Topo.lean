import Mathlib.Data.List.Basic
import Mathlib.Data.List.Induction
import Mathlib.Data.List.Nodup
import Mathlib.Data.List.Count
import Mathlib.Data.Fintype.Card
import Mathlib.Data.Set.Finite.Basic
import Mathlib.Logic.Relation
import Mathlib.Algebra.Order.Ring.Int

/-!
# Topological orders by counting

A graph is a list of nodes and a list of edges from parent to child, with as many copies of an edge as
the parent is named.

* `order` is the loop that takes a node with no open parent from a queue and closes it for its children.
* `order_spec`: it lists each node once, parents first, and leaves out no node whose parents it lists.
* `mem_order_of_acyclic`, `length_order_eq_iff`: it lists every node if there is no cycle, and only then.
-/

namespace KarsaSec.Found.Topo

variable {ι : Type*}

/-! ## Parents first -/

/-- Every node of a list comes after the parents it names. Kind: D -/
def ParentsFirst (edges : List (ι × ι)) (l : List ι) : Prop :=
  ∀ pre k post, l = pre ++ k :: post → ∀ p, (p, k) ∈ edges → p ∈ pre

theorem ParentsFirst.snoc {edges : List (ι × ι)} {l : List ι} {k : ι} (h : ParentsFirst edges l)
    (hk : ∀ p, (p, k) ∈ edges → p ∈ l) : ParentsFirst edges (l ++ [k]) := by
  intro pre k' post heq p hp
  rcases List.eq_nil_or_concat post with rfl | ⟨post, last, rfl⟩
  · simp_all
  · rw [List.concat_eq_append, ← List.cons_append, ← List.append_assoc] at heq
    obtain ⟨heq', -⟩ := List.append_inj' heq rfl
    exact h pre k' post heq' p hp

/-! ## The order -/

variable [DecidableEq ι]

/-- The number of times a node names a parent. Kind: D -/
def inDegree (edges : List (ι × ι)) (k : ι) : ℤ := edges.countP fun e => e.2 = k

/-- The nodes that name `p`, once for each time. Kind: D -/
def children (edges : List (ι × ι)) (p : ι) : List ι :=
  (edges.filter fun e => e.1 = p).map Prod.snd

/-- A closed node is counted off at its children; a child with nothing left to wait for is queued. Kind: D -/
def release : (ι → ℤ) → List ι → List ι → (ι → ℤ) × List ι
  | deg, queue, [] => (deg, queue)
  | deg, queue, c :: cs =>
    let left := deg c - 1
    release (Function.update deg c left) (if left = 0 then queue ++ [c] else queue) cs

/-- The loop over the queue. Kind: D -/
def drain (edges : List (ι × ι)) : ℕ → (ι → ℤ) → List ι → List ι → List ι
  | 0, _, _, done => done
  | _ + 1, _, [], done => done
  | fuel + 1, deg, curr :: rest, done =>
    let next := release deg rest (children edges curr)
    drain edges fuel next.1 next.2 (done ++ [curr])

/-- The nodes in the order in which they are closed. Kind: D -/
def order (ids : List ι) (edges : List (ι × ι)) : List ι :=
  drain edges (ids.length + 1) (inDegree edges) (ids.filter fun k => inDegree edges k = 0) []

/-- The number of times a node names a parent that is not closed. Kind: D -/
def open' (edges : List (ι × ι)) (done : List ι) (k : ι) : ℕ :=
  edges.countP fun e => e.2 = k ∧ e.1 ∉ done

theorem open'_eq_zero {edges : List (ι × ι)} {done : List ι} {k : ι} :
    open' edges done k = 0 ↔ ∀ p, (p, k) ∈ edges → p ∈ done := by
  unfold open'
  rw [List.countP_eq_zero]
  constructor
  · grind
  · grind

theorem count_children (edges : List (ι × ι)) (p k : ι) :
    (children edges p).count k = edges.countP fun e => e.2 = k ∧ e.1 = p := by
  unfold children
  rw [List.count, List.countP_map, List.countP_filter]
  congr 1
  funext e
  simp [Bool.decide_and, beq_eq_decide]

/-- Closing a node closes what its children name. Kind: L -/
theorem open'_snoc (edges : List (ι × ι)) {done : List ι} {curr : ι} (h : curr ∉ done) (k : ι) :
    open' edges (done ++ [curr]) k + (children edges curr).count k = open' edges done k := by
  rw [count_children]
  unfold open'
  induction edges with
  | nil => rfl
  | cons e edges ih =>
    simp only [List.countP_cons, decide_eq_true_eq, List.mem_append, List.mem_singleton] at ih ⊢
    by_cases hk : e.2 = k
    · by_cases hcurr : e.1 = curr
      · grind
      · grind
    · simp_all

/-- What counting off at a list of children does: every child loses as many as it is listed, and the ones
that had no more than that are queued, each once. Kind: L -/
theorem release_spec (cs : List ι) (deg : ι → ℤ) (queue : List ι)
    (hdeg : ∀ k, (cs.count k : ℤ) ≤ deg k) :
    (∀ k, (release deg queue cs).1 k = deg k - cs.count k) ∧
      ∃ new : List ι, (release deg queue cs).2 = queue ++ new ∧ new.Nodup ∧
        ∀ k, k ∈ new ↔ k ∈ cs ∧ deg k = cs.count k := by
  induction cs generalizing deg queue with
  | nil => exact ⟨by simp [release], [], by simp [release], List.nodup_nil, by simp⟩
  | cons c cs ih =>
    have hc := hdeg c
    rw [List.count_cons_self] at hc
    push_cast at hc
    have hdeg' : ∀ k, (cs.count k : ℤ) ≤ Function.update deg c (deg c - 1) k := by
      intro k
      by_cases hk : k = c
      · subst hk
        rw [Function.update_self]
        omega
      · rw [Function.update_of_ne hk]
        have hle := hdeg k
        rwa [List.count_cons_of_ne (Ne.symm hk)] at hle
    obtain ⟨hdegs, new, hqueue, hnodup, hnew⟩ :=
      ih (Function.update deg c (deg c - 1)) (if deg c - 1 = 0 then queue ++ [c] else queue) hdeg'
    refine ⟨fun k => ?_, ?_⟩
    · simp only [release]
      rw [hdegs k]
      by_cases hk : k = c
      · subst hk
        rw [Function.update_self, List.count_cons_self]
        push_cast
        omega
      · rw [Function.update_of_ne hk, List.count_cons_of_ne (Ne.symm hk)]
    · have hother : ∀ k, k ≠ c → (k ∈ new ↔ k ∈ c :: cs ∧ deg k = (c :: cs).count k) := by
        intro k hk
        rw [hnew k, Function.update_of_ne hk, List.count_cons_of_ne (Ne.symm hk), List.mem_cons]
        simp [hk]
      have hself : c ∈ new ↔ c ∈ cs ∧ deg c - 1 = cs.count c := by
        rw [hnew c, Function.update_self]
      by_cases hzero : deg c - 1 = 0
      · have hcount : cs.count c = 0 := by omega
        have hnot : c ∉ cs := List.count_eq_zero.mp hcount
        refine ⟨c :: new, ?_, List.nodup_cons.mpr ⟨fun h => hnot (hself.mp h).1, hnodup⟩, fun k => ?_⟩
        · simp only [release, hzero, if_true] at hqueue ⊢
          rw [hqueue]
          simp
        · by_cases hk : k = c
          · subst hk
            refine iff_of_true List.mem_cons_self ⟨List.mem_cons_self, ?_⟩
            rw [List.count_cons_self, hcount]
            push_cast
            omega
          · rw [List.mem_cons, hother k hk]
            simp [hk]
      · refine ⟨new, ?_, hnodup, fun k => ?_⟩
        · simp only [release, if_neg hzero] at hqueue ⊢
          exact hqueue
        · by_cases hk : k = c
          · subst hk
            rw [hself, List.count_cons_self]
            constructor
            · grind
            · grind
          · exact hother k hk

/-! ## The loop -/

/-- What holds each time the loop looks at its queue. Kind: C -/
structure Draining (ids : List ι) (edges : List (ι × ι)) (deg : ι → ℤ) (queue done : List ι) :
    Prop where
  counted : ∀ k, deg k = open' edges done k
  nodup : (done ++ queue).Nodup
  ready : ∀ k ∈ done ++ queue, k ∈ ids ∧ open' edges done k = 0
  known : ∀ k ∈ ids, open' edges done k = 0 → k ∈ done ++ queue
  before : ParentsFirst edges done

/-- One turn of the loop. Kind: L -/
theorem Draining.step {ids : List ι} {edges : List (ι × ι)} {deg : ι → ℤ} {curr : ι}
    {rest done : List ι} (hedges : ∀ e ∈ edges, e.2 ∈ ids)
    (h : Draining ids edges deg (curr :: rest) done) :
    Draining ids edges (release deg rest (children edges curr)).1
      (release deg rest (children edges curr)).2 (done ++ [curr]) := by
  have hcurr : curr ∉ done := by
    intro hmem
    exact (List.disjoint_of_nodup_append h.nodup) hmem List.mem_cons_self
  have hcount := open'_snoc edges hcurr
  obtain ⟨hdeg, new, hqueue, hnodup, hnew⟩ := release_spec (children edges curr) deg rest
    (fun k => by
      rw [h.counted k]
      have hk := hcount k
      omega)
  have hnew' : ∀ k, k ∈ new ↔ open' edges done k ≠ 0 ∧ open' edges (done ++ [curr]) k = 0 := by
    intro k
    have hk := hcount k
    rw [hnew k, h.counted k, ← List.count_pos_iff]
    omega
  have hopen : ∀ k, open' edges done k = 0 → open' edges (done ++ [curr]) k = 0 := by
    intro k hzero
    have hk := hcount k
    omega
  have hsplit : (done ++ [curr]) ++ (rest ++ new) = (done ++ curr :: rest) ++ new := by simp
  rw [hqueue]
  constructor
  · intro k
    rw [hdeg k, h.counted k]
    have hk := hcount k
    omega
  · rw [hsplit]
    refine List.nodup_append.mpr ⟨h.nodup, hnodup, fun a ha b hb => ?_⟩
    rintro rfl
    exact ((hnew' a).mp hb).1 (h.ready a ha).2
  · intro k hk
    rw [hsplit, List.mem_append] at hk
    rcases hk with hk | hk
    · exact ⟨(h.ready k hk).1, hopen k (h.ready k hk).2⟩
    · refine ⟨?_, ((hnew' k).mp hk).2⟩
      obtain ⟨e, he, rfl⟩ := List.mem_map.mp ((hnew k).mp hk).1
      exact hedges e (List.mem_of_mem_filter he)
  · intro k hk hzero
    rw [hsplit, List.mem_append]
    by_cases hold : open' edges done k = 0
    · exact Or.inl (h.known k hk hold)
    · exact Or.inr ((hnew' k).mpr ⟨hold, hzero⟩)
  · refine h.before.snoc fun p hp => ?_
    exact open'_eq_zero.mp (h.ready curr (by simp)).2 p hp

/-- The nodes of an order: each once, parents first, and none left out whose parents are there. Kind: C -/
structure IsOrder (ids : List ι) (edges : List (ι × ι)) (done : List ι) : Prop where
  nodup : done.Nodup
  subset : ∀ k ∈ done, k ∈ ids
  before : ParentsFirst edges done
  closed : ∀ k ∈ ids, (∀ p, (p, k) ∈ edges → p ∈ done) → k ∈ done

theorem Draining.isOrder {ids : List ι} {edges : List (ι × ι)} {deg : ι → ℤ} {done : List ι}
    (h : Draining ids edges deg [] done) : IsOrder ids edges done := by
  have hnodup := h.nodup
  rw [List.append_nil] at hnodup
  refine ⟨hnodup, fun k hk => (h.ready k (by simpa using hk)).1, h.before, fun k hk hparents => ?_⟩
  simpa using h.known k hk (open'_eq_zero.mpr hparents)

/-- The loop ends with an order: there is a turn for each node. Kind: L -/
theorem drain_isOrder {ids : List ι} {edges : List (ι × ι)} (hedges : ∀ e ∈ edges, e.2 ∈ ids)
    {fuel : ℕ} {deg : ι → ℤ} {queue done : List ι} (h : Draining ids edges deg queue done)
    (hfuel : ids.length < done.length + fuel) : IsOrder ids edges (drain edges fuel deg queue done) := by
  induction fuel generalizing deg queue done with
  | zero =>
    have hle : (done ++ queue).length ≤ ids.length :=
      h.nodup.length_le_of_subset fun k hk => (h.ready k hk).1
    rw [List.length_append] at hle
    omega
  | succ fuel ih =>
    rcases queue with _ | ⟨curr, rest⟩
    · exact h.isOrder
    · refine ih (h.step hedges) ?_
      rw [List.length_append, List.length_singleton]
      omega

/-- The order of a graph. Kind: L -/
theorem order_spec {ids : List ι} {edges : List (ι × ι)} (hids : ids.Nodup)
    (hedges : ∀ e ∈ edges, e.2 ∈ ids) : IsOrder ids edges (order ids edges) := by
  have hall : ∀ k, inDegree edges k = open' edges [] k := by
    intro k
    simp [inDegree, open']
  refine drain_isOrder hedges ⟨hall, ?_, ?_, ?_, ?_⟩ (by simp)
  · exact hids.filter _
  · intro k hk
    rw [List.nil_append, List.mem_filter] at hk
    have hzero := hall k
    simp only [decide_eq_true_eq] at hk
    exact ⟨hk.1, by omega⟩
  · intro k hk hzero
    have hdeg := hall k
    rw [List.nil_append, List.mem_filter]
    exact ⟨hk, by simp only [decide_eq_true_eq]; omega⟩
  · intro pre k post heq
    exact absurd heq (by simp)

/-- Without cycles the order has every node. Kind: L -/
theorem mem_order_of_acyclic {ids : List ι} {edges : List (ι × ι)} (hids : ids.Nodup)
    (hedges : ∀ e ∈ edges, e.1 ∈ ids ∧ e.2 ∈ ids)
    (hacyclic : ∀ k, ¬Relation.TransGen (fun p c => (p, c) ∈ edges) k k) :
    ∀ k ∈ ids, k ∈ order ids edges := by
  let above : {k // k ∈ ids} → {k // k ∈ ids} → Prop := fun p c =>
    Relation.TransGen (fun p c => (p, c) ∈ edges) p.1 c.1
  have : Finite {k // k ∈ ids} := (List.finite_toSet ids).to_subtype
  have : IsTrans {k // k ∈ ids} above := ⟨fun _ _ _ => Relation.TransGen.trans⟩
  have : Std.Irrefl above := ⟨fun k => hacyclic k.1⟩
  have hclosed := (order_spec hids fun e he => (hedges e he).2).closed
  have hall : ∀ k : {k // k ∈ ids}, k.1 ∈ order ids edges := by
    intro k
    induction k using (Finite.wellFounded_of_trans_of_irrefl above).induction with
    | _ k ih =>
      refine hclosed k.1 k.2 fun p hp => ?_
      exact ih ⟨p, (hedges _ hp).1⟩ (Relation.TransGen.single hp)
  exact fun k hk => hall ⟨k, hk⟩

/-- In a list that is parents first and has every node, no node is its own ancestor. Kind: L -/
theorem ParentsFirst.acyclic {edges : List (ι × ι)} {l : List ι} (h : ParentsFirst edges l)
    (hmem : ∀ e ∈ edges, e.2 ∈ l) (k : ι) : ¬Relation.TransGen (fun p c => (p, c) ∈ edges) k k := by
  have hlt : ∀ p c, (p, c) ∈ edges → l.idxOf p < l.idxOf c := by
    intro p c hp
    obtain ⟨pre, post, hl, hnot⟩ := List.eq_append_cons_of_mem (hmem (p, c) hp)
    have hpre := h pre c post hl p hp
    rw [hl, List.idxOf_append_of_mem hpre, List.idxOf_append_of_notMem hnot]
    have hidx := List.idxOf_lt_length_of_mem hpre
    omega
  have htrans : ∀ a b, Relation.TransGen (fun p c => (p, c) ∈ edges) a b → l.idxOf a < l.idxOf b := by
    intro a b hab
    induction hab with
    | single hstep => exact hlt _ _ hstep
    | tail _ hstep ih => exact lt_trans ih (hlt _ _ hstep)
  exact fun hcycle => lt_irrefl _ (htrans k k hcycle)

/-- **The order has as many nodes as there are just where no node is its own ancestor.** Kind: P -/
theorem length_order_eq_iff {ids : List ι} {edges : List (ι × ι)} (hids : ids.Nodup)
    (hedges : ∀ e ∈ edges, e.1 ∈ ids ∧ e.2 ∈ ids) :
    (order ids edges).length = ids.length ↔ ∀ k, ¬Relation.TransGen (fun p c => (p, c) ∈ edges) k k := by
  have horder := order_spec hids fun e he => (hedges e he).2
  constructor
  · intro hlength
    have hperm := (horder.nodup.subperm fun k => horder.subset k).perm_of_length_le hlength.ge
    apply horder.before.acyclic
    intro e he
    exact hperm.mem_iff.mpr (hedges e he).2
  · intro hacyclic
    have hsub := mem_order_of_acyclic hids hedges hacyclic
    apply le_antisymm
    · exact horder.nodup.length_le_of_subset fun k => horder.subset k
    · exact hids.length_le_of_subset hsub

end KarsaSec.Found.Topo
