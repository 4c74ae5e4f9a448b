import KarsaSec.Found.Dict
import KarsaSec.Found.ShortestWalk
import Mathlib.Algebra.GroupWithZero.Nat
import Mathlib.Algebra.Order.BigOperators.Group.List
import Mathlib.Algebra.Order.Group.Nat
import Mathlib.Data.Finset.Card

/-!
# Dominators

The iteration that starts from all nodes and takes the intersection over the predecessors, until nothing changes.

* `visit` recomputes one node in place, `sweep` all of them, and `settle` sweeps until a sweep changes nothing.
* A walk `Enters` a graph at the entry, or at a node without predecessors. `Covers` is what lies on every such walk.
* `Shrinking` is the invariant: the table only shrinks, and it keeps what covers a node. A change makes the table
  smaller (`total_set_lt`), so the sweeps end (`settle_eq_some`).
* `mem_settled_iff`: the table has at a node what covers it. Where the entry leads to every node, that is what lies on
  every walk from the entry (`mem_dominators_iff`); elsewhere it is so just at the nodes that are `Anchored`.
-/

namespace KarsaSec.Found.Dominators

open KarsaSec.Found

variable {α : Type*} [DecidableEq α] (nodes : List α) (preds : α → List α) (entry : α)

/-! ## The iteration -/

/-- The set of a node. Kind: D -/
def setOf (dom : Dict α (Finset α)) (b : α) : Finset α := dom.getD b ∅

/-- The intersection of the sets of nodes. Kind: D -/
def meet (dom : Dict α (Finset α)) : List α → Finset α
  | [] => ∅
  | [p] => setOf dom p
  | p :: ps => setOf dom p ∩ meet dom ps

/-- The entry alone, and all nodes for every other. Kind: D -/
def start : Dict α (Finset α) := Dict.ofList (nodes.map fun b => (b, if b = entry then {entry} else nodes.toFinset))

/-- The set of a node by its predecessors among the nodes. Kind: D -/
def newSet (dom : Dict α (Finset α)) (b : α) : Finset α :=
  let ps := (preds b).filter (· ∈ nodes)
  if ps = [] then {b} else insert b (meet dom ps)

/-- Recompute a node in place, and remember whether it has changed. Kind: D -/
def visit (acc : Dict α (Finset α) × Bool) (b : α) : Dict α (Finset α) × Bool :=
  if b = entry then acc
  else if newSet nodes preds acc.1 b ≠ setOf acc.1 b then (acc.1.set b (newSet nodes preds acc.1 b), true)
  else acc

/-- Recompute all nodes. Kind: D -/
def sweep (dom : Dict α (Finset α)) : Dict α (Finset α) × Bool := nodes.foldl (visit nodes preds entry) (dom, false)

/-- Sweep until nothing changes, with a bound on the number of sweeps. Kind: D -/
def settle : ℕ → Dict α (Finset α) → Option (Dict α (Finset α))
  | 0, _ => none
  | n + 1, dom =>
    let r := sweep nodes preds entry dom
    if r.2 then settle n r.1 else some r.1

/-- The iteration with a bound that is enough. Kind: D -/
def dominators : Option (Dict α (Finset α)) :=
  settle nodes preds entry (nodes.length * nodes.length + 1) (start nodes entry)

/-! ## Walks -/

variable (succ : α → List α)

/-- Every walk from the entry to a node passes another. Kind: D -/
def Dominates (a b : α) : Prop := ∀ path, IsWalk succ entry b path → a ∈ path

/-- The nodes are those that the entry reaches, with the predecessors of each. Kind: D -/
structure Flow : Prop where
  entry_mem : entry ∈ nodes
  closed : ∀ a ∈ nodes, ∀ b ∈ succ a, b ∈ nodes
  reached : ∀ b ∈ nodes, ∃ path, IsWalk succ entry b path
  mem_preds_iff : ∀ b ∈ nodes, ∀ a, a ∈ preds b ↔ b ∈ succ a

variable {nodes preds entry succ} {a b p : α} {path : List α}

omit [DecidableEq α] in
/-- A walk is its start, or a walk with one edge more. Kind: L -/
theorem walk_cases (h : IsWalk succ entry b path) :
    (b = entry ∧ path = [entry]) ∨ ∃ q p, path = q ++ [b] ∧ IsWalk succ entry p q ∧ b ∈ succ p := by
  rcases List.eq_nil_or_concat path with rfl | ⟨q, c, rfl⟩
  · exact absurd rfl h.ne_nil
  · rw [List.concat_eq_append] at h ⊢
    obtain rfl : c = b := Option.some.inj (List.getLast?_concat.symm.trans h.last)
    by_cases hq : q = []
    · subst hq
      obtain rfl : c = entry := Option.some.inj h.head
      exact .inl ⟨rfl, rfl⟩
    · grind [isWalk_append_iff]

omit [DecidableEq α] in
theorem Flow.mem_of_walk (hf : Flow nodes preds entry succ) : ∀ {path : List α} {b : α}, IsWalk succ entry b path → b ∈ nodes := by
  intro path
  induction hn : path.length generalizing path with
  | zero =>
    intro b h
    exact absurd (List.length_eq_zero_iff.mp hn) h.ne_nil
  | succ n ih =>
    intro b h
    rcases walk_cases h with ⟨rfl, _⟩ | ⟨q, p, rfl, hwalk, hedge⟩
    · exact hf.entry_mem
    · rw [List.length_append, List.length_singleton, Nat.add_right_cancel_iff] at hn
      exact hf.closed p (ih hn hwalk) b hedge

omit [DecidableEq α] in
theorem Flow.mem_of_mem_walk (hf : Flow nodes preds entry succ) : ∀ {path : List α} {b : α}, IsWalk succ entry b path →
    a ∈ path → a ∈ nodes := by
  intro path
  induction hn : path.length generalizing path with
  | zero =>
    intro b h
    exact absurd (List.length_eq_zero_iff.mp hn) h.ne_nil
  | succ n ih =>
    intro b h ha
    rcases walk_cases h with ⟨rfl, rfl⟩ | ⟨q, p, rfl, hwalk, hedge⟩
    · exact List.mem_singleton.mp ha ▸ hf.entry_mem
    · rw [List.length_append, List.length_singleton, Nat.add_right_cancel_iff] at hn
      rcases List.mem_append.mp ha with ha | ha
      · exact ih hn hwalk ha
      · exact List.mem_singleton.mp ha ▸ hf.mem_of_walk h

/-! ## Walks that enter -/

/-- A walk to a node that comes from the entry and not back to it, or from a node without predecessors. Kind: D -/
inductive Enters (nodes : List α) (preds : α → List α) (entry : α) : α → List α → Prop
  | entry : Enters nodes preds entry entry [entry]
  | source {b : α} : b ≠ entry → (preds b).filter (· ∈ nodes) = [] → Enters nodes preds entry b [b]
  | step {p b : α} {q : List α} : Enters nodes preds entry p q → b ≠ entry → p ∈ preds b → p ∈ nodes →
      Enters nodes preds entry b (q ++ [b])

/-- Every walk that enters and ends in a node passes another one. Kind: D -/
def Covers (nodes : List α) (preds : α → List α) (entry : α) (a b : α) : Prop :=
  a ∈ nodes ∧ ∀ path, Enters nodes preds entry b path → a ∈ path

theorem Enters.mem_nodes (h : Enters nodes preds entry b path) (hb : b ∈ nodes) : ∀ a ∈ path, a ∈ nodes := by
  induction h with
  | entry =>
    intro a ha
    exact List.mem_singleton.mp ha ▸ hb
  | source =>
    intro a ha
    exact List.mem_singleton.mp ha ▸ hb
  | step _ _ _ hp ih =>
    intro a ha
    rcases List.mem_append.mp ha with ha | ha
    · exact ih hp a ha
    · exact List.mem_singleton.mp ha ▸ hb

/-- A walk from the entry comes in a last time. Kind: L -/
theorem Enters.of_walk (hpreds : ∀ b ∈ nodes, b ≠ entry → ∀ p path, IsWalk succ entry p path → b ∈ succ p →
    p ∈ preds b ∧ p ∈ nodes) : ∀ {path : List α} {b : α}, IsWalk succ entry b path → b ∈ nodes →
      ∃ q, Enters nodes preds entry b q ∧ (∀ a ∈ q, a ∈ path) ∧ IsWalk succ entry b q := by
  intro path
  induction hn : path.length generalizing path with
  | zero =>
    intro b h
    exact absurd (List.length_eq_zero_iff.mp hn) h.ne_nil
  | succ n ih =>
    intro b h hb
    by_cases hbe : b = entry
    · subst hbe
      refine ⟨[b], .entry, fun a ha => ?_, rfl, rfl, List.isChain_singleton b⟩
      exact List.mem_singleton.mp ha ▸ List.mem_of_head? h.head
    rcases walk_cases h with ⟨heq, _⟩ | ⟨q, p, rfl, hwalk, hedge⟩
    · exact absurd heq hbe
    · rw [List.length_append, List.length_singleton, Nat.add_right_cancel_iff] at hn
      obtain ⟨hp, hmem⟩ := hpreds b hb hbe p q hwalk hedge
      obtain ⟨q', henters, hsub, hwalk'⟩ := ih hn hwalk hmem
      refine ⟨q' ++ [b], henters.step hbe hp hmem, fun a ha => ?_, hwalk'.snoc hedge⟩
      rcases List.mem_append.mp ha with ha | ha
      · exact List.mem_append_left _ (hsub a ha)
      · exact List.mem_append_right _ ha

/-! ## Recomputing a node -/

variable {dom dom' : Dict α (Finset α)}

theorem mem_meet : ∀ {ps : List α}, ps ≠ [] → (a ∈ meet dom ps ↔ ∀ p ∈ ps, a ∈ setOf dom p)
  | [], h => absurd rfl h
  | [p], _ => by
    rw [meet]
    exact ⟨fun h q hq => List.mem_singleton.mp hq ▸ h, fun h => h p List.mem_cons_self⟩
  | p :: q :: ps, _ => by
    rw [meet, Finset.mem_inter, mem_meet (List.cons_ne_nil q ps), List.forall_mem_cons (l := q :: ps)]
    exact fun h => nomatch h

theorem mem_newSet_iff : a ∈ newSet nodes preds dom b ↔
    a = b ∨ ((preds b).filter (· ∈ nodes) ≠ [] ∧ ∀ p ∈ preds b, p ∈ nodes → a ∈ setOf dom p) := by
  unfold newSet
  dsimp only
  split_ifs with hnone
  · simp_all
  · rw [Finset.mem_insert, mem_meet hnone]
    simp only [List.mem_filter, decide_eq_true_eq, and_imp]
    exact or_congr_right ⟨fun h => ⟨hnone, h⟩, fun h => h.2⟩

theorem setOf_set (dom : Dict α (Finset α)) (b c : α) (s : Finset α) :
    setOf (dom.set b s) c = if c = b then s else setOf dom c := by
  unfold setOf
  by_cases hc : c = b
  · rw [if_pos hc, hc, Dict.getD_set_self]
  · rw [if_neg hc, Dict.getD_set_ne dom hc]

/-- The table has the nodes, keeps what covers them, and can only shrink. Kind: D -/
structure Shrinking (nodes : List α) (preds : α → List α) (entry : α) (dom : Dict α (Finset α)) : Prop where
  keys : ∀ b ∈ nodes, b ∈ dom.keys
  atEntry : entry ∈ nodes → setOf dom entry = {entry}
  within : ∀ b ∈ nodes, ∀ a ∈ setOf dom b, a ∈ nodes
  above : ∀ b ∈ nodes, ∀ a, Covers nodes preds entry a b → a ∈ setOf dom b
  shrinks : ∀ b ∈ nodes, b ≠ entry → newSet nodes preds dom b ⊆ setOf dom b

/-- What covers a node is new there. Kind: L -/
theorem Covers.mem_newSet (hne : b ≠ entry) (h : Covers nodes preds entry a b)
    (habove : ∀ p ∈ nodes, Covers nodes preds entry a p → a ∈ setOf dom p) : a ∈ newSet nodes preds dom b := by
  rw [mem_newSet_iff]
  by_cases hab : a = b
  · exact .inl hab
  · right
    refine ⟨fun hnone => hab (List.mem_singleton.mp (h.2 [b] (.source hne hnone))), fun p hp hmem => ?_⟩
    apply habove p hmem
    refine ⟨h.1, fun q hq => ?_⟩
    exact (List.mem_append.mp (h.2 _ (hq.step hne hp hmem))).resolve_right fun ha => hab (List.mem_singleton.mp ha)

/-- Recomputing a node keeps the invariant. Kind: L -/
theorem Shrinking.set (h : Shrinking nodes preds entry dom) (hb : b ∈ nodes) (hne : b ≠ entry) :
    Shrinking nodes preds entry (dom.set b (newSet nodes preds dom b)) := by
  have hle : ∀ c, setOf (dom.set b (newSet nodes preds dom b)) c ⊆ setOf dom c := by
    intro c
    rw [setOf_set]
    split_ifs with hc
    · rw [hc]
      exact h.shrinks b hb hne
    · exact Finset.Subset.refl _
  have hmono : ∀ c, newSet nodes preds (dom.set b (newSet nodes preds dom b)) c ⊆ newSet nodes preds dom c := by
    grind [mem_newSet_iff]
  refine
    { keys := fun c hc => Dict.mem_keys_set.mpr (.inr (h.keys c hc))
      atEntry := fun hentry => ?_
      within := fun c hc a ha => h.within c hc a (hle c ha)
      above := fun c hc a ha => ?_
      shrinks := fun c hc hce => ?_ }
  · rw [setOf_set, if_neg (Ne.symm hne)]
    exact h.atEntry hentry
  · rw [setOf_set]
    split_ifs with hcb
    · subst hcb
      exact ha.mem_newSet hne fun p hp => h.above p hp a
    · exact h.above c hc a ha
  · rw [setOf_set]
    split_ifs with hcb
    · exact hcb ▸ hmono c
    · exact (hmono c).trans (h.shrinks c hc hce)

/-- A table that no node changes. Kind: D -/
def IsSettled (nodes : List α) (preds : α → List α) (entry : α) (dom : Dict α (Finset α)) : Prop :=
  ∀ b ∈ nodes, b ≠ entry → newSet nodes preds dom b = setOf dom b

/-- Where nothing changes any more, the table has what covers a node. Kind: P -/
theorem Shrinking.mem_iff (h : Shrinking nodes preds entry dom) (hsettled : IsSettled nodes preds entry dom) (hb : b ∈ nodes) :
    a ∈ setOf dom b ↔ Covers nodes preds entry a b := by
  refine ⟨fun ha => ⟨h.within b hb a ha, fun path hpath => ?_⟩, h.above b hb a⟩
  induction hpath with
  | entry =>
    rwa [h.atEntry hb, Finset.mem_singleton, ← List.mem_singleton] at ha
  | source hne hnone =>
    rw [← hsettled _ hb hne, mem_newSet_iff] at ha
    exact List.mem_singleton.mpr (ha.resolve_right fun hall => hall.1 hnone)
  | step _ hne hp hmem ih =>
    rw [← hsettled _ hb hne, mem_newSet_iff] at ha
    rcases ha with rfl | hall
    · exact List.mem_append_right _ List.mem_cons_self
    · exact List.mem_append_left _ (ih hmem (hall.2 _ hp hmem))

/-! ## The sweeps end -/

/-- The size of a table at the nodes. Kind: D -/
def total (nodes : List α) (dom : Dict α (Finset α)) : ℕ := (nodes.map fun b => (setOf dom b).card).sum

theorem total_set_lt (hb : b ∈ nodes) {s : Finset α} (hsub : s ⊆ setOf dom b) (hne : s ≠ setOf dom b) :
    total nodes (dom.set b s) < total nodes dom := by
  unfold total
  refine List.sum_lt_sum _ _ (fun c _ => ?_) ⟨b, hb, ?_⟩
  · rw [setOf_set]
    split_ifs with hc
    · exact hc ▸ Finset.card_le_card hsub
    · exact Nat.le_refl _
  · rw [setOf_set, if_pos rfl]
    exact Finset.card_lt_card (Finset.ssubset_iff_subset_ne.mpr ⟨hsub, hne⟩)

/-- One sweep: the invariant stays; without a change the table is settled, and with one it is smaller. Kind: L -/
theorem sweep_spec : ∀ {l : List α} {acc : Dict α (Finset α) × Bool}, (∀ b ∈ l, b ∈ nodes) →
    Shrinking nodes preds entry acc.1 →
    Shrinking nodes preds entry (l.foldl (visit nodes preds entry) acc).1 ∧
    total nodes (l.foldl (visit nodes preds entry) acc).1 ≤ total nodes acc.1 ∧
    ((l.foldl (visit nodes preds entry) acc).2 = true → acc.2 = true ∨
      total nodes (l.foldl (visit nodes preds entry) acc).1 < total nodes acc.1) ∧
    ((l.foldl (visit nodes preds entry) acc).2 = false → acc.2 = false ∧ (l.foldl (visit nodes preds entry) acc).1 = acc.1 ∧
      ∀ b ∈ l, b ≠ entry → newSet nodes preds acc.1 b = setOf acc.1 b)
  | [], acc, _, h => ⟨h, Nat.le_refl _, .inl, fun hflag => ⟨hflag, rfl, fun b hb => absurd hb List.not_mem_nil⟩⟩
  | b :: l, acc, hl, h => by
    have hb : b ∈ nodes := hl b List.mem_cons_self
    have hrest : ∀ c ∈ l, c ∈ nodes := fun c hc => hl c (List.mem_cons_of_mem _ hc)
    rw [List.foldl_cons]
    by_cases hstay : b = entry ∨ newSet nodes preds acc.1 b = setOf acc.1 b
    · have hvisit : visit nodes preds entry acc b = acc := by
        unfold visit
        rcases hstay with heq | heq
        · rw [if_pos heq]
        · rw [if_neg (not_not_intro heq), ite_self]
      rw [hvisit]
      obtain ⟨hshrinking, hle, hchange, hsame⟩ := sweep_spec hrest h
      refine ⟨hshrinking, hle, hchange, fun hflag => ?_⟩
      obtain ⟨hacc, heq, hfix⟩ := hsame hflag
      refine ⟨hacc, heq, fun c hc hce => ?_⟩
      rcases List.mem_cons.mp hc with rfl | hc
      · exact hstay.resolve_left hce
      · exact hfix c hc hce
    · obtain ⟨hbe, hnew⟩ := not_or.mp hstay
      have hvisit : visit nodes preds entry acc b = (acc.1.set b (newSet nodes preds acc.1 b), true) := by
        unfold visit
        rw [if_neg hbe, if_pos hnew]
      rw [hvisit]
      have hlt := total_set_lt hb (h.shrinks b hb hbe) hnew
      obtain ⟨hshrinking, hle, _, hsame⟩ :=
        @sweep_spec l (acc.1.set b (newSet nodes preds acc.1 b), true) hrest (h.set hb hbe)
      refine ⟨hshrinking, Nat.le_of_lt (Nat.lt_of_le_of_lt hle hlt), fun _ => .inr (Nat.lt_of_le_of_lt hle hlt), ?_⟩
      exact fun hflag => absurd (hsame hflag).1 Bool.true_eq_false.mp

/-- The size bounds the sweeps that change something. Kind: P -/
theorem settle_eq_some : ∀ {n : ℕ} {dom : Dict α (Finset α)}, total nodes dom < n →
    Shrinking nodes preds entry dom →
    ∃ result, settle nodes preds entry n dom = some result ∧ Shrinking nodes preds entry result ∧
      IsSettled nodes preds entry result
  | 0, _, hn, _ => absurd hn (Nat.not_lt_zero _)
  | n + 1, dom, hn, h => by
    obtain ⟨hshrinking, _, hchange, hsame⟩ :=
      @sweep_spec α _ nodes preds entry nodes (dom, false) (fun _ hb => hb) h
    rw [settle]
    by_cases hflag : (sweep nodes preds entry dom).2 = true
    · rw [if_pos hflag]
      have hlt := (hchange hflag).resolve_left Bool.false_ne_true
      exact settle_eq_some (Nat.lt_of_lt_of_le hlt (Nat.le_of_lt_succ hn)) hshrinking
    · obtain ⟨_, heq, hfix⟩ := hsame (Bool.not_eq_true _ ▸ hflag)
      have hdom : (sweep nodes preds entry dom).1 = dom := heq
      rw [if_neg hflag]
      refine ⟨_, rfl, hshrinking, ?_⟩
      rw [hdom]
      exact hfix

/-! ## The result -/

theorem setOf_start (hb : b ∈ nodes) : setOf (start nodes entry) b = if b = entry then {entry} else nodes.toFinset := by
  have hkey : b ∈ (start nodes entry).keys := by simp_all [Dict.mem_keys_ofList, start]
  obtain ⟨s, hs⟩ := Option.isSome_iff_exists.mp (Dict.get?_isSome.mpr hkey)
  obtain ⟨c, _, heq⟩ := List.mem_map.mp (Dict.mem_of_get?_ofList hs)
  obtain ⟨rfl, rfl⟩ := Prod.mk.inj heq
  unfold setOf Dict.getD
  rw [hs]
  rfl

theorem shrinking_start (nodes : List α) (preds : α → List α) (entry : α) : Shrinking nodes preds entry (start nodes entry) := by
  have hwithin : ∀ b ∈ nodes, ∀ a ∈ setOf (start nodes entry) b, a ∈ nodes := by grind [setOf_start, List.mem_toFinset]
  refine
    { keys := fun b hb => ?_
      atEntry := fun hentry => by rw [setOf_start hentry, if_pos rfl]
      within := hwithin
      above := fun b hb a ha => ?_
      shrinks := fun b hb hne a ha => ?_ }
  · simp_all [Dict.mem_keys_ofList, start]
  · rw [setOf_start hb]
    split_ifs with hbe
    · subst hbe
      exact Finset.mem_singleton.mpr (List.mem_singleton.mp (ha.2 [b] .entry))
    · exact List.mem_toFinset.mpr ha.1
  · rw [setOf_start hb, if_neg hne, List.mem_toFinset]
    rcases mem_newSet_iff.mp ha with rfl | ⟨hsome, hall⟩
    · exact hb
    · obtain ⟨p, hp⟩ := List.exists_mem_of_ne_nil _ hsome
      obtain ⟨hpred, hin⟩ := List.mem_filter.mp hp
      exact hwithin p (of_decide_eq_true hin) a (hall p hpred (of_decide_eq_true hin))

/-- **The iteration ends, and the table has at each node what every walk that enters passes.** Kind: P -/
theorem mem_settled_iff (nodes : List α) (preds : α → List α) (entry : α) : ∃ dom, dominators nodes preds entry = some dom ∧
    ∀ b ∈ nodes, ∃ s, dom.get? b = some s ∧ ∀ a, a ∈ s ↔ Covers nodes preds entry a b := by
  have htotal : total nodes (start nodes entry) < nodes.length * nodes.length + 1 := by
    refine Nat.lt_succ_of_le ((List.sum_le_card_nsmul _ nodes.length fun n hn => ?_).trans_eq ?_)
    · grind [setOf_start, List.toFinset_card_le]
    · rw [List.length_map]
      rfl
  obtain ⟨dom, hdom, hshrinking, hsettled⟩ := settle_eq_some htotal (shrinking_start nodes preds entry)
  refine ⟨dom, hdom, fun b hb => ?_⟩
  obtain ⟨s, hs⟩ := Option.isSome_iff_exists.mp (Dict.get?_isSome.mpr (hshrinking.keys b hb))
  have hset : setOf dom b = s := by
    unfold setOf Dict.getD
    rw [hs]
    rfl
  exact ⟨s, hs, fun a => hset ▸ hshrinking.mem_iff hsettled hb⟩

/-! ## Graphs whose nodes are all reached -/

theorem Flow.preds_ne_nil (hf : Flow nodes preds entry succ) (hb : b ∈ nodes) (hne : b ≠ entry) :
    (preds b).filter (· ∈ nodes) ≠ [] := by
  obtain ⟨path, hwalk⟩ := hf.reached b hb
  rcases walk_cases hwalk with ⟨heq, _⟩ | ⟨q, p, _, hwalk', hedge⟩
  · exact absurd heq hne
  · have hp : p ∈ (preds b).filter (· ∈ nodes) :=
      List.mem_filter.mpr ⟨(hf.mem_preds_iff b hb p).mpr hedge, decide_eq_true (hf.mem_of_walk hwalk')⟩
    exact List.ne_nil_of_mem hp

/-- There is no other way in than the entry. Kind: L -/
theorem Flow.isWalk_of_enters (hf : Flow nodes preds entry succ) (h : Enters nodes preds entry b path) (hb : b ∈ nodes) :
    IsWalk succ entry b path := by
  induction h with
  | entry => exact ⟨rfl, rfl, List.isChain_singleton entry⟩
  | source hne hnone => exact absurd hnone (hf.preds_ne_nil hb hne)
  | step _ _ hp hmem ih => exact (ih hmem).snoc ((hf.mem_preds_iff _ hb _).mp hp)

theorem Flow.covers_iff (hf : Flow nodes preds entry succ) (hb : b ∈ nodes) :
    Covers nodes preds entry a b ↔ Dominates entry succ a b := by
  constructor
  · rintro ⟨-, hall⟩ path hwalk
    have hpreds : ∀ c ∈ nodes, c ≠ entry → ∀ p path, IsWalk succ entry p path → c ∈ succ p → p ∈ preds c ∧ p ∈ nodes :=
      fun c hc _ p path hp hedge => ⟨(hf.mem_preds_iff c hc p).mpr hedge, hf.mem_of_walk hp⟩
    obtain ⟨q, henters, hsub, _⟩ := Enters.of_walk hpreds hwalk hb
    exact hsub a (hall q henters)
  · intro hall
    obtain ⟨path, hwalk⟩ := hf.reached b hb
    refine ⟨hf.mem_of_mem_walk hwalk (hall path hwalk), fun q hq => hall q (hf.isWalk_of_enters hq hb)⟩

/-- **The iteration ends, and the table has at each node what every walk to it passes.** Kind: P -/
theorem mem_dominators_iff (hf : Flow nodes preds entry succ) : ∃ dom, dominators nodes preds entry = some dom ∧
    ∀ b ∈ nodes, ∃ s, dom.get? b = some s ∧ ∀ a, a ∈ s ↔ Dominates entry succ a b := by
  obtain ⟨dom, hdom, hmem⟩ := mem_settled_iff nodes preds entry
  refine ⟨dom, hdom, fun b hb => ?_⟩
  obtain ⟨s, hs, hiff⟩ := hmem b hb
  exact ⟨s, hs, fun a => (hiff a).trans (hf.covers_iff hb)⟩

/-! ## Graphs with other ways in -/

/-- The predecessors are those of the edges, and those of a node other than the entry are nodes. Kind: D -/
structure Closed (nodes : List α) (preds : α → List α) (entry : α) (succ : α → List α) : Prop where
  mem_preds_iff : ∀ a b, a ∈ preds b ↔ b ∈ succ a
  within : ∀ b ∈ nodes, b ≠ entry → ∀ p ∈ preds b, p ∈ nodes

/-- From a node without predecessors there is no way to a node but through the entry. Kind: D -/
def Anchored (nodes : List α) (preds : α → List α) (entry : α) (succ : α → List α) (b : α) : Prop :=
  ∀ s ∈ nodes, s ≠ entry → preds s = [] → ∀ path, IsWalk succ s b path → entry ∈ path

theorem Closed.enters_of_walk (hc : Closed nodes preds entry succ) {s : α} (hs : s ≠ entry) (hnone : preds s = []) :
    ∀ {path : List α} {b : α}, IsWalk succ s b path → entry ∉ path → b ∈ nodes → Enters nodes preds entry b path := by
  intro path
  induction hn : path.length generalizing path with
  | zero =>
    intro b h
    exact absurd (List.length_eq_zero_iff.mp hn) h.ne_nil
  | succ n ih =>
    intro b h hnot hb
    rcases walk_cases h with ⟨rfl, rfl⟩ | ⟨q, p, rfl, hwalk, hedge⟩
    · apply Enters.source hs
      rw [hnone]
      rfl
    · rw [List.length_append, List.length_singleton, Nat.add_right_cancel_iff] at hn
      rw [List.mem_append, List.mem_singleton, not_or] at hnot
      have hp : p ∈ preds b := (hc.mem_preds_iff p b).mpr hedge
      have hmem : p ∈ nodes := hc.within b hb (Ne.symm hnot.2) p hp
      exact (ih hn hwalk hnot.1 hmem).step (Ne.symm hnot.2) hp hmem

/-- A walk that enters comes from the entry, or from a node without predecessors and past the entry. Kind: L -/
theorem Closed.cases_enters (hc : Closed nodes preds entry succ) (h : Enters nodes preds entry b path) (hb : b ∈ nodes) :
    IsWalk succ entry b path ∨
      (entry ∉ path ∧ ∃ s ∈ nodes, s ≠ entry ∧ preds s = [] ∧ IsWalk succ s b path) := by
  induction h with
  | entry => exact .inl ⟨rfl, rfl, List.isChain_singleton entry⟩
  | @source s hne hnone =>
    right
    refine ⟨fun h => hne (List.mem_singleton.mp h).symm, s, hb, hne, ?_, rfl, rfl, List.isChain_singleton s⟩
    have hself : (preds s).filter (· ∈ nodes) = preds s :=
      List.filter_eq_self.mpr fun p hp => decide_eq_true (hc.within s hb hne p hp)
    rwa [hself] at hnone
  | step _ hne hp hmem ih =>
    have hedge := (hc.mem_preds_iff _ _).mp hp
    rcases ih hmem with hwalk | ⟨hnot, s, hs, hse, hnone, hwalk⟩
    · exact .inl (hwalk.snoc hedge)
    · right
      refine ⟨?_, s, hs, hse, hnone, hwalk.snoc hedge⟩
      rw [List.mem_append, List.mem_singleton, not_or]
      exact ⟨hnot, Ne.symm hne⟩

/-- **What covers a node that the entry leads to is what lies on every walk from the entry, just where there is no way in past
the entry.** Kind: P -/
theorem Closed.covers_iff (hc : Closed nodes preds entry succ) (hb : b ∈ nodes) (hreach : ∃ path, IsWalk succ entry b path) :
    (∀ a, Covers nodes preds entry a b ↔ Dominates entry succ a b) ↔ Anchored nodes preds entry succ b := by
  have hpreds : ∀ c ∈ nodes, c ≠ entry → ∀ p path, IsWalk succ entry p path → c ∈ succ p → p ∈ preds c ∧ p ∈ nodes := by
    intro c hcn hne p _ _ hedge
    have hp := (hc.mem_preds_iff p c).mpr hedge
    exact ⟨hp, hc.within c hcn hne p hp⟩
  constructor
  · intro hall s hs hne hnone path hwalk
    by_contra hnot
    have hentry : Covers nodes preds entry entry b :=
      (hall entry).mpr fun path h => List.mem_of_head? h.head
    exact hnot (hentry.2 path (hc.enters_of_walk hne hnone hwalk hnot hb))
  · intro hanchored a
    constructor
    · rintro ⟨-, hall⟩ path hwalk
      obtain ⟨q, henters, hsub, _⟩ := Enters.of_walk hpreds hwalk hb
      exact hsub a (hall q henters)
    · intro hall
      obtain ⟨path, hwalk⟩ := hreach
      obtain ⟨q, henters, _, hwalk'⟩ := Enters.of_walk hpreds hwalk hb
      refine ⟨henters.mem_nodes hb a (hall q hwalk'), fun r hr => ?_⟩
      rcases hc.cases_enters hr hb with hwalk | ⟨hnot, s, hs, hne, hnone, hwalk⟩
      · exact hall r hwalk
      · exact absurd (hanchored s hs hne hnone r hwalk) hnot

end KarsaSec.Found.Dominators
