import KarsaSec.Found.Collect
import KarsaSec.Found.Dict
import Mathlib.Algebra.GroupWithZero.Nat
import Mathlib.Algebra.Order.BigOperators.Group.List
import Mathlib.Algebra.Order.Group.Nat
import Mathlib.Data.Finset.Card
import Mathlib.Data.Finset.Union

/-!
# Equations over a graph, solved from below

What leaves a node is what the node generates, and what comes in and is not killed; what comes in is what leaves a predecessor.

* `visit` recomputes the two sets of a node in place, `sweep` those of all nodes, and `settle` sweeps until nothing changes.
* `Leaves` is the least solution, one step of a path after the other.
* `Growing` is the invariant: the tables only grow, and hold nothing but the least solution. A change makes them larger, so the
  sweeps end (`settle_eq_some`).
* `solve_spec`: the tables have the least solution.
-/

namespace KarsaSec.Found.Saturation

open KarsaSec.Found

variable {α δ : Type*} [DecidableEq α] [DecidableEq δ]

/-! ## The iteration -/

/-- What comes in and what leaves. Kind: D -/
structure Sets (α δ : Type*) [DecidableEq α] where
  ins : Dict α (Finset δ)
  outs : Dict α (Finset δ)

/-- The set of a node. Kind: D -/
def setOf (table : Dict α (Finset δ)) (b : α) : Finset δ := table.getD b ∅

/-- The union of the sets of nodes; nothing where one of them has none. Kind: D -/
def newIn (outs : Dict α (Finset δ)) (ps : List α) : Option (Finset δ) :=
  (ps.mapM outs.get?).map fun sets => sets.foldr (· ∪ ·) ∅

section iteration

variable (nodes : List α) (preds : α → List α) (gen kill : α → Finset δ)

/-- Recompute a node in place, and remember whether it has changed. Kind: D -/
def visit (acc : Sets α δ × Bool) (b : α) : Option (Sets α δ × Bool) :=
  (newIn acc.1.outs (preds b)).map fun inSet =>
    let outSet := gen b ∪ (inSet \ kill b)
    if inSet ≠ setOf acc.1.ins b ∨ outSet ≠ setOf acc.1.outs b then
      (⟨acc.1.ins.set b inSet, acc.1.outs.set b outSet⟩, true)
    else acc

/-- Sweep until nothing changes, with a bound on the number of sweeps. Kind: D -/
def settle : ℕ → Sets α δ → Option (Sets α δ)
  | 0, _ => none
  | n + 1, sets =>
    (nodes.foldlM (visit preds gen kill) (sets, false)).bind fun r => if r.2 then settle n r.1 else some r.1

/-- Nothing comes in, and what is generated leaves. Kind: D -/
def start : Sets α δ where
  ins := Dict.ofList (nodes.map fun b => (b, ∅))
  outs := Dict.ofList (nodes.map fun b => (b, gen b))

/-- All that is generated. Kind: D -/
def generated : Finset δ := nodes.toFinset.biUnion gen

/-- The iteration with a bound that is enough. Kind: D -/
def solve : Option (Sets α δ) :=
  settle nodes preds gen kill (nodes.length * (2 * (generated nodes gen).card) + 1) (start nodes gen)

end iteration

/-! ## The least solution -/

/-- What leaves a node: it is generated there, or it leaves a predecessor and is not killed. Kind: D -/
inductive Leaves (preds : α → List α) (gen kill : α → Finset δ) : α → δ → Prop
  | gen {b : α} {d : δ} : d ∈ gen b → Leaves preds gen kill b d
  | pass {p b : α} {d : δ} : Leaves preds gen kill p d → p ∈ preds b → d ∉ kill b → Leaves preds gen kill b d

/-- What comes in. Kind: D -/
def ComesIn (preds : α → List α) (gen kill : α → Finset δ) (b : α) (d : δ) : Prop := ∃ p ∈ preds b, Leaves preds gen kill p d

variable {nodes : List α} {preds : α → List α} {gen kill : α → Finset δ} {sets : Sets α δ} {b p : α} {d : δ}

omit [DecidableEq α] [DecidableEq δ] in
/-- What leaves a node was generated at a node that leads there. Kind: L -/
theorem Leaves.exists_gen (h : Leaves preds gen kill b d) : ∃ m, d ∈ gen m := by
  induction h with
  | gen hd => exact ⟨_, hd⟩
  | pass _ _ _ ih => exact ih

theorem Leaves.mem_generated (hwithin : ∀ b ∈ nodes, ∀ p ∈ preds b, p ∈ nodes) (h : Leaves preds gen kill b d) (hb : b ∈ nodes) :
    d ∈ generated nodes gen := by
  induction h with
  | gen hd => exact Finset.mem_biUnion.mpr ⟨_, List.mem_toFinset.mpr hb, hd⟩
  | pass _ hp _ ih => exact ih (hwithin _ hb _ hp)

/-! ## Recomputing a node -/

omit [DecidableEq δ] in
theorem setOf_set (table : Dict α (Finset δ)) (b c : α) (s : Finset δ) :
    setOf (table.set b s) c = if c = b then s else setOf table c := by
  unfold setOf
  by_cases hc : c = b
  · rw [if_pos hc, hc, Dict.getD_set_self]
  · rw [if_neg hc, Dict.getD_set_ne table hc]

omit [DecidableEq δ] in
theorem get?_eq_setOf {table : Dict α (Finset δ)} (h : b ∈ table.keys) : table.get? b = some (setOf table b) := by
  grind [Option.isSome_iff_exists, Dict.get?_isSome, setOf, Dict.getD]

/-- Where every predecessor has a set, so has the node. Kind: L -/
theorem newIn_eq_some {outs : Dict α (Finset δ)} {ps : List α} (h : ∀ p ∈ ps, p ∈ outs.keys) :
    ∃ s, newIn outs ps = some s ∧ ∀ d, d ∈ s ↔ ∃ p ∈ ps, d ∈ setOf outs p := by
  have hall : ps.mapM outs.get? = some (ps.map (setOf outs)) := by
    rw [mapM_eq_some, List.forall₂_map_right_iff, List.forall₂_same]
    exact fun p hp => get?_eq_setOf (h p hp)
  refine ⟨(ps.map (setOf outs)).foldr (· ∪ ·) ∅, by rw [newIn, hall]; rfl, fun d => ?_⟩
  clear hall h
  induction ps with
  | nil => simp
  | cons p ps ih =>
    rw [List.map_cons, List.foldr_cons, Finset.mem_union, ih]
    simp

/-- The tables have the nodes, hold nothing but the least solution, and can only grow. Kind: D -/
structure Growing (nodes : List α) (preds : α → List α) (gen kill : α → Finset δ) (sets : Sets α δ) : Prop where
  inKeys : ∀ b ∈ nodes, b ∈ sets.ins.keys
  outKeys : ∀ b ∈ nodes, b ∈ sets.outs.keys
  leaves : ∀ b ∈ nodes, ∀ d ∈ setOf sets.outs b, Leaves preds gen kill b d
  growsIn : ∀ b ∈ nodes, ∀ d ∈ setOf sets.ins b, ∃ p ∈ preds b, d ∈ setOf sets.outs p
  growsOut : ∀ b ∈ nodes, ∀ d ∈ setOf sets.outs b, d ∈ gen b ∨ (d ∉ kill b ∧ ∃ p ∈ preds b, d ∈ setOf sets.outs p)

/-- Recomputing a node keeps the invariant, and no set loses anything. Kind: L -/
theorem Growing.set (h : Growing nodes preds gen kill sets) (hwithin : ∀ b ∈ nodes, ∀ p ∈ preds b, p ∈ nodes) (hb : b ∈ nodes)
    {inSet : Finset δ} (hin : ∀ d, d ∈ inSet ↔ ∃ p ∈ preds b, d ∈ setOf sets.outs p) :
    Growing nodes preds gen kill ⟨sets.ins.set b inSet, sets.outs.set b (gen b ∪ (inSet \ kill b))⟩ ∧
      setOf sets.ins b ⊆ inSet ∧ setOf sets.outs b ⊆ gen b ∪ (inSet \ kill b) := by
  have hout : ∀ d, d ∈ gen b ∪ (inSet \ kill b) ↔ d ∈ gen b ∨ (d ∉ kill b ∧ ∃ p ∈ preds b, d ∈ setOf sets.outs p) := by grind
  have hleIn : setOf sets.ins b ⊆ inSet := fun d hd => (hin d).mpr (h.growsIn b hb d hd)
  have hleOut : setOf sets.outs b ⊆ gen b ∪ (inSet \ kill b) := fun d hd => (hout d).mpr (h.growsOut b hb d hd)
  have hle : ∀ c d, d ∈ setOf sets.outs c → d ∈ setOf (sets.outs.set b (gen b ∪ (inSet \ kill b))) c := by grind [setOf_set]
  refine ⟨?_, hleIn, hleOut⟩
  refine
    { inKeys := fun c hc => Dict.mem_keys_set.mpr (.inr (h.inKeys c hc))
      outKeys := fun c hc => Dict.mem_keys_set.mpr (.inr (h.outKeys c hc))
      leaves := fun c hc d hd => ?_
      growsIn := fun c hc d hd => ?_
      growsOut := fun c hc d hd => ?_ }
  · rw [setOf_set] at hd
    split_ifs at hd with hcb
    · subst hcb
      rcases (hout d).mp hd with hd | ⟨hkill, p, hp, hd⟩
      · exact .gen hd
      · exact .pass (h.leaves p (hwithin c hc p hp) d hd) hp hkill
    · exact h.leaves c hc d hd
  · dsimp only at hd ⊢
    rw [setOf_set] at hd
    obtain ⟨p, hp, hd⟩ : ∃ p ∈ preds c, d ∈ setOf sets.outs p := by
      split_ifs at hd with hcb
      · exact hcb ▸ (hin d).mp hd
      · exact h.growsIn c hc d hd
    exact ⟨p, hp, hle p d hd⟩
  · dsimp only at hd ⊢
    rw [setOf_set] at hd
    have hd : d ∈ gen c ∨ (d ∉ kill c ∧ ∃ p ∈ preds c, d ∈ setOf sets.outs p) := by
      split_ifs at hd with hcb
      · exact hcb ▸ (hout d).mp hd
      · exact h.growsOut c hc d hd
    exact hd.imp_right fun ⟨hkill, p, hp, hd⟩ => ⟨hkill, p, hp, hle p d hd⟩

/-! ## The sweeps end -/

/-- Nothing changes any more. Kind: D -/
def IsSettled (nodes : List α) (preds : α → List α) (gen kill : α → Finset δ) (sets : Sets α δ) : Prop :=
  ∀ b ∈ nodes, (∀ d, d ∈ setOf sets.ins b ↔ ∃ p ∈ preds b, d ∈ setOf sets.outs p) ∧
    ∀ d, d ∈ setOf sets.outs b ↔ d ∈ gen b ∨ (d ∈ setOf sets.ins b ∧ d ∉ kill b)

/-- The size of the tables at the nodes. Kind: D -/
def total (nodes : List α) (sets : Sets α δ) : ℕ := (nodes.map fun b => (setOf sets.ins b).card + (setOf sets.outs b).card).sum

omit [DecidableEq δ] in
theorem total_lt_set (hb : b ∈ nodes) {i o : Finset δ} (hi : setOf sets.ins b ⊆ i) (ho : setOf sets.outs b ⊆ o)
    (hne : i ≠ setOf sets.ins b ∨ o ≠ setOf sets.outs b) :
    total nodes sets < total nodes ⟨sets.ins.set b i, sets.outs.set b o⟩ := by
  have hlei := Finset.card_le_card hi
  have hleo := Finset.card_le_card ho
  unfold total
  refine List.sum_lt_sum _ _ (fun c _ => ?_) ⟨b, hb, ?_⟩
  · dsimp only
    rw [setOf_set, setOf_set]
    split_ifs with hc
    · subst hc
      exact Nat.add_le_add hlei hleo
    · exact Nat.le_refl _
  · dsimp only
    rw [setOf_set, setOf_set, if_pos rfl, if_pos rfl]
    rcases hne with hne | hne
    · have hlt := Finset.card_lt_card (Finset.ssubset_iff_subset_ne.mpr ⟨hi, hne.symm⟩)
      omega
    · have hlt := Finset.card_lt_card (Finset.ssubset_iff_subset_ne.mpr ⟨ho, hne.symm⟩)
      omega

theorem Growing.total_le (h : Growing nodes preds gen kill sets) (hwithin : ∀ b ∈ nodes, ∀ p ∈ preds b, p ∈ nodes) :
    total nodes sets ≤ nodes.length * (2 * (generated nodes gen).card) := by
  have houts : ∀ b ∈ nodes, setOf sets.outs b ⊆ generated nodes gen :=
    fun b hb d hd => (h.leaves b hb d hd).mem_generated hwithin hb
  have hins : ∀ b ∈ nodes, setOf sets.ins b ⊆ generated nodes gen := by
    intro b hb d hd
    obtain ⟨p, hp, hd⟩ := h.growsIn b hb d hd
    exact houts p (hwithin b hb p hp) hd
  unfold total
  refine (List.sum_le_card_nsmul _ (2 * (generated nodes gen).card) fun n hn => ?_).trans_eq ?_
  · obtain ⟨b, hb, rfl⟩ := List.mem_map.mp hn
    have hi := Finset.card_le_card (hins b hb)
    have ho := Finset.card_le_card (houts b hb)
    omega
  · rw [List.length_map]
    rfl

/-- One sweep: the invariant stays; without a change the tables are settled, and with one they are larger. Kind: L -/
theorem foldlM_visit (hwithin : ∀ b ∈ nodes, ∀ p ∈ preds b, p ∈ nodes) : ∀ {l : List α} {acc : Sets α δ × Bool},
    (∀ b ∈ l, b ∈ nodes) → Growing nodes preds gen kill acc.1 →
    ∃ r, l.foldlM (visit preds gen kill) acc = some r ∧ Growing nodes preds gen kill r.1 ∧ total nodes acc.1 ≤ total nodes r.1 ∧
      (r.2 = true → acc.2 = true ∨ total nodes acc.1 < total nodes r.1) ∧
      (r.2 = false → acc.2 = false ∧ r.1 = acc.1 ∧ IsSettled l preds gen kill acc.1)
  | [], acc, _, h =>
    ⟨acc, rfl, h, Nat.le_refl _, .inl, fun hflag => ⟨hflag, rfl, fun b hb => absurd hb List.not_mem_nil⟩⟩
  | b :: l, acc, hl, h => by
    have hb : b ∈ nodes := hl b List.mem_cons_self
    have hrest : ∀ c ∈ l, c ∈ nodes := fun c hc => hl c (List.mem_cons_of_mem _ hc)
    obtain ⟨inSet, hnew, hin⟩ := newIn_eq_some fun p hp => h.outKeys p (hwithin b hb p hp)
    obtain ⟨hgrowing, hleIn, hleOut⟩ := h.set hwithin hb hin
    by_cases hchange : inSet ≠ setOf acc.1.ins b ∨ gen b ∪ (inSet \ kill b) ≠ setOf acc.1.outs b
    · have hvisit : visit preds gen kill acc b =
          some (⟨acc.1.ins.set b inSet, acc.1.outs.set b (gen b ∪ (inSet \ kill b))⟩, true) := by
        unfold visit
        rw [hnew, Option.map_some]
        exact congrArg some (if_pos hchange)
      have hlt := total_lt_set hb hleIn hleOut hchange
      obtain ⟨r, hr, hgrown, hle, -, hsame⟩ :=
        @foldlM_visit hwithin l (⟨acc.1.ins.set b inSet, acc.1.outs.set b (gen b ∪ (inSet \ kill b))⟩, true) hrest hgrowing
      refine ⟨r, ?_, hgrown, Nat.le_of_lt (Nat.lt_of_lt_of_le hlt hle), fun _ => .inr (Nat.lt_of_lt_of_le hlt hle), ?_⟩
      · rw [List.foldlM_cons, hvisit]
        exact hr
      · exact fun hflag => absurd (hsame hflag).1 Bool.true_eq_false.mp
    · have hvisit : visit preds gen kill acc b = some acc := by
        unfold visit
        rw [hnew, Option.map_some]
        exact congrArg some (if_neg hchange)
      obtain ⟨hsameIn, hsameOut⟩ := not_or.mp hchange
      rw [ne_eq, not_not] at hsameIn hsameOut
      obtain ⟨r, hr, hgrown, hle, hlarger, hsame⟩ := foldlM_visit hwithin hrest h
      refine ⟨r, ?_, hgrown, hle, hlarger, fun hflag => ?_⟩
      · rw [List.foldlM_cons, hvisit]
        exact hr
      · obtain ⟨hacc, heq, hsettled⟩ := hsame hflag
        refine ⟨hacc, heq, fun c hc => ?_⟩
        rcases List.mem_cons.mp hc with rfl | hc
        · refine ⟨fun d => hsameIn ▸ hin d, fun d => ?_⟩
          rw [← hsameOut, ← hsameIn, Finset.mem_union, Finset.mem_sdiff]
        · exact hsettled c hc

/-- What is generated bounds the sweeps that change something. Kind: P -/
theorem settle_eq_some (hwithin : ∀ b ∈ nodes, ∀ p ∈ preds b, p ∈ nodes) : ∀ {n : ℕ} {sets : Sets α δ},
    nodes.length * (2 * (generated nodes gen).card) < total nodes sets + n → Growing nodes preds gen kill sets →
    ∃ result, settle nodes preds gen kill n sets = some result ∧ Growing nodes preds gen kill result ∧
      IsSettled nodes preds gen kill result
  | 0, _, hn, h => absurd (h.total_le hwithin) (Nat.not_le_of_lt (by simpa using hn))
  | n + 1, sets, hn, h => by
    obtain ⟨r, hr, hgrown, hle, hlarger, hsame⟩ := @foldlM_visit _ _ _ _ nodes preds gen kill hwithin nodes (sets, false) (fun _ hb => hb) h
    rw [settle, hr, Option.bind_some]
    by_cases hflag : r.2 = true
    · rw [if_pos hflag]
      have hlt := (hlarger hflag).resolve_left Bool.false_ne_true
      exact settle_eq_some hwithin (by dsimp only at hlt; omega) hgrown
    · simp_all

/-! ## The result -/

omit [DecidableEq δ] in
theorem growing_start : Growing nodes preds gen kill (start nodes gen) := by
  have hkeys : ∀ (f : α → Finset δ) {b : α}, b ∈ nodes → b ∈ (Dict.ofList (nodes.map fun b => (b, f b))).keys := by
    simp [Dict.mem_keys_ofList]
  have hset : ∀ (f : α → Finset δ) {b : α}, b ∈ nodes → setOf (Dict.ofList (nodes.map fun b => (b, f b))) b = f b := by
    intro f b hb
    have hsome := get?_eq_setOf (hkeys f hb)
    obtain ⟨c, -, heq⟩ := List.mem_map.mp (Dict.mem_of_get?_ofList hsome)
    obtain ⟨rfl, heq⟩ := Prod.mk.inj heq
    exact heq.symm
  have hgen : ∀ b ∈ nodes, ∀ d ∈ setOf (start nodes gen).outs b, d ∈ gen b := by
    intro b hb d hd
    have houts : setOf (start nodes gen).outs b = gen b := hset gen hb
    rwa [houts] at hd
  refine
    { inKeys := fun b hb => hkeys (fun _ => ∅) hb
      outKeys := fun b hb => hkeys gen hb
      leaves := fun b hb d hd => .gen (hgen b hb d hd)
      growsIn := fun b hb d hd => ?_
      growsOut := fun b hb d hd => .inl (hgen b hb d hd) }
  have hempty : setOf (start nodes gen).ins b = ∅ := hset (fun _ => ∅) hb
  rw [hempty] at hd
  exact absurd hd (Finset.notMem_empty d)

omit [DecidableEq δ] in
/-- What leaves a node is there, where nothing changes. Kind: L -/
theorem mem_of_leaves (hwithin : ∀ b ∈ nodes, ∀ p ∈ preds b, p ∈ nodes) (hsettled : IsSettled nodes preds gen kill sets)
    (h : Leaves preds gen kill b d) (hb : b ∈ nodes) : d ∈ setOf sets.outs b := by
  induction h with
  | gen hd => exact ((hsettled _ hb).2 _).mpr (.inl hd)
  | pass _ hp hkill ih =>
    exact ((hsettled _ hb).2 _).mpr (.inr ⟨((hsettled _ hb).1 _).mpr ⟨_, hp, ih (hwithin _ hb _ hp)⟩, hkill⟩)

/-- **The iteration ends, and the tables have the least solution.** Kind: P -/
theorem solve_spec (gen kill : α → Finset δ) (hwithin : ∀ b ∈ nodes, ∀ p ∈ preds b, p ∈ nodes) :
    ∃ sets, solve nodes preds gen kill = some sets ∧ ∀ b ∈ nodes,
      (∃ s, sets.ins.get? b = some s ∧ ∀ d, d ∈ s ↔ ComesIn preds gen kill b d) ∧
        ∃ s, sets.outs.get? b = some s ∧ ∀ d, d ∈ s ↔ Leaves preds gen kill b d := by
  have hstart : Growing nodes preds gen kill (start nodes gen) := growing_start
  obtain ⟨sets, hsets, hgrowing, hsettled⟩ :=
    @settle_eq_some _ _ _ _ nodes preds gen kill hwithin (nodes.length * (2 * (generated nodes gen).card) + 1) _ (by omega) hstart
  have houts : ∀ b ∈ nodes, ∀ d, d ∈ setOf sets.outs b ↔ Leaves preds gen kill b d :=
    fun b hb d => ⟨hgrowing.leaves b hb d, fun h => mem_of_leaves hwithin hsettled h hb⟩
  refine ⟨sets, hsets, fun b hb => ⟨⟨_, get?_eq_setOf (hgrowing.inKeys b hb), fun d => ?_⟩,
    ⟨_, get?_eq_setOf (hgrowing.outKeys b hb), houts b hb⟩⟩⟩
  rw [(hsettled b hb).1 d]
  exact exists_congr fun p => and_congr_right fun hp => houts p (hwithin b hb p hp) d

end KarsaSec.Found.Saturation
