import Mathlib.Data.List.Basic
import Mathlib.Data.List.Nodup

/-!
# Sweeps

A loop that visits elements one after another, each of which has a place of its own in the state, and
collects what some of the visits yield.

* `sweep` is the loop, `LocalVisit` says that a visit reads and changes nothing but its own place.
* A sweep over elements with different places does to each place what one visit does to it
  (`same_sweep`), leaves the other places (`same_sweep_other`), and yields what the visits yield
  from the state before (`mem_sweep`).
-/

namespace KarsaSec.Found

variable {σ α β κ : Type*}

/-- One turn of the loop. Kind: D -/
def sweepStep (visit : σ → α → σ × Option β) (acc : σ × List (α × β)) (a : α) : σ × List (α × β) :=
  match visit acc.1 a with
  | (s, some b) => (s, acc.2 ++ [(a, b)])
  | (s, none) => (s, acc.2)

/-- The whole loop. Kind: D -/
def sweep (visit : σ → α → σ × Option β) (s : σ) (l : List α) : σ × List (α × β) :=
  l.foldl (sweepStep visit) (s, [])

/-- A visit reads and changes the place of its element only; `same k` says that two states agree in the
place `k`. Kind: D -/
structure LocalVisit (same : κ → σ → σ → Prop) (place : α → κ) (visit : σ → α → σ × Option β) :
    Prop where
  equiv : ∀ k, Equivalence (same k)
  frame : ∀ s a k, k ≠ place a → same k (visit s a).1 s
  congr : ∀ s s' a, same (place a) s s' →
    (visit s a).2 = (visit s' a).2 ∧ same (place a) (visit s a).1 (visit s' a).1

section

variable {same : κ → σ → σ → Prop} {place : α → κ} {visit : σ → α → σ × Option β}

@[simp] theorem sweepStep_fst (acc : σ × List (α × β)) (a : α) :
    (sweepStep visit acc a).1 = (visit acc.1 a).1 := by
  unfold sweepStep
  rcases visit acc.1 a with ⟨s, _ | b⟩ <;> rfl

theorem mem_sweepStep {acc : σ × List (α × β)} {a a' : α} {b : β} :
    (a', b) ∈ (sweepStep visit acc a).2 ↔ (a', b) ∈ acc.2 ∨ a' = a ∧ (visit acc.1 a).2 = some b := by
  unfold sweepStep
  rcases visit acc.1 a with ⟨s, _ | b'⟩
  · simp
  · simp [eq_comm]

/-- The places of other elements are left alone. Kind: L -/
theorem same_foldl_other (h : LocalVisit same place visit) {k : κ} :
    (l : List α) → (acc : σ × List (α × β)) → (∀ a ∈ l, place a ≠ k) →
      same k (l.foldl (sweepStep visit) acc).1 acc.1
  | [], acc, _ => (h.equiv k).refl acc.1
  | a :: l, acc, hne => by
    have hrest := same_foldl_other h l (sweepStep visit acc a)
      fun a' ha' => hne a' (List.mem_cons_of_mem a ha')
    rw [sweepStep_fst] at hrest
    exact (h.equiv k).trans hrest (h.frame acc.1 a k (hne a List.mem_cons_self).symm)

theorem same_sweep_other (h : LocalVisit same place visit) {k : κ} {s : σ} {l : List α}
    (hne : ∀ a ∈ l, place a ≠ k) : same k (sweep visit s l).1 s :=
  same_foldl_other h l (s, []) hne

/-- What is left of a sweep visits its elements as if it were from the state before, and yields what it
yields there. Kind: L -/
theorem foldl_sweepStep (h : LocalVisit same place visit) (s : σ) :
    (l : List α) → (acc : σ × List (α × β)) → (l.map place).Nodup →
      (∀ a ∈ l, same (place a) acc.1 s) →
      (∀ a ∈ l, same (place a) (l.foldl (sweepStep visit) acc).1 (visit s a).1) ∧
        ∀ a b, (a, b) ∈ (l.foldl (sweepStep visit) acc).2 ↔
          (a, b) ∈ acc.2 ∨ a ∈ l ∧ (visit s a).2 = some b
  | [], acc, _, _ => ⟨by simp, by simp⟩
  | a :: l, acc, hnodup, hsame => by
    rw [List.map_cons, List.nodup_cons] at hnodup
    have hne : ∀ a' ∈ l, place a' ≠ place a :=
      fun a' ha' heq => hnodup.1 (heq ▸ List.mem_map_of_mem ha')
    have hfirst := h.congr acc.1 s a (hsame a List.mem_cons_self)
    obtain ⟨hplaces, hyields⟩ := foldl_sweepStep h s l (sweepStep visit acc a) hnodup.2 fun a' ha' => by
      rw [sweepStep_fst]
      exact (h.equiv _).trans (h.frame acc.1 a _ (hne a' ha')) (hsame a' (List.mem_cons_of_mem a ha'))
    refine ⟨fun a' ha' => ?_, fun a' b => ?_⟩
    · rcases List.mem_cons.mp ha' with rfl | ha'
      · have hrest := same_foldl_other h l (sweepStep visit acc a') hne
        rw [sweepStep_fst] at hrest
        exact (h.equiv _).trans hrest hfirst.2
      · exact hplaces a' ha'
    · rw [List.foldl_cons, hyields, mem_sweepStep, hfirst.1, List.mem_cons]
      constructor
      · grind
      · grind

/-- A sweep does to a place what one visit of it does. Kind: P -/
theorem same_sweep (h : LocalVisit same place visit) {s : σ} {l : List α} (hnodup : (l.map place).Nodup)
    {a : α} (ha : a ∈ l) : same (place a) (sweep visit s l).1 (visit s a).1 :=
  (foldl_sweepStep h s l (s, []) hnodup fun a' _ => (h.equiv (place a')).refl s).1 a ha

/-- A sweep yields what its visits yield from the state before. Kind: P -/
theorem mem_sweep (h : LocalVisit same place visit) {s : σ} {l : List α} (hnodup : (l.map place).Nodup)
    {a : α} {b : β} : (a, b) ∈ (sweep visit s l).2 ↔ a ∈ l ∧ (visit s a).2 = some b := by
  have hyields := (foldl_sweepStep h s l (s, []) hnodup fun a' _ => (h.equiv (place a')).refl s).2 a b
  unfold sweep
  simpa using hyields

end

end KarsaSec.Found
