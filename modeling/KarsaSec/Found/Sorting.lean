import Mathlib.Data.Finset.Sort
import Mathlib.Data.List.Nodup
import Mathlib.Data.List.Sort

/-!
# Sorting by a key

A list sorted by a key of its elements: where keys decide, the order before is forgotten; elements with
greater keys than all of a list stay behind it.

A program that goes through a set takes its members in an order that it does not choose. `SetOrder` is such an order; what
holds for every one of them does not depend on it.
-/

namespace KarsaSec.Found

section sortBy

variable {α γ : Type*} [LinearOrder γ] (key : α → γ)

/-- The list in the order of its keys. Kind: D -/
def sortBy (l : List α) : List α := l.insertionSort fun a b => key a ≤ key b

theorem sortBy_perm (l : List α) : (sortBy key l).Perm l := List.perm_insertionSort _ l

theorem pairwise_sortBy (l : List α) : (sortBy key l).Pairwise fun a b => key a ≤ key b := by
  have htotal : Std.Total fun a b : α => key a ≤ key b := ⟨fun a b => le_total (key a) (key b)⟩
  have htrans : IsTrans α fun a b => key a ≤ key b := ⟨fun _ _ _ h h' => le_trans h h'⟩
  exact List.pairwise_insertionSort _ l

variable {key}

theorem sortBy_eq {l : List α} (h : l.Pairwise fun a b => key a ≤ key b) : sortBy key l = l := by
  have htotal : Std.Total fun a b : α => key a ≤ key b := ⟨fun a b => le_total (key a) (key b)⟩
  have htrans : IsTrans α fun a b => key a ≤ key b := ⟨fun _ _ _ h h' => le_trans h h'⟩
  exact List.Pairwise.insertionSort_eq h

/-- Where keys increase there is one order only. Kind: L -/
theorem eq_of_perm_of_increasing {l l' : List α} (h : l.Pairwise fun a b => key a < key b)
    (h' : l'.Pairwise fun a b => key a ≤ key b) (hp : l.Perm l') : l = l' := by
  have hsorted : l.Pairwise fun a b => key a ≤ key b := h.imp fun hlt => le_of_lt hlt
  have hanti : ∀ a b, a ∈ l → b ∈ l' → key a ≤ key b → key b ≤ key a → a = b := by
    intro a b ha hb hab hba
    have hdiffer : (l.map key).Nodup := List.pairwise_map.mpr (h.imp fun hlt => ne_of_lt hlt)
    exact List.inj_on_of_nodup_map hdiffer ha (hp.mem_iff.mpr hb) (le_antisymm hab hba)
  exact List.Perm.eq_of_pairwise hanti hsorted h' hp

/-- Where keys differ, sorting forgets the order before. Kind: L -/
theorem sortBy_eq_of_perm {l l' : List α} (hdiffer : (l.map key).Nodup) (hp : l.Perm l') :
    sortBy key l = sortBy key l' := by
  have hsorted := (pairwise_sortBy key l).and
    (List.pairwise_map.mp (((sortBy_perm key l).map key).nodup_iff.mpr hdiffer))
  have hincreasing : (sortBy key l).Pairwise fun a b => key a < key b :=
    hsorted.imp fun h => lt_of_le_of_ne h.1 h.2
  apply eq_of_perm_of_increasing hincreasing (pairwise_sortBy key l')
  exact (sortBy_perm key l).trans (hp.trans (sortBy_perm key l').symm)

theorem orderedInsert_append {a : α} {l' : List α} (h : ∀ b ∈ l', key a ≤ key b) (l : List α) :
    (l ++ l').orderedInsert (fun a b => key a ≤ key b) a =
      l.orderedInsert (fun a b => key a ≤ key b) a ++ l' := by
  induction l with
  | nil =>
    rcases l' with _ | ⟨b, l'⟩
    · rfl
    · simp_all
  | cons c l ih =>
    rw [List.cons_append, List.orderedInsert_cons, List.orderedInsert_cons, ih]
    by_cases hle : key a ≤ key c
    · rw [if_pos hle, if_pos hle]
      rfl
    · rw [if_neg hle, if_neg hle]
      rfl

/-- What has a smaller key than an element of the first part of a sorted list stands before it there. Kind: L -/
theorem mem_before_of_lt {l : List α} (h : l.Pairwise fun a b => key a ≤ key b) {n : ℕ} {pre post : List α}
    {x y : α} (htake : l.take n = pre ++ x :: post) (hy : y ∈ l) (hlt : key y < key x) : y ∈ pre := by
  have hsplit : l = pre ++ x :: (post ++ l.drop n) := by grind [List.take_append_drop]
  have hafter := (List.pairwise_cons.mp (List.pairwise_append.mp (hsplit ▸ h)).2.1).1
  rw [hsplit] at hy
  rcases List.mem_append.mp hy with hpre | hrest
  · exact hpre
  · grind

/-- Elements with greater keys stay behind. Kind: L -/
theorem sortBy_append {l l' : List α} (h : ∀ a ∈ l, ∀ b ∈ l', key a < key b) :
    sortBy key (l ++ l') = sortBy key l ++ sortBy key l' := by
  induction l with
  | nil => rfl
  | cons a l ih =>
    have hrest := ih fun c hc => h c (List.mem_cons_of_mem _ hc)
    have hle : ∀ b ∈ sortBy key l', key a ≤ key b := fun b hb =>
      (h a List.mem_cons_self b ((sortBy_perm key l').mem_iff.mp hb)).le
    show (sortBy key (l ++ l')).orderedInsert (fun a b => key a ≤ key b) a = _
    rw [hrest, orderedInsert_append hle]
    rfl

end sortBy

/-! ## The order of a set -/

/-- An order in which each set is gone through, each member once. Kind: D -/
structure SetOrder (α : Type*) where
  order : Finset α → List α
  nodup : ∀ s, (order s).Nodup
  mem_order : ∀ {s a}, a ∈ order s ↔ a ∈ s

namespace SetOrder

variable {α : Type*}

theorem order_singleton (sets : SetOrder α) (a : α) : sets.order {a} = [a] := by
  apply List.perm_singleton.mp
  rw [List.perm_ext_iff_of_nodup (sets.nodup _) (List.nodup_singleton a)]
  intro b
  rw [sets.mem_order, Finset.mem_singleton, List.mem_singleton]

/-- From the least to the greatest. Kind: D -/
def sorted (α : Type*) [LinearOrder α] : SetOrder α where
  order s := s.sort (· ≤ ·)
  nodup s := s.sort_nodup _
  mem_order := Finset.mem_sort _

/-- One member goes first. Kind: D -/
noncomputable def putFirst [DecidableEq α] (first : α) : SetOrder α where
  order s := if first ∈ s then first :: (s.erase first).toList else s.toList
  nodup s := by
    split_ifs
    · exact List.nodup_cons.mpr ⟨by simp, Finset.nodup_toList _⟩
    · exact Finset.nodup_toList s
  mem_order := by grind [Finset.mem_toList]

end SetOrder

end KarsaSec.Found
