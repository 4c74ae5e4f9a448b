import Mathlib.Data.List.Forall2
import Mathlib.Data.List.Perm.Basic

/-!
# Collecting results

A list of calls each of which may fail: `List.mapM` with options.

* `mapM_eq_some`: all results, element by element.
-/

namespace KarsaSec.Found

variable {α β : Type*} {f : α → Option β}

/-- All results, element by element. Kind: L -/
theorem mapM_eq_some {l : List α} {r : List β} : l.mapM f = some r ↔ List.Forall₂ (fun a b => f a = some b) l r := by
  induction l generalizing r with
  | nil =>
    rw [List.mapM_nil, List.forall₂_nil_left_iff]
    exact ⟨fun h => (Option.some.inj h).symm, fun h => h ▸ rfl⟩
  | cons a l ih =>
    rw [List.mapM_cons, List.forall₂_cons_left_iff]
    constructor
    · grind [Option.bind_eq_some_iff]
    · grind

/-- The result of one of the calls. Kind: L -/
theorem exists_of_mapM {l : List α} {r : List β} (h : l.mapM f = some r) {a : α} (ha : a ∈ l) : ∃ b ∈ r, f a = some b := by
  induction mapM_eq_some.mp h with
  | nil => cases ha
  | cons hb hrest ih =>
    rcases List.mem_cons.mp ha with rfl | ha
    · exact ⟨_, List.mem_cons_self, hb⟩
    · simp_all [mapM_eq_some]

/-- The call of one of the results. Kind: L -/
theorem exists_of_mem_mapM {l : List α} {r : List β} (h : l.mapM f = some r) {b : β} (hb : b ∈ r) : ∃ a ∈ l, f a = some b := by
  induction mapM_eq_some.mp h with
  | nil => cases hb
  | cons ha hrest ih =>
    rcases List.mem_cons.mp hb with rfl | hb
    · exact ⟨_, List.mem_cons_self, ha⟩
    · simp_all [mapM_eq_some]

end KarsaSec.Found
