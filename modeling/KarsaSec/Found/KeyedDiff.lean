import Mathlib.Data.List.Perm.Basic
import Mathlib.Data.List.Perm.Lattice
import Mathlib.Data.List.Count

/-!
# Differences by a key

The difference of two lists that goes by a key of the elements: what has a key the other list does not have.

* `missingFrom` is the difference in one direction.
* `perm_of_filter`: lists with the same elements for each key have the same elements.
* `diff_complete_iff`: the two differences lead from one list to the other exactly if the lists have the same elements
  for each key they share.
-/

namespace KarsaSec.Found

variable {α κ : Type*} [DecidableEq κ] (key : α → κ)

/-- The elements whose key the other list does not have. Kind: D -/
def missingFrom (other l : List α) : List α := l.filter fun a => key a ∉ other.map key

/-- The elements with a key. Kind: D -/
def withKey (k : κ) (l : List α) : List α := l.filter fun a => key a = k

variable {key} {l l' other : List α} {k : κ}

theorem mem_missingFrom {a : α} : a ∈ missingFrom key other l ↔ a ∈ l ∧ key a ∉ other.map key := by
  simp [missingFrom]

/-- Lists with the same elements for each key have the same elements. Kind: L -/
theorem perm_of_filter (key : α → κ) (h : ∀ k, (withKey key k l).Perm (withKey key k l')) : l.Perm l' := by
  classical
  refine List.perm_iff_count.mpr fun a => ?_
  have hcount := (h (key a)).count_eq a
  have hfilter : ∀ l : List α, (withKey key (key a) l).count a = l.count a :=
    fun l => List.count_filter (decide_eq_true rfl)
  rwa [hfilter, hfilter] at hcount

theorem withKey_append : withKey key k (l ++ l') = withKey key k l ++ withKey key k l' :=
  List.filter_append l l'

theorem withKey_eq_nil (h : k ∉ l.map key) : withKey key k l = [] := by
  refine List.filter_eq_nil_iff.mpr fun a ha hk => h ?_
  rw [← of_decide_eq_true hk]
  exact List.mem_map_of_mem ha

theorem withKey_missingFrom_of_mem (h : k ∈ other.map key) : withKey key k (missingFrom key other l) = [] := by
  grind [withKey_eq_nil, mem_missingFrom]

theorem withKey_missingFrom_of_not_mem (h : k ∉ other.map key) :
    withKey key k (missingFrom key other l) = withKey key k l := by
  unfold withKey missingFrom
  rw [List.filter_filter]
  refine List.filter_congr fun a _ => ?_
  by_cases hk : key a = k
  · simp [hk, h]
  · simp [hk]

/-- The rest of a list beside what the other does not have. Kind: L -/
theorem perm_missingFrom (key : α → κ) (other l : List α) :
    l.Perm ((l.filter fun a => key a ∈ other.map key) ++ missingFrom key other l) := by
  have hsplit := List.filter_append_perm (fun a => decide (key a ∈ other.map key)) l
  have hnot : (l.filter fun a => !decide (key a ∈ other.map key)) = missingFrom key other l :=
    List.filter_congr fun a _ => (decide_not).symm
  rw [hnot] at hsplit
  exact hsplit.symm

/-- **The differences lead from one list to the other exactly if the lists agree on each key they share.** Kind: P -/
theorem diff_complete_iff (key : α → κ) (old new : List α) :
    (∃ kept, old.Perm (kept ++ missingFrom key new old) ∧ (kept ++ missingFrom key old new).Perm new) ↔
      ∀ k ∈ old.map key, k ∈ new.map key → (withKey key k old).Perm (withKey key k new) := by
  constructor
  · rintro ⟨kept, hold, hnew⟩ k hko hkn
    have hleft : (withKey key k old).Perm (withKey key k (kept ++ missingFrom key new old)) := hold.filter _
    have hright : (withKey key k (kept ++ missingFrom key old new)).Perm (withKey key k new) := hnew.filter _
    rw [withKey_append, withKey_missingFrom_of_mem hkn, List.append_nil] at hleft
    rw [withKey_append, withKey_missingFrom_of_mem hko, List.append_nil] at hright
    exact hleft.trans hright
  · intro h
    refine ⟨_, perm_missingFrom key new old, perm_of_filter key fun k => ?_⟩
    rw [withKey_append]
    have hkept : ∀ k, k ∈ new.map key → withKey key k (old.filter fun a => key a ∈ new.map key) = withKey key k old := by
      intro k hk
      unfold withKey
      rw [List.filter_filter]
      refine List.filter_congr fun a _ => ?_
      by_cases hak : key a = k
      · simp [hak, hk]
      · simp [hak]
    by_cases hkn : k ∈ new.map key
    · rw [hkept k hkn]
      by_cases hko : k ∈ old.map key
      · grind [withKey_missingFrom_of_mem]
      · rw [withKey_missingFrom_of_not_mem hko, withKey_eq_nil hko, List.nil_append]
    · have hnone : k ∉ (old.filter fun a => key a ∈ new.map key).map key := by grind
      have hadded : k ∉ (missingFrom key old new).map key := by
        intro hk
        obtain ⟨a, ha, rfl⟩ := List.mem_map.mp hk
        exact hkn (List.mem_map_of_mem (mem_missingFrom.mp ha).1)
      rw [withKey_eq_nil hnone, withKey_eq_nil hadded, withKey_eq_nil hkn, List.nil_append]

end KarsaSec.Found
