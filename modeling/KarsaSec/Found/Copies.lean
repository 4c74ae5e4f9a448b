import KarsaSec.Found.Dict
import Mathlib.Data.List.Nodup

/-!
# Lists with multiplicities and tables with several keys

* `copies c l` is a list with each element `a` of `l` standing `c a` times in its place. Over a list without
  repetitions the multiplicities can be read off the copies (`copies_inj`).
* `pushAll` enters one value in a table of lists under each of several keys. Entering the elements of a list one after
  another puts under a key the copies of the elements by how often their keys name it (`getD_foldl_pushAll`).
-/

namespace KarsaSec.Found

section copies

variable {α : Type*}

/-- Each element of a list, a number of times in its place. Kind: D -/
def copies (c : α → ℕ) (l : List α) : List α := l.flatMap fun a => List.replicate (c a) a

@[simp] theorem copies_nil (c : α → ℕ) : copies c [] = [] := rfl

@[simp] theorem copies_cons (c : α → ℕ) (a : α) (l : List α) :
    copies c (a :: l) = List.replicate (c a) a ++ copies c l := rfl

theorem mem_copies {c : α → ℕ} {l : List α} {a : α} : a ∈ copies c l ↔ a ∈ l ∧ c a ≠ 0 := by
  simp only [copies, List.mem_flatMap, List.mem_replicate]
  constructor
  · rintro ⟨b, hb, hne, rfl⟩
    exact ⟨hb, hne⟩
  · rintro ⟨ha, hne⟩
    exact ⟨a, ha, hne, rfl⟩

theorem copies_congr {c d : α → ℕ} {l : List α} (h : ∀ a ∈ l, c a = d a) : copies c l = copies d l := by
  induction l with
  | nil => rfl
  | cons a l ih =>
    rw [copies_cons, copies_cons, h a List.mem_cons_self, ih fun b hb => h b (List.mem_cons_of_mem _ hb)]

/-- Elements that stand once or not at all. Kind: L -/
theorem copies_ite (p : α → Bool) (l : List α) : copies (fun a => if p a then 1 else 0) l = l.filter p := by
  induction l with
  | nil => rfl
  | cons a l ih =>
    rw [copies_cons, ih]
    by_cases ha : p a = true
    · simp [ha]
    · simp [ha]

variable [DecidableEq α]

theorem count_copies_of_not_mem {c : α → ℕ} {l : List α} {a : α} (h : a ∉ l) : (copies c l).count a = 0 := by
  apply List.count_eq_zero_of_not_mem
  intro hmem
  exact h (mem_copies.mp hmem).1

theorem count_copies {c : α → ℕ} {l : List α} (hl : l.Nodup) {a : α} (ha : a ∈ l) : (copies c l).count a = c a := by
  induction l with
  | nil => cases ha
  | cons b l ih =>
    have hb := List.nodup_cons.mp hl
    rw [copies_cons, List.count_append, List.count_replicate]
    rcases List.mem_cons.mp ha with rfl | ha
    · rw [count_copies_of_not_mem hb.1]
      simp
    · grind

omit [DecidableEq α] in
/-- The copies of different elements have the multiplicities they were made with. Kind: P -/
theorem copies_inj {c d : α → ℕ} {l : List α} (hl : l.Nodup) : copies c l = copies d l ↔ ∀ a ∈ l, c a = d a := by
  classical
  constructor
  · intro h a ha
    rw [← count_copies (c := c) hl ha, h, count_copies hl ha]
  · exact copies_congr

end copies

namespace Dict

variable {κ : Type*} [DecidableEq κ] {α : Type*}

/-- `d.setdefault(k, []).append(v)` for each of the keys. Kind: D -/
def pushAll (d : Dict κ (List α)) (keys : List κ) (v : α) : Dict κ (List α) :=
  keys.foldl (fun d k => d.pushAt k v) d

theorem getD_pushAll (v : α) (k : κ) : (keys : List κ) → (d : Dict κ (List α)) →
    (d.pushAll keys v).getD k [] = d.getD k [] ++ List.replicate (keys.count k) v
  | [], d => by simp [pushAll]
  | key :: keys, d => by
    have ih := getD_pushAll v k keys (d.pushAt key v)
    rw [show d.pushAll (key :: keys) v = (d.pushAt key v).pushAll keys v from rfl, ih]
    by_cases h : key = k
    · grind [pushAt, getD_set_self, List.count_cons_self]
    · rw [pushAt, getD_set_ne d (Ne.symm h), List.count_cons_of_ne h]

/-- A table holds under a key the elements entered, as often as their keys name it. Kind: P -/
theorem getD_foldl_pushAll (keys : α → List κ) (k : κ) : (l : List α) → (d : Dict κ (List α)) →
    (l.foldl (fun d a => d.pushAll (keys a) a) d).getD k [] =
      d.getD k [] ++ copies (fun a => (keys a).count k) l
  | [], d => by simp
  | a :: l, d => by
    rw [List.foldl_cons, getD_foldl_pushAll keys k l, getD_pushAll, copies_cons, List.append_assoc]

/-- The value under a key is that of the only entry with the key. Kind: L -/
theorem toList_lookup (k : κ) : {l : List (κ × α)} → (l.map Prod.fst).Nodup →
    (lookup k l).toList = (l.filter fun e => e.1 = k).map Prod.snd
  | [], _ => rfl
  | (k', v) :: l, h => by
    have hnodup := List.nodup_cons.mp h
    have ih := toList_lookup k hnodup.2
    by_cases hk : k' = k
    · subst hk
      have hnone : l.filter (fun e => e.1 = k') = [] := by grind [List.filter_eq_nil_iff]
      simp [lookup, hnone]
    · simp [lookup, hk, ih]

end Dict

end KarsaSec.Found
