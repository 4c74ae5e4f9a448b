import KarsaSec.Found.Dict
import KarsaSec.Found.Sorting
import Mathlib.Data.List.Perm.Basic
import Mathlib.Logic.Relation
import Mathlib.Order.MinMax
import Mathlib.Order.WithBot

/-!
# Union-find

Disjoint sets with path compression, where the smaller of two roots becomes the parent of the other one.

* `UnionFind` carries the fact that no parent is greater than its element; chains of parents therefore end.
* `RootOf` is the relation of an element to the root of its set; `findFrom_spec`: what `find` returns is the root, and
  the compression of the path changes no root.
* `same_union_iff`: a union brings two sets together and no others.
* `same_unions_iff`: after a list of unions two elements have one root exactly when the smallest equivalence relation
  with these pairs relates them.
* `components` lists the sets; `flatten_components_perm` and `mem_components` say that it is a partition.
-/

namespace KarsaSec.Found

open Relation

variable {κ : Type*} [LinearOrder κ]

/-- The parent of an element; one that is not in the table is its own. Kind: D -/
def parentOf (parent : Dict κ κ) (i : κ) : κ := parent.getD i i

/-- The root that the parents of an element lead to. Kind: D -/
inductive RootOf (parent : Dict κ κ) : κ → κ → Prop
  | here {i : κ} (h : parentOf parent i = i) : RootOf parent i i
  | up {i r : κ} (h : parentOf parent i ≠ i) (hr : RootOf parent (parentOf parent i) r) : RootOf parent i r

namespace RootOf

variable {parent : Dict κ κ} {i j r s : κ}

theorem isRoot (h : RootOf parent i r) : parentOf parent r = r := by
  induction h with
  | here h => exact h
  | up _ _ ih => exact ih

theorem unique (h : RootOf parent i r) (h' : RootOf parent i s) : r = s := by
  induction h with
  | here h =>
    cases h' with
    | here _ => rfl
    | up hne _ => exact absurd h hne
  | up hne _ ih =>
    cases h' with
    | here h => exact absurd h hne
    | up _ hs => exact ih hs

theorem parentOf_set (parent : Dict κ κ) (i j r : κ) :
    parentOf (parent.set i r) j = if j = i then r else parentOf parent j := by
  unfold parentOf Dict.getD
  rw [Dict.get?_set]
  split
  · rfl
  · rfl

/-- To give an element its root as parent changes no root. Kind: L -/
theorem compress (hi : RootOf parent i r) (hne : r ≠ i) (h : RootOf parent j s) : RootOf (parent.set i r) j s := by
  have hroot : parentOf (parent.set i r) r = r := by
    rw [parentOf_set, if_neg hne]
    exact hi.isRoot
  induction h with
  | @here j h =>
    refine .here ?_
    rw [parentOf_set]
    split
    · next heq =>
        subst heq
        cases hi with
        | here _ => rfl
        | up hup _ => exact absurd h hup
    · exact h
  | @up j s h hs ih =>
    by_cases heq : j = i
    · subst heq
      have hsame : s = r := (RootOf.up h hs).unique hi
      have hparent : parentOf (parent.set j r) j = r := by rw [parentOf_set, if_pos rfl]
      subst hsame
      refine .up (fun hself => hne (hparent.symm.trans hself)) ?_
      rw [hparent]
      exact .here hroot
    · have hparent : parentOf (parent.set i r) j = parentOf parent j := by rw [parentOf_set, if_neg heq]
      refine .up (hparent ▸ h) ?_
      rw [hparent]
      exact ih

/-- To give one root another one as parent brings its set under that. Kind: L -/
theorem attach {child root : κ} (hchild : parentOf parent child = child) (hroot : parentOf parent root = root)
    (hne : root ≠ child) (h : RootOf parent j s) :
    RootOf (parent.set child root) j (if s = child then root else s) := by
  have hroot' : parentOf (parent.set child root) root = root := by
    rw [parentOf_set, if_neg hne]
    exact hroot
  induction h with
  | @here j h =>
    by_cases heq : j = child
    · subst heq
      have hparent : parentOf (parent.set j root) j = root := by rw [parentOf_set, if_pos rfl]
      rw [if_pos rfl]
      refine .up (fun hself => hne (hparent.symm.trans hself)) ?_
      rw [hparent]
      exact .here hroot'
    · rw [if_neg heq]
      refine .here ?_
      rw [parentOf_set, if_neg heq]
      exact h
  | @up j s h hs ih =>
    by_cases heq : j = child
    · subst heq
      exact absurd hchild h
    · have hparent : parentOf (parent.set child root) j = parentOf parent j := by rw [parentOf_set, if_neg heq]
      refine .up (hparent ▸ h) ?_
      rw [hparent]
      exact ih

end RootOf

/-! ## Finding a root -/

/-- No parent is greater than its element. Kind: D -/
def Down (parent : Dict κ κ) : Prop := ∀ i p, parent.get? i = some p → p ≤ i

/-- The root of an element, with the elements on the way put under it. The first argument bounds the way. Kind: D -/
def findFrom : ℕ → Dict κ κ → κ → Dict κ κ × κ
  | 0, parent, i => (parent, i)
  | n + 1, parent, i =>
    if parentOf parent i = i then (parent, i)
    else
      let found := findFrom n parent (parentOf parent i)
      (found.1.set i found.2, found.2)

section findFrom

variable {parent : Dict κ κ} {i j : κ} {n : ℕ}

theorem findFrom_of_root (h : parentOf parent i = i) (n : ℕ) : findFrom n parent i = (parent, i) := by
  rcases n with _ | n
  · rfl
  · rw [findFrom, if_pos h]

theorem get?_of_parentOf_ne (h : parentOf parent i ≠ i) : parent.get? i = some (parentOf parent i) := by
  unfold parentOf Dict.getD at h ⊢
  rcases hget : parent.get? i with _ | p
  · rw [hget] at h
    exact absurd rfl h
  · rfl

theorem parentOf_le (h : Down parent) (i : κ) : parentOf parent i ≤ i := by
  by_cases hself : parentOf parent i = i
  · exact le_of_eq hself
  · exact h i _ (get?_of_parentOf_ne hself)

theorem down_set (h : Down parent) {r : κ} (hle : r ≤ i) : Down (parent.set i r) := by
  intro j p hget
  rw [Dict.get?_set] at hget
  split at hget
  · next heq =>
      cases hget
      exact heq ▸ hle
  · exact h j p hget

/-- What `find` leaves is again a table without greater parents, over the same elements. Kind: L -/
theorem findFrom_down (h : Down parent) : (n : ℕ) → (i : κ) → Down (findFrom n parent i).1 ∧
    (findFrom n parent i).2 ≤ i ∧ (findFrom n parent i).1.keys = parent.keys
  | 0, i => ⟨h, le_refl i, rfl⟩
  | n + 1, i => by
    by_cases hself : parentOf parent i = i
    · rw [findFrom_of_root hself]
      exact ⟨h, le_refl i, rfl⟩
    · obtain ⟨hdown, hle, hkeys⟩ := findFrom_down h n (parentOf parent i)
      have hle' := le_trans hle (parentOf_le h i)
      have hmem : i ∈ (findFrom n parent (parentOf parent i)).1.keys := by
        rw [hkeys, ← Dict.get?_isSome, get?_of_parentOf_ne hself]
        rfl
      rw [findFrom, if_neg hself]
      refine ⟨down_set hdown hle', hle', ?_⟩
      rw [Dict.keys_set, if_pos hmem, hkeys]

/-- The elements of the table that are smaller. Kind: D -/
def below (parent : Dict κ κ) (i : κ) : ℕ := (parent.keys.filter fun j => j < i).length

theorem below_lt (h : Down parent) (hne : parentOf parent i ≠ i) (hmem : parentOf parent i ∈ parent.keys) :
    below parent (parentOf parent i) < below parent i := by
  have hlt : parentOf parent i < i := lt_of_le_of_ne (parentOf_le h i) hne
  have hsub : parentOf parent i :: (parent.keys.filter fun j => j < parentOf parent i) ⊆
      parent.keys.filter fun j => j < i := by
    intro j hj
    rcases List.mem_cons.mp hj with rfl | hj
    · exact List.mem_filter.mpr ⟨hmem, decide_eq_true hlt⟩
    · grind
  have hnodup : (parentOf parent i :: (parent.keys.filter fun j => j < parentOf parent i)).Nodup := by
    refine List.nodup_cons.mpr ⟨fun hin => ?_, parent.nodup_keys.filter _⟩
    exact lt_irrefl _ (of_decide_eq_true (List.mem_filter.mp hin).2)
  exact (List.subperm_of_subset hnodup hsub).length_le

/-- With a bound above the number of smaller elements, `find` returns the root and changes none. Kind: P -/
theorem findFrom_spec (h : Down parent) : {n : ℕ} → {i : κ} → below parent i < n →
    RootOf parent i (findFrom n parent i).2 ∧
      ∀ {j s}, RootOf parent j s → RootOf (findFrom n parent i).1 j s
  | 0, _, hn => absurd hn (Nat.not_lt_zero _)
  | n + 1, i, hn => by
    by_cases hself : parentOf parent i = i
    · rw [findFrom_of_root hself]
      exact ⟨.here hself, fun hs => hs⟩
    · have hfound : RootOf parent (parentOf parent i) (findFrom n parent (parentOf parent i)).2 ∧
          ∀ {j s}, RootOf parent j s → RootOf (findFrom n parent (parentOf parent i)).1 j s := by
        by_cases hmem : parentOf parent i ∈ parent.keys
        · exact findFrom_spec h (lt_of_lt_of_le (below_lt h hself hmem) (Nat.lt_succ_iff.mp hn))
        · have hroot : parentOf parent (parentOf parent i) = parentOf parent i := by
            show (parent.get? (parentOf parent i)).getD (parentOf parent i) = parentOf parent i
            rw [Dict.get?_eq_none.mpr hmem]
            rfl
          rw [findFrom_of_root hroot]
          exact ⟨.here hroot, fun hs => hs⟩
      have hi := RootOf.up hself hfound.1
      have hne : (findFrom n parent (parentOf parent i)).2 ≠ i := by grind [parentOf_le, findFrom_down]
      rw [findFrom, if_neg hself]
      exact ⟨hi, fun hs => (hfound.2 hi).compress hne (hfound.2 hs)⟩

end findFrom

/-! ## The structure -/

/-- Disjoint sets of the elements of a table. Kind: D -/
structure UnionFind (κ : Type*) [LinearOrder κ] where
  parent : Dict κ κ
  down : Down parent

namespace UnionFind

variable (uf : UnionFind κ)

theorem down_ofElements (elements : List κ) : Down (Dict.ofList (elements.map fun e => (e, e))) := by
  intro i p hget
  obtain ⟨e, _, heq⟩ := List.mem_map.mp (Dict.mem_of_get?_ofList hget)
  cases heq
  exact le_refl _

/-- Every element is a set of its own. Kind: D -/
def ofElements (elements : List κ) : UnionFind κ :=
  ⟨Dict.ofList (elements.map fun e => (e, e)), down_ofElements elements⟩

/-- A way to a root meets each element once at most. Kind: D -/
def findIn (i : κ) : Dict κ κ × κ := findFrom (uf.parent.keys.length + 1) uf.parent i

theorem down_findIn (i : κ) : Down (uf.findIn i).1 := (findFrom_down uf.down _ i).1

/-- The root of an element, with the way to it compressed. Kind: D -/
def find (i : κ) : UnionFind κ × κ := (⟨(uf.findIn i).1, uf.down_findIn i⟩, (uf.findIn i).2)

theorem down_link (i j : κ) : Down (uf.parent.set (max i j) (min i j)) := 
  down_set uf.down (le_trans (min_le_left i j) (le_max_left i j))

/-- The smaller one of two roots becomes the parent of the other one. Kind: D -/
def link (i j : κ) : UnionFind κ := ⟨uf.parent.set (max i j) (min i j), uf.down_link i j⟩

/-- One set in the place of those of two elements. Kind: D -/
def union (i j : κ) : UnionFind κ :=
  let foundI := uf.find i
  let foundJ := foundI.1.find j
  if foundI.2 ≠ foundJ.2 then foundJ.1.link foundI.2 foundJ.2 else foundJ.1

/-- The elements, each after those before it in the table, under their roots. Kind: D -/
def groups : UnionFind κ × Dict κ (List κ) :=
  uf.parent.keys.foldl (fun s elem => ((s.1.find elem).1, s.2.pushAt (s.1.find elem).2 elem)) (uf, .empty)

/-- The first element of a set. Kind: D -/
def firstOf (group : List κ) : WithBot κ := (sortBy id group).head?

/-- The sets, each in order, in the order of their first elements. Kind: D -/
def components : List (List κ) :=
  (sortBy firstOf uf.groups.2.values).map (sortBy id)

variable {uf} {i j r s : κ}

/-! ## Roots -/

theorem below_lt_size (uf : UnionFind κ) (i : κ) : below uf.parent i < uf.parent.keys.length + 1 :=
  Nat.lt_succ_of_le (List.length_filter_le _ _)

theorem rootOf_find (uf : UnionFind κ) (i : κ) : RootOf uf.parent i (uf.find i).2 :=
  (findFrom_spec uf.down (uf.below_lt_size i)).1

/-- Finding changes no root. Kind: P -/
theorem rootOf_find_iff (uf : UnionFind κ) (i : κ) : RootOf (uf.find i).1.parent j s ↔ RootOf uf.parent j s := by
  have hkept : ∀ {j s}, RootOf uf.parent j s → RootOf (uf.find i).1.parent j s :=
    (findFrom_spec uf.down (uf.below_lt_size i)).2
  refine ⟨fun h => ?_, hkept⟩
  have hroot := uf.rootOf_find j
  rw [h.unique (hkept hroot)]
  exact hroot

theorem find_eq_iff : (uf.find i).2 = r ↔ RootOf uf.parent i r := by
  constructor
  · rintro rfl
    exact uf.rootOf_find i
  · exact fun h => (uf.rootOf_find i).unique h

/-- Two elements have the same root. Kind: D -/
def Same (uf : UnionFind κ) (i j : κ) : Prop := (uf.find i).2 = (uf.find j).2

theorem same_equivalence (uf : UnionFind κ) : Equivalence uf.Same :=
  ⟨fun _ => rfl, fun h => h.symm, fun h h' => h.trans h'⟩

theorem find_find (uf : UnionFind κ) (i j : κ) : ((uf.find i).1.find j).2 = (uf.find j).2 :=
  find_eq_iff.mpr ((rootOf_find_iff uf i).mpr (uf.rootOf_find j))

/-- A link of two roots gives the sets of both the smaller one. Kind: L -/
theorem find_link (hi : parentOf uf.parent i = i) (hj : parentOf uf.parent j = j) (hne : i ≠ j) (x : κ) :
    ((uf.link i j).find x).2 = if (uf.find x).2 = max i j then min i j else (uf.find x).2 := by
  have hmin : parentOf uf.parent (min i j) = min i j := by grind
  have hmax : parentOf uf.parent (max i j) = max i j := by grind
  exact find_eq_iff.mpr ((uf.rootOf_find x).attach hmax hmin (ne_of_lt (min_lt_max.mpr hne)))

/-- Where `lo` stands for `hi`, two elements are the same when they were or when they are these two. Kind: L -/
theorem merged_eq_iff {lo hi x y : κ} : (if x = hi then lo else x) = (if y = hi then lo else y) ↔
    x = y ∨ x = lo ∧ hi = y ∨ x = hi ∧ lo = y := by
  by_cases hx : x = hi
  · by_cases hy : y = hi
    · simp_all
    · rw [if_pos hx, if_neg hy]
      constructor
      · exact fun h => .inr (.inr ⟨hx, h⟩)
      · grind
  · by_cases hy : y = hi
    · rw [if_neg hx, if_pos hy]
      constructor
      · exact fun h => .inr (.inl ⟨h, hy.symm⟩)
      · simp_all
    · rw [if_neg hx, if_neg hy]
      constructor
      · exact Or.inl
      · grind

/-- After a union two elements have one root when they had, or when one stood with each of the two sets. Kind: P -/
theorem same_union_iff {x y : κ} : (uf.union i j).Same x y ↔
    uf.Same x y ∨ uf.Same x i ∧ uf.Same j y ∨ uf.Same x j ∧ uf.Same i y := by
  have hfind : ∀ x, (((uf.find i).1.find j).1.find x).2 = (uf.find x).2 := fun x => by rw [find_find, find_find]
  unfold union
  by_cases hne : (uf.find i).2 ≠ ((uf.find i).1.find j).2
  · rw [if_pos hne]
    rw [find_find] at hne ⊢
    have hrootI : parentOf ((uf.find i).1.find j).1.parent (uf.find i).2 = (uf.find i).2 :=
      ((rootOf_find_iff _ j).mpr ((rootOf_find_iff uf i).mpr (uf.rootOf_find i))).isRoot
    have hrootJ : parentOf ((uf.find i).1.find j).1.parent (uf.find j).2 = (uf.find j).2 :=
      ((rootOf_find_iff _ j).mpr ((rootOf_find_iff uf i).mpr (uf.rootOf_find j))).isRoot
    unfold Same
    rw [find_link hrootI hrootJ hne, find_link hrootI hrootJ hne, hfind, hfind, merged_eq_iff]
    rcases le_total (uf.find i).2 (uf.find j).2 with hle | hle
    · rw [min_eq_left hle, max_eq_right hle]
    · grind
  · rw [if_neg hne]
    rw [find_find, not_not] at hne
    unfold Same
    rw [hfind, hfind]
    constructor
    · exact Or.inl
    · grind

theorem keys_find (uf : UnionFind κ) (i : κ) : (uf.find i).1.parent.keys = uf.parent.keys :=
  (findFrom_down uf.down _ i).2.2

/-- The roots of the elements are elements. Kind: D -/
def Covers (uf : UnionFind κ) : Prop := ∀ i ∈ uf.parent.keys, (uf.find i).2 ∈ uf.parent.keys

theorem Covers.union (h : uf.Covers) (hi : i ∈ uf.parent.keys) (hj : j ∈ uf.parent.keys) :
    (uf.union i j).parent.keys = uf.parent.keys ∧ (uf.union i j).Covers := by
  have hkeys : ((uf.find i).1.find j).1.parent.keys = uf.parent.keys := by rw [keys_find, keys_find]
  have hfind : ∀ x, (((uf.find i).1.find j).1.find x).2 = (uf.find x).2 := fun x => by rw [find_find, find_find]
  unfold UnionFind.union
  by_cases hne : (uf.find i).2 ≠ ((uf.find i).1.find j).2
  · rw [if_pos hne]
    rw [find_find] at hne ⊢
    have hrootI : parentOf ((uf.find i).1.find j).1.parent (uf.find i).2 = (uf.find i).2 :=
      ((rootOf_find_iff _ j).mpr ((rootOf_find_iff uf i).mpr (uf.rootOf_find i))).isRoot
    have hrootJ : parentOf ((uf.find i).1.find j).1.parent (uf.find j).2 = (uf.find j).2 :=
      ((rootOf_find_iff _ j).mpr ((rootOf_find_iff uf i).mpr (uf.rootOf_find j))).isRoot
    have hlinked : (((uf.find i).1.find j).1.link (uf.find i).2 (uf.find j).2).parent.keys = uf.parent.keys := by
      unfold link
      rw [Dict.keys_set, hkeys, if_pos]
      rcases max_choice (uf.find i).2 (uf.find j).2 with heq | heq
      · rw [heq]
        exact h i hi
      · rw [heq]
        exact h j hj
    refine ⟨hlinked, fun x hx => ?_⟩
    rw [hlinked] at hx ⊢
    rw [find_link hrootI hrootJ hne, hfind]
    split
    · rcases min_choice (uf.find i).2 (uf.find j).2 with heq | heq
      · rw [heq]
        exact h i hi
      · rw [heq]
        exact h j hj
    · exact h x hx
  · rw [if_neg hne]
    refine ⟨hkeys, fun x hx => ?_⟩
    rw [hkeys] at hx ⊢
    rw [hfind]
    exact h x hx

/-! ## A list of unions -/

/-- Unions one after another. Kind: D -/
def unions (uf : UnionFind κ) (pairs : List (κ × κ)) : UnionFind κ := pairs.foldl (fun uf pair => uf.union pair.1 pair.2) uf

theorem same_unions_of_same {x y : κ} : (pairs : List (κ × κ)) → {uf : UnionFind κ} → uf.Same x y →
    (uf.unions pairs).Same x y
  | [], _, h => h
  | _ :: pairs, _, h => same_unions_of_same pairs (same_union_iff.mpr (.inl h))

theorem same_unions_of_mem {x y : κ} : (pairs : List (κ × κ)) → {uf : UnionFind κ} → (x, y) ∈ pairs →
    (uf.unions pairs).Same x y
  | pair :: pairs, uf, h => by
    rcases List.mem_cons.mp h with rfl | h
    · exact same_unions_of_same pairs (same_union_iff.mpr (.inr (.inl ⟨rfl, rfl⟩)))
    · exact same_unions_of_mem pairs h

/-- Unions bring together only what their pairs relate. Kind: L -/
theorem eqvGen_of_same_unions {R : κ → κ → Prop} {x y : κ} : (pairs : List (κ × κ)) → {uf : UnionFind κ} →
    (∀ i j, (i, j) ∈ pairs → R i j) → (∀ i j, uf.Same i j → EqvGen R i j) → (uf.unions pairs).Same x y → EqvGen R x y
  | [], _, _, hsame, h => hsame x y h
  | pair :: pairs, uf, hpairs, hsame, h => by
    refine eqvGen_of_same_unions pairs (fun i j hmem => hpairs i j (List.mem_cons_of_mem _ hmem)) ?_ h
    intro i j hij
    have hpair : EqvGen R pair.1 pair.2 := .rel _ _ (hpairs _ _ List.mem_cons_self)
    rcases same_union_iff.mp hij with hold | ⟨hi, hj⟩ | ⟨hi, hj⟩
    · exact hsame i j hold
    · exact ((hsame _ _ hi).trans _ _ _ hpair).trans _ _ _ (hsame _ _ hj)
    · exact ((hsame _ _ hi).trans _ _ _ (hpair.symm _ _)).trans _ _ _ (hsame _ _ hj)

theorem find_ofElements {elements : List κ} : ((ofElements elements).find i).2 = i := by
  refine find_eq_iff.mpr (.here ?_)
  unfold parentOf Dict.getD
  rcases hget : (ofElements elements).parent.get? i with _ | p
  · rfl
  · obtain ⟨e, _, heq⟩ := List.mem_map.mp (Dict.mem_of_get?_ofList hget)
    cases heq
    rfl

/-- At the start no two elements are together. Kind: L -/
theorem same_ofElements {elements : List κ} : (ofElements elements).Same i j ↔ i = j := by
  unfold Same
  rw [find_ofElements, find_ofElements]

/-- After unions of elements two of them are together exactly when the smallest equivalence relation with the pairs
relates them. Kind: P -/
theorem same_unions_iff {elements : List κ} {pairs : List (κ × κ)} {x y : κ} :
    ((ofElements elements).unions pairs).Same x y ↔ EqvGen (fun i j => (i, j) ∈ pairs) x y := by
  constructor
  · refine eqvGen_of_same_unions pairs (fun _ _ h => h) fun i j h => ?_
    rw [same_ofElements.mp h]
    exact .refl j
  · intro h
    induction h with
    | rel x y h => exact same_unions_of_mem pairs h
    | refl x => exact (same_equivalence _).refl x
    | symm x y _ ih => exact (same_equivalence _).symm ih
    | trans x y z _ _ ih ih' => exact (same_equivalence _).trans ih ih'

theorem covers_ofElements (elements : List κ) : (ofElements elements).Covers := by
  intro i hi
  rw [show ((ofElements elements).find i).2 = i from find_ofElements]
  exact hi

theorem keys_ofElements {elements : List κ} (h : elements.Nodup) : (ofElements elements).parent.keys = elements := by
  have hnodup : ((elements.map fun e => (e, e)).map Prod.fst).Nodup := by
    rw [List.map_map]
    exact (List.map_id elements).symm ▸ h
  show (Dict.ofList (elements.map fun e => (e, e))).entries.map Prod.fst = elements
  rw [Dict.entries_ofList hnodup, List.map_map]
  exact List.map_id elements

theorem Covers.unions : (pairs : List (κ × κ)) → {uf : UnionFind κ} → uf.Covers →
    (∀ pair ∈ pairs, pair.1 ∈ uf.parent.keys ∧ pair.2 ∈ uf.parent.keys) → (uf.unions pairs).parent.keys = uf.parent.keys
  | [], _, _, _ => rfl
  | pair :: pairs, uf, h, hpairs => by
    obtain ⟨hi, hj⟩ := hpairs pair List.mem_cons_self
    obtain ⟨hkeys, hcovers⟩ := h.union hi hj
    refine Eq.trans (Covers.unions pairs hcovers fun p hp => ?_) hkeys
    rw [hkeys]
    exact hpairs p (List.mem_cons_of_mem _ hp)

/-! ## The sets -/

/-- The groups are those under the roots at the start. Kind: L -/
theorem groups_eq (uf : UnionFind κ) : uf.groups.2 = Dict.groupBy (fun i => (uf.find i).2) uf.parent.keys := by
  have hfold : ∀ (l : List κ) (uf' : UnionFind κ) (d : Dict κ (List κ)), (∀ i, (uf'.find i).2 = (uf.find i).2) →
      (l.foldl (fun s elem => ((s.1.find elem).1, s.2.pushAt (s.1.find elem).2 elem)) (uf', d)).2 =
        l.foldl (fun d elem => d.pushAt (uf.find elem).2 elem) d := by
    intro l
    induction l with
    | nil => exact fun _ _ _ => rfl
    | cons elem l ih =>
      intro uf' d h
      rw [List.foldl_cons, List.foldl_cons, ih _ _ fun i => (find_find uf' elem i).trans (h i), h]
  exact hfold uf.parent.keys uf .empty fun _ => rfl

/-- The set of an element, in order. Kind: D -/
def setOf (uf : UnionFind κ) (i : κ) : List κ := sortBy id (uf.parent.keys.filter fun j => (uf.find j).2 = (uf.find i).2)

/-- The sets are those of the elements. Kind: P -/
theorem mem_components {group : List κ} : group ∈ uf.components ↔ ∃ i ∈ uf.parent.keys, group = uf.setOf i := by
  unfold components
  rw [List.mem_map]
  constructor
  · rintro ⟨members, hmembers, rfl⟩
    rw [(sortBy_perm _ _).mem_iff, groups_eq, Dict.mem_values] at hmembers
    obtain ⟨root, hroot⟩ := hmembers
    obtain ⟨⟨i, hi, rfl⟩, rfl⟩ := Dict.mem_entries_groupBy.mp (Dict.mem_entries.mpr hroot)
    exact ⟨i, hi, rfl⟩
  · rintro ⟨i, hi, rfl⟩
    refine ⟨_, ?_, rfl⟩
    rw [(sortBy_perm _ _).mem_iff, groups_eq, Dict.mem_values]
    exact ⟨(uf.find i).2, Dict.mem_entries.mp (Dict.mem_entries_groupBy.mpr ⟨⟨i, hi, rfl⟩, rfl⟩)⟩

theorem nodup_setOf (uf : UnionFind κ) (i : κ) : (uf.setOf i).Nodup :=
  (sortBy_perm _ _).nodup_iff.mpr (uf.parent.nodup_keys.filter _)

theorem mem_setOf {i x : κ} : x ∈ uf.setOf i ↔ x ∈ uf.parent.keys ∧ uf.Same x i := by
  unfold setOf
  rw [(sortBy_perm _ _).mem_iff, List.mem_filter, decide_eq_true_eq]
  exact Iff.rfl

omit [LinearOrder κ] in
/-- The classes of a list by its keys make up the list. Kind: L -/
theorem flatMap_filter_perm [DecidableEq κ] {α : Type*} (key : α → κ) : (ks : List κ) → {l : List α} → ks.Nodup →
    (∀ a ∈ l, key a ∈ ks) → (ks.flatMap fun k => l.filter fun a => key a = k).Perm l
  | [], l, _, h => by
    rcases l with _ | ⟨a, l⟩
    · exact List.Perm.refl _
    · exact absurd (h a List.mem_cons_self) List.not_mem_nil
  | k :: ks, l, hn, h => by
    obtain ⟨hk, hn⟩ := List.nodup_cons.mp hn
    have hrest : (ks.flatMap fun k' => l.filter fun a => key a = k') =
        ks.flatMap fun k' => (l.filter fun a => !decide (key a = k)).filter fun a => key a = k' := by
      refine List.flatMap_congr fun k' hk' => ?_
      rw [List.filter_filter]
      refine List.filter_congr fun a _ => ?_
      by_cases hkey : key a = k'
      · grind
      · simp [hkey]
    have ih := flatMap_filter_perm key ks (l := l.filter fun a => !decide (key a = k)) hn fun a ha => by
      obtain ⟨hmem, hne⟩ := List.mem_filter.mp ha
      rcases List.mem_cons.mp (h a hmem) with heq | hks
      · simp [heq] at hne
      · exact hks
    rw [List.flatMap_cons, hrest]
    exact (ih.append_left _).trans (List.filter_append_perm _ l)

/-- Every element is in one set, and once. Kind: P -/
theorem flatten_components_perm (uf : UnionFind κ) : uf.components.flatten.Perm uf.parent.keys := by
  have hgroups : uf.groups.2.values = uf.groups.2.keys.map fun root =>
      uf.parent.keys.filter fun j => (uf.find j).2 = root := by
    unfold Dict.values Dict.keys
    rw [List.map_map]
    apply List.map_congr_left
    rintro ⟨root, members⟩ hmem
    rw [groups_eq] at hmem
    exact (Dict.mem_entries_groupBy.mp hmem).2
  have hcover : ∀ i ∈ uf.parent.keys, (uf.find i).2 ∈ uf.groups.2.keys := by grind [groups_eq, Dict.mem_keys_groupBy]
  have hsorted : uf.components.flatten.Perm uf.groups.2.values.flatten := by
    unfold components
    rw [← List.flatMap_def]
    refine (List.Perm.flatMap_left _ fun group _ => sortBy_perm id group).trans ?_
    rw [List.flatMap_id']
    exact (sortBy_perm _ _).flatten
  refine hsorted.trans ?_
  rw [hgroups, ← List.flatMap_def]
  exact flatMap_filter_perm _ _ uf.groups.2.nodup_keys hcover

end UnionFind

end KarsaSec.Found
