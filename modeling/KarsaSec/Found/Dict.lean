import Mathlib.Data.List.Basic
import Mathlib.Data.List.Induction
import Mathlib.Data.List.Nodup

/-!
# Insertion-ordered dictionaries

The `dict` of the modelled language: an association list whose keys are pairwise different, read
in insertion order. Overwriting a key keeps its place; a new key goes to the end.

* `Dict κ ν` carries the distinctness of its keys as a field, so no operation has to re-establish
  it at its use.
* `Dict.get?`, `Dict.set`, `Dict.keys`, `Dict.values` are `d.get(k)`, `d[k] = v`, `d.keys()` and
  `d.values()`.
* `Dict.pushAt` is `d.setdefault(k, []).append(v)`, the grouping step; `Dict.groupBy` folds it over
  a list.
-/

namespace KarsaSec.Found

variable {κ ν : Type*}

/-- A dictionary: entries in insertion order, keys pairwise different.
Kind: D -/
structure Dict (κ ν : Type*) where
  /-- The entries, oldest key first. -/
  entries : List (κ × ν)
  /-- No key is listed twice. -/
  nodup : (entries.map Prod.fst).Nodup

namespace Dict

/-- The empty dictionary. Kind: D -/
def empty : Dict κ ν := ⟨[], List.nodup_nil⟩

/-- The keys, oldest first. Kind: D -/
def keys (d : Dict κ ν) : List κ := d.entries.map Prod.fst

/-- The values, oldest key first. Kind: D -/
def values (d : Dict κ ν) : List ν := d.entries.map Prod.snd

/-- The keys are pairwise different. Kind: L -/
theorem nodup_keys (d : Dict κ ν) : d.keys.Nodup := d.nodup

@[simp] theorem keys_empty : (empty : Dict κ ν).keys = [] := rfl

@[ext] theorem ext {d e : Dict κ ν} (h : d.entries = e.entries) : d = e := by
  cases d; cases e; cases h; rfl

section lookup

variable [DecidableEq κ]

/-- The value stored under `k` in a list of entries. Kind: D -/
def lookup (k : κ) : List (κ × ν) → Option ν
  | [] => none
  | (k', v) :: rest => if k' = k then some v else lookup k rest

/-- Overwriting or appending one entry. Kind: D -/
def insertEntry (k : κ) (v : ν) : List (κ × ν) → List (κ × ν)
  | [] => [(k, v)]
  | (k', v') :: rest => if k' = k then (k', v) :: rest else (k', v') :: insertEntry k v rest

/-- The keys after one insertion: the same ones, with a new key at the end. Kind: L -/
theorem map_fst_insertEntry (k : κ) (v : ν) :
    (l : List (κ × ν)) → (insertEntry k v l).map Prod.fst =
      if k ∈ l.map Prod.fst then l.map Prod.fst else l.map Prod.fst ++ [k]
  | [] => by simp [insertEntry]
  | (k', v') :: rest => by
    by_cases h : k' = k
    · subst h; simp [insertEntry]
    · have ih := map_fst_insertEntry k v rest
      by_cases hk : k ∈ rest.map Prod.fst
      · simp_all [insertEntry]
      · have hn : k ∉ k' :: rest.map Prod.fst := by grind
        simp only [insertEntry, if_neg h, List.map_cons, ih, if_neg hk, if_neg hn,
          List.cons_append]

/-- Insertion keeps the keys distinct. Kind: L -/
theorem nodup_insertEntry (k : κ) (v : ν) {l : List (κ × ν)} (h : (l.map Prod.fst).Nodup) :
    ((insertEntry k v l).map Prod.fst).Nodup := by
  rw [map_fst_insertEntry]
  split
  · exact h
  · next hk => simpa [List.nodup_append, h] using fun a ha => fun e : a = k => hk (e ▸ ha)

/-- `d.get(k)`. Kind: D -/
def get? (d : Dict κ ν) (k : κ) : Option ν := lookup k d.entries

/-- `d.get(k, default)`. Kind: D -/
def getD (d : Dict κ ν) (k : κ) (default : ν) : ν := (d.get? k).getD default

/-- `d[k] = v`. Kind: D -/
def set (d : Dict κ ν) (k : κ) (v : ν) : Dict κ ν :=
  ⟨insertEntry k v d.entries, nodup_insertEntry k v d.nodup⟩

/-- `k in d`. Kind: D -/
def contains (d : Dict κ ν) (k : κ) : Bool := (d.get? k).isSome

/-- The dictionary of a list of assignments, later ones overwriting earlier ones. Kind: D -/
def ofList (l : List (κ × ν)) : Dict κ ν := l.foldl (fun d p => d.set p.1 p.2) empty

theorem lookup_insertEntry_self (k : κ) (v : ν) :
    (l : List (κ × ν)) → lookup k (insertEntry k v l) = some v
  | [] => by simp [insertEntry, lookup]
  | (k', v') :: rest => by
    by_cases h : k' = k
    · simp [insertEntry, lookup, h]
    · simp [insertEntry, lookup, h, lookup_insertEntry_self k v rest]

theorem lookup_insertEntry_ne {k k' : κ} (hk : k' ≠ k) (v : ν) :
    (l : List (κ × ν)) → lookup k' (insertEntry k v l) = lookup k' l
  | [] => by simp [insertEntry, lookup, hk.symm]
  | (k'', v'') :: rest => by
    by_cases h : k'' = k
    · subst h; simp [insertEntry, lookup, hk.symm]
    · simp [insertEntry, lookup, h, lookup_insertEntry_ne hk v rest]

/-- Reading back what was stored. Kind: L -/
@[simp] theorem get?_set_self (d : Dict κ ν) (k : κ) (v : ν) : (d.set k v).get? k = some v :=
  lookup_insertEntry_self k v d.entries

/-- The frame of one store: every other key reads as before. Kind: L -/
theorem get?_set_ne (d : Dict κ ν) {k k' : κ} (h : k' ≠ k) (v : ν) :
    (d.set k v).get? k' = d.get? k' :=
  lookup_insertEntry_ne h v d.entries

theorem get?_set (d : Dict κ ν) (k k' : κ) (v : ν) :
    (d.set k v).get? k' = if k' = k then some v else d.get? k' := by
  split
  · next h => subst h; exact get?_set_self d k' v
  · next h => exact get?_set_ne d h v

@[simp] theorem get?_empty (k : κ) : (empty : Dict κ ν).get? k = none := rfl

@[simp] theorem keys_set (d : Dict κ ν) (k : κ) (v : ν) :
    (d.set k v).keys = if k ∈ d.keys then d.keys else d.keys ++ [k] :=
  map_fst_insertEntry k v d.entries

theorem mem_keys_set {d : Dict κ ν} {k k' : κ} {v : ν} :
    k' ∈ (d.set k v).keys ↔ k' = k ∨ k' ∈ d.keys := by
  rw [keys_set]
  split
  · simp_all
  · simp [or_comm]

theorem lookup_isSome {k : κ} : {l : List (κ × ν)} → (lookup k l).isSome ↔ k ∈ l.map Prod.fst
  | [] => by simp [lookup]
  | (k', v') :: rest => by
    by_cases h : k' = k
    · simp [lookup, h]
    · simp only [lookup, if_neg h, lookup_isSome, List.map_cons, List.mem_cons]
      constructor
      · exact Or.inr
      · grind

/-- A key is listed exactly when it reads as present. Kind: L -/
theorem get?_isSome {d : Dict κ ν} {k : κ} : (d.get? k).isSome ↔ k ∈ d.keys := lookup_isSome

theorem get?_eq_none {d : Dict κ ν} {k : κ} : d.get? k = none ↔ k ∉ d.keys := by
  rw [← get?_isSome]; cases d.get? k <;> simp

theorem mem_of_lookup {k : κ} {v : ν} : {l : List (κ × ν)} → lookup k l = some v → (k, v) ∈ l
  | [], h => by simp [lookup] at h
  | (k', v') :: rest, h => by
    by_cases hk : k' = k
    · subst hk; simp only [lookup, if_pos, Option.some.injEq] at h; simp [h]
    · simp only [lookup, if_neg hk] at h; exact List.mem_cons_of_mem _ (mem_of_lookup h)

theorem lookup_of_mem {k : κ} {v : ν} : {l : List (κ × ν)} → (l.map Prod.fst).Nodup →
    (k, v) ∈ l → lookup k l = some v
  | [], _, h => absurd h List.not_mem_nil
  | (k', v') :: rest, hn, h => by
    simp only [List.map_cons, List.nodup_cons] at hn
    rcases List.mem_cons.mp h with heq | hmem
    · cases heq; simp [lookup]
    · have : k' ≠ k := fun e => hn.1 (e ▸ List.mem_map_of_mem (f := Prod.fst) hmem)
      simp only [lookup, if_neg this, lookup_of_mem hn.2 hmem]

theorem lookup_append (k : κ) (l l' : List (κ × ν)) : lookup k (l ++ l') = (lookup k l).or (lookup k l') := by
  induction l with
  | nil => rfl
  | cons e rest ih =>
    by_cases h : e.1 = k
    · simp [lookup, h]
    · simp [lookup, h, ih]

/-- The order of entries does not matter as long as the keys are distinct. Kind: L -/
theorem lookup_perm {k : κ} {l l' : List (κ × ν)} (h : l.Perm l') (hn : (l.map Prod.fst).Nodup) :
    lookup k l = lookup k l' := by
  have hn' := (h.map Prod.fst).nodup_iff.mp hn
  refine Option.ext fun v => ⟨fun hv => ?_, fun hv => ?_⟩
  · exact lookup_of_mem hn' (h.mem_iff.mp (mem_of_lookup hv))
  · exact lookup_of_mem hn (h.mem_iff.mpr (mem_of_lookup hv))

/-- Entries and lookups agree: the keys are distinct. Kind: L -/
theorem mem_entries {d : Dict κ ν} {k : κ} {v : ν} : (k, v) ∈ d.entries ↔ d.get? k = some v :=
  ⟨lookup_of_mem d.nodup, mem_of_lookup⟩

theorem mem_values {d : Dict κ ν} {v : ν} : v ∈ d.values ↔ ∃ k, d.get? k = some v := by
  simp only [values, List.mem_map, Prod.exists, exists_eq_right, mem_entries]

/-- Overwriting a stored value changes that value and no other, up to order. Kind: L -/
theorem exists_values_perm {d : Dict κ ν} {k : κ} {v : ν} (h : d.get? k = some v) :
    ∃ rest, d.values.Perm (v :: rest) ∧ ∀ v', (d.set k v').values.Perm (v' :: rest) := by
  have hlist : ∀ l : List (κ × ν), lookup k l = some v → ∃ rest,
      (l.map Prod.snd).Perm (v :: rest) ∧
        ∀ v', ((insertEntry k v' l).map Prod.snd).Perm (v' :: rest) := by
    intro l hl
    induction l with
    | nil => cases hl
    | cons e l ih =>
      rcases e with ⟨k', w⟩
      by_cases hk : k' = k
      · rw [lookup, if_pos hk] at hl
        obtain rfl := Option.some.inj hl
        refine ⟨l.map Prod.snd, List.Perm.refl _, fun v' => ?_⟩
        rw [insertEntry, if_pos hk]
        exact List.Perm.refl _
      · rw [lookup, if_neg hk] at hl
        obtain ⟨rest, hrest, hset⟩ := ih hl
        refine ⟨w :: rest, (hrest.cons w).trans (List.Perm.swap _ _ _), fun v' => ?_⟩
        rw [insertEntry, if_neg hk]
        exact ((hset v').cons w).trans (List.Perm.swap _ _ _)
  exact hlist d.entries h

/-- A new key adds its value at the end. Kind: L -/
theorem values_set_of_not_mem {d : Dict κ ν} {k : κ} (h : k ∉ d.keys) (v : ν) :
    (d.set k v).values = d.values ++ [v] := by
  have hlist : ∀ l : List (κ × ν), k ∉ l.map Prod.fst →
      (insertEntry k v l).map Prod.snd = l.map Prod.snd ++ [v] := by
    intro l hl
    induction l with
    | nil => rfl
    | cons e l ih =>
      rcases e with ⟨k', w⟩
      simp only [List.map_cons, List.mem_cons, not_or] at hl
      rw [insertEntry, if_neg (Ne.symm hl.1), List.map_cons, ih hl.2]
      rfl
  exact hlist d.entries h

/-! ### Lists of assignments -/

@[simp] theorem ofList_nil : (ofList [] : Dict κ ν) = empty := rfl

theorem ofList_snoc (l : List (κ × ν)) (p : κ × ν) :
    ofList (l ++ [p]) = (ofList l).set p.1 p.2 := by
  unfold ofList
  rw [List.foldl_append]
  rfl

theorem mem_keys_ofList {l : List (κ × ν)} {k : κ} : k ∈ (ofList l).keys ↔ k ∈ l.map Prod.fst := by
  induction l using List.reverseRecOn with
  | nil => simp
  | append_singleton l p ih =>
    rw [ofList_snoc, mem_keys_set, ih, List.map_append, List.mem_append, or_comm]
    simp

/-- What is read was assigned. Kind: L -/
theorem mem_of_get?_ofList {l : List (κ × ν)} {k : κ} {v : ν} (h : (ofList l).get? k = some v) :
    (k, v) ∈ l := by
  induction l using List.reverseRecOn with
  | nil => cases h
  | append_singleton l p ih =>
    rw [ofList_snoc, get?_set] at h
    split at h
    · grind
    · exact List.mem_append_left _ (ih h)

/-- Assignments to keys of their own are all found. Kind: L -/
theorem get?_ofList_map {ι : Type*} {l : List ι} {key : ι → κ} (hkey : ∀ i j, key i = key j → i = j) (value : ι → ν) {i : ι}
    (hi : i ∈ l) : (ofList (l.map fun i => (key i, value i))).get? (key i) = some (value i) := by
  have hmem : key i ∈ (ofList (l.map fun i => (key i, value i))).keys := by
    rw [mem_keys_ofList, List.map_map]
    exact List.mem_map_of_mem hi
  obtain ⟨v, hv⟩ := Option.isSome_iff_exists.mp (get?_isSome.mpr hmem)
  obtain ⟨j, -, hj⟩ := List.mem_map.mp (mem_of_get?_ofList hv)
  obtain ⟨hkeys, rfl⟩ := Prod.mk.inj hj
  obtain rfl := hkey j i hkeys
  exact hv

theorem insertEntry_of_not_mem {k : κ} {v : ν} {l : List (κ × ν)} (h : k ∉ l.map Prod.fst) :
    insertEntry k v l = l ++ [(k, v)] := by
  induction l with
  | nil => rfl
  | cons e l ih =>
    simp only [List.map_cons, List.mem_cons, not_or] at h
    rw [insertEntry, if_neg (Ne.symm h.1), ih h.2]
    rfl

/-- Assignments to different keys are the entries. Kind: L -/
theorem entries_ofList {l : List (κ × ν)} (h : (l.map Prod.fst).Nodup) : (ofList l).entries = l := by
  induction l using List.reverseRecOn with
  | nil => rfl
  | append_singleton l p ih =>
    rw [List.map_append, List.nodup_append] at h
    have hentries := ih h.1
    have hnew : p.1 ∉ l.map Prod.fst := fun hmem => h.2.2 p.1 hmem p.1 (by simp) rfl
    rw [ofList_snoc]
    change insertEntry p.1 p.2 (ofList l).entries = l ++ [p]
    rw [hentries, insertEntry_of_not_mem hnew]

theorem getD_set_self (d : Dict κ ν) (k : κ) (v w : ν) : (d.set k v).getD k w = v := by
  simp [getD]

theorem getD_set_ne (d : Dict κ ν) {k k' : κ} (h : k' ≠ k) (v w : ν) :
    (d.set k v).getD k' w = d.getD k' w := by
  simp [getD, get?_set_ne d h v]

omit [DecidableEq κ] in
theorem nodup_map_value {μ : Type*} (f : ν → μ) (d : Dict κ ν) :
    ((d.entries.map fun p => (p.1, f p.2)).map Prod.fst).Nodup := by
  rw [List.map_map]
  exact d.nodup

/-- Every value is changed in its place. Kind: D -/
def mapValues {μ : Type*} (f : ν → μ) (d : Dict κ ν) : Dict κ μ :=
  ⟨d.entries.map fun p => (p.1, f p.2), nodup_map_value f d⟩

theorem get?_mapValues {μ : Type*} (f : ν → μ) (d : Dict κ ν) (k : κ) :
    (d.mapValues f).get? k = (d.get? k).map f := by
  show lookup k (d.entries.map fun p => (p.1, f p.2)) = (lookup k d.entries).map f
  induction d.entries with
  | nil => rfl
  | cons p l ih =>
    rw [List.map_cons, lookup, lookup]
    split
    · rfl
    · exact ih

/-- `d.update(e)`. Kind: D -/
def update (d e : Dict κ ν) : Dict κ ν := e.entries.foldl (fun d p => d.set p.1 p.2) d

theorem get?_foldl_set (k : κ) : (l : List (κ × ν)) → (l.map Prod.fst).Nodup → (d : Dict κ ν) →
    (l.foldl (fun d p => d.set p.1 p.2) d).get? k = (lookup k l).or (d.get? k)
  | [], _, _ => rfl
  | (k', v) :: l, hn, d => by
    obtain ⟨hnot, hn⟩ := List.nodup_cons.mp hn
    rw [List.foldl_cons, get?_foldl_set k l hn, get?_set, lookup]
    by_cases hk : k' = k
    · subst hk
      have hnone : lookup k' l = none := by
        rw [← Option.not_isSome_iff_eq_none, lookup_isSome]
        exact hnot
      rw [if_pos rfl, if_pos rfl, hnone, Option.none_or, Option.some_or]
    · rw [if_neg hk, if_neg (Ne.symm hk)]

theorem get?_update (d e : Dict κ ν) (k : κ) : (d.update e).get? k = (e.get? k).or (d.get? k) :=
  get?_foldl_set k e.entries e.nodup d

theorem nodup_erased (d : Dict κ ν) (k : κ) : ((d.entries.filter fun e => e.1 ≠ k).map Prod.fst).Nodup :=
  d.nodup.sublist (List.filter_sublist.map Prod.fst)

/-- `del d[k]`. Kind: D -/
def erase (d : Dict κ ν) (k : κ) : Dict κ ν := ⟨d.entries.filter fun e => e.1 ≠ k, nodup_erased d k⟩

theorem mem_erase {d : Dict κ ν} {k k' : κ} {v : ν} :
    (d.erase k).get? k' = some v ↔ d.get? k' = some v ∧ k' ≠ k := by
  rw [← mem_entries, ← mem_entries]
  show (k', v) ∈ d.entries.filter (fun e => e.1 ≠ k) ↔ _
  rw [List.mem_filter]
  exact and_congr_right fun _ => decide_eq_true_iff

theorem mem_foldl_erase {k' : κ} {v : ν} (ks : List κ) {d : Dict κ ν} :
    (ks.foldl erase d).get? k' = some v ↔ d.get? k' = some v ∧ k' ∉ ks := by
  induction ks generalizing d with
  | nil => exact ⟨fun h => ⟨h, List.not_mem_nil⟩, fun h => h.1⟩
  | cons k ks ih => rw [List.foldl_cons, ih, mem_erase, and_assoc, List.mem_cons, not_or]

end lookup

/-! ## Grouping -/

section grouping

variable [DecidableEq κ] {α : Type*}

/-- `d.setdefault(k, []).append(v)`. Kind: D -/
def pushAt (d : Dict κ (List α)) (k : κ) (v : α) : Dict κ (List α) :=
  d.set k (d.getD k [] ++ [v])

/-- The groups of a list under a key function, keys in order of first appearance. Kind: D -/
def groupBy (key : α → κ) (l : List α) : Dict κ (List α) :=
  l.foldl (fun d a => d.pushAt (key a) a) empty

/-- What grouping adds to a dictionary of groups: to each group, the elements of its key in their
own order. Kind: L -/
theorem getD_foldl_pushAt (key : α → κ) (k : κ) :
    (l : List α) → (d : Dict κ (List α)) →
      (l.foldl (fun d a => d.pushAt (key a) a) d).getD k [] =
        d.getD k [] ++ l.filter (fun a => key a = k)
  | [], d => by simp
  | a :: l, d => by
    rw [List.foldl_cons, getD_foldl_pushAt key k l]
    by_cases h : key a = k
    · subst h; simp [pushAt, getD_set_self]
    · simp [pushAt, getD_set_ne d (Ne.symm h), h]

theorem mem_keys_foldl_pushAt (key : α → κ) (k : κ) :
    (l : List α) → (d : Dict κ (List α)) →
      (k ∈ (l.foldl (fun d a => d.pushAt (key a) a) d).keys ↔
        k ∈ d.keys ∨ ∃ a ∈ l, key a = k)
  | [], d => by simp
  | a :: l, d => by
    rw [List.foldl_cons, mem_keys_foldl_pushAt key k l, pushAt, mem_keys_set]
    simp only [List.mem_cons, exists_eq_or_imp]
    constructor
    · grind
    · grind

/-- The group of a key is the sublist of the elements with that key. Kind: L -/
theorem getD_groupBy (key : α → κ) (l : List α) (k : κ) :
    (groupBy key l).getD k [] = l.filter (fun a => key a = k) := by
  simpa [groupBy, getD] using getD_foldl_pushAt key k l empty

/-- The keys of the groups are the keys of the elements. Kind: L -/
theorem mem_keys_groupBy (key : α → κ) (l : List α) (k : κ) :
    k ∈ (groupBy key l).keys ↔ ∃ a ∈ l, key a = k := by
  simpa [groupBy] using mem_keys_foldl_pushAt key k l empty

/-- An entry of the groups is a key of some element together with all elements of that key.
Kind: L -/
theorem mem_entries_groupBy {key : α → κ} {l : List α} {k : κ} {g : List α} :
    (k, g) ∈ (groupBy key l).entries ↔
      (∃ a ∈ l, key a = k) ∧ g = l.filter (fun a => key a = k) := by
  rw [mem_entries, ← mem_keys_groupBy, ← get?_isSome]
  have h := getD_groupBy key l k
  unfold getD at h
  cases hg : (groupBy key l).get? k with
  | none => simp
  | some g' =>
    rw [hg] at h
    simp only [Option.getD_some] at h
    simp [h, eq_comm]

end grouping

end Dict

end KarsaSec.Found
