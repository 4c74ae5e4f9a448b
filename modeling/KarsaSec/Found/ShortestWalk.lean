import Mathlib.Data.List.Basic
import Mathlib.Data.List.Chain
import Mathlib.Data.List.Nodup
import Mathlib.Data.List.Perm.Subperm

/-!
# Shortest walks

Breadth-first search for a target, with the walk to each node in the queue.

* `walks` lists the walks from a start by their number of edges, and the walks with as many edges in the order in which
  the edges stand. `firstWalk` is the first of them that ends in the target.
* `walkSearch` pops a queue; a node is queued once, under a key. It stops at the first edge into the target.
* `shortestWalk_eq`: the search finds the first walk. What it leaves out comes later than what it keeps.
-/

namespace KarsaSec.Found

variable {α σ : Type*} (succ : α → List α) (key : α → σ)

/-! ## Walks -/

/-- A node with a walk to it, one edge further. Kind: D -/
def extend (e : α × List α) : List (α × List α) := (succ e.1).map fun b => (b, e.2 ++ [b])

/-- The walks from a start with a number of edges, each with its end. Kind: D -/
def walks (start : α) : ℕ → List (α × List α)
  | 0 => [(start, [start])]
  | k + 1 => (walks start k).flatMap (extend succ)

/-- Whether a walk ends in the target. Kind: D -/
def endsIn [DecidableEq α] (target : α) (e : α × List α) : Bool := e.1 = target

/-- The first walk to the target with a number of edges. Kind: D -/
def walkOf [DecidableEq α] (start target : α) (k : ℕ) : Option (List α) :=
  ((walks succ start k).find? (endsIn target)).map Prod.snd

/-- The first of the shortest walks to the target, in the order of the edges. Kind: D -/
def firstWalk [DecidableEq α] (start target : α) (depth : ℕ) : Option (List α) :=
  (List.range (depth + 1)).findSome? (walkOf succ start target)

/-- A walk along edges. Kind: D -/
structure IsWalk (start target : α) (path : List α) : Prop where
  head : path.head? = some start
  last : path.getLast? = some target
  chain : path.IsChain fun a b => b ∈ succ a

variable {succ} in
theorem IsWalk.ne_nil {start target : α} {path : List α} (h : IsWalk succ start target path) : path ≠ [] := by
  rintro rfl
  cases h.head

/-! ## The search -/

variable [DecidableEq σ]

/-- Follow the edges of a node: stop at the target, else queue what has not been visited. Kind: D -/
def follow [DecidableEq α] (target : α) (path : List α) : List α → List (α × List α) → List σ →
    List α ⊕ List (α × List α) × List σ
  | [], queue, visited => .inr (queue, visited)
  | b :: bs, queue, visited =>
    if b = target then .inl (path ++ [b])
    else if key b ∈ visited then follow target path bs queue visited
    else follow target path bs (queue ++ [(b, path ++ [b])]) (visited ++ [key b])

/-- The search with a bound on the number of pops. Kind: D -/
def walkSearch [DecidableEq α] (target : α) (depth : ℕ) : ℕ → List (α × List α) → List σ → Option (List α)
  | 0, _, _ => none
  | _ + 1, [], _ => none
  | n + 1, (a, path) :: queue, visited =>
    if depth ≤ path.length - 1 then walkSearch target depth n queue visited
    else
      match follow key target path (succ a) queue visited with
      | .inl found => some found
      | .inr (queue', visited') => walkSearch target depth n queue' visited'

/-- The search from a start. Kind: D -/
def shortestWalk [DecidableEq α] (bound : ℕ) (start target : α) (depth : ℕ) : Option (List α) :=
  if start = target then some [start] else walkSearch succ key target depth bound [(start, [start])] [key start]

/-! ## What has not been visited -/

/-- The first entry for each key that has not been visited. Kind: D -/
def pick : List σ → List (α × List α) → List (α × List α)
  | _, [] => []
  | visited, e :: es => if key e.1 ∈ visited then pick visited es else e :: pick (visited ++ [key e.1]) es

/-- The keys of entries. Kind: D -/
def keysOf (es : List (α × List α)) : List σ := es.map fun e => key e.1

variable {succ key} {visited : List σ} {es : List (α × List α)} {e : α × List α} {target : α}

theorem pick_nil : pick key visited [] = [] := rfl

theorem pick_cons : pick key visited (e :: es) =
    if key e.1 ∈ visited then pick key visited es else e :: pick key (visited ++ [key e.1]) es := rfl

theorem pick_append (es es' : List (α × List α)) (visited : List σ) :
    pick key visited (es ++ es') = pick key visited es ++ pick key (visited ++ keysOf key (pick key visited es)) es' := by
  induction es generalizing visited with
  | nil => rw [pick_nil, keysOf, List.map_nil, List.append_nil, List.nil_append, List.nil_append]
  | cons e es ih =>
    rw [List.cons_append, pick_cons, pick_cons]
    by_cases hin : key e.1 ∈ visited
    · rw [if_pos hin, if_pos hin, ih]
    · simp_all [keysOf]

theorem mem_of_mem_pick (h : e ∈ pick key visited es) : e ∈ es := by
  induction es generalizing visited with
  | nil => exact h
  | cons e' es ih =>
    rw [pick_cons] at h
    split_ifs at h with hin
    · exact List.mem_cons_of_mem _ (ih h)
    · grind

theorem nodup_keysOf_pick (es : List (α × List α)) (h : visited.Nodup) :
    (visited ++ keysOf key (pick key visited es)).Nodup := by
  induction es generalizing visited with
  | nil =>
    rw [pick_nil, keysOf, List.map_nil, List.append_nil]
    exact h
  | cons e es ih =>
    rw [pick_cons]
    split_ifs with hin
    · exact ih h
    · have hsnoc : (visited ++ [key e.1]).Nodup :=
        List.nodup_append.mpr ⟨h, List.nodup_singleton _, fun a ha b hb heq =>
          hin (List.mem_singleton.mp hb ▸ heq ▸ ha)⟩
      have hrest := ih hsnoc
      rw [List.append_assoc] at hrest
      exact hrest

theorem key_mem_pick (h : e ∈ es) : key e.1 ∈ visited ++ keysOf key (pick key visited es) := by
  induction es generalizing visited with
  | nil => exact absurd h List.not_mem_nil
  | cons e' es ih =>
    rw [pick_cons]
    split_ifs with hin
    · grind
    · grind [keysOf]

theorem pick_eq_nil (h : ∀ e ∈ es, key e.1 ∈ visited) : pick key visited es = [] := by
  induction es with
  | nil => rfl
  | cons e es ih =>
    rw [pick_cons, if_pos (h e List.mem_cons_self)]
    exact ih fun e' he' => h e' (List.mem_cons_of_mem _ he')

/-- Entries of nodes whose successors have been visited add nothing. Kind: L -/
theorem pick_flatMap (hkey : Function.Injective key) (es : List (α × List α)) {older visited : List σ}
    (hclosed : ∀ a, key a ∈ older → ∀ b ∈ succ a, key b ∈ visited) :
    pick key visited ((pick key older es).flatMap (extend succ)) = pick key visited (es.flatMap (extend succ)) := by
  induction es generalizing older visited with
  | nil => rfl
  | cons e es ih =>
    rw [List.flatMap_cons, pick_append, pick_cons]
    by_cases hin : key e.1 ∈ older
    · have hnone : pick key visited (extend succ e) = [] := by
        refine pick_eq_nil fun e' he' => ?_
        obtain ⟨b, hb, rfl⟩ := List.mem_map.mp he'
        exact hclosed e.1 hin b hb
      rw [if_pos hin, hnone, keysOf, List.map_nil, List.append_nil, List.nil_append]
      exact ih hclosed
    · rw [if_neg hin, List.flatMap_cons, pick_append]
      congr 1
      refine ih fun a ha b hb => ?_
      rcases List.mem_append.mp ha with ha | ha
      · exact List.mem_append_left _ (hclosed a ha b hb)
      · have heq : a = e.1 := hkey (List.mem_singleton.mp ha)
        have hmem : (b, e.2 ++ [b]) ∈ extend succ e := List.mem_map.mpr ⟨b, heq ▸ hb, rfl⟩
        exact key_mem_pick hmem

/-! ## One level of the search -/

variable [DecidableEq α]

theorem endsIn_iff : endsIn target e = true ↔ e.1 = target := decide_eq_true_iff

/-- What is left out of a list is in it already, the target not among it. Kind: L -/
theorem find?_pick (hkey : Function.Injective key) (h : key target ∉ visited) :
    (pick key visited es).find? (endsIn target) = es.find? (endsIn target) := by
  induction es generalizing visited with
  | nil => rfl
  | cons e es ih =>
    rw [pick_cons]
    by_cases hend : e.1 = target
    · simp_all [endsIn_iff]
    · have hfalse : ¬endsIn target e = true := fun h' => hend (endsIn_iff.mp h')
      rw [List.find?_cons_of_neg hfalse]
      by_cases hin : key e.1 ∈ visited
      · rw [if_pos hin]
        exact ih h
      · grind

theorem follow_found {path bs : List α} {queue : List (α × List α)} :
    ∀ {found}, (bs.map fun b => (b, path ++ [b])).find? (endsIn target) = some found →
      follow key target path bs queue visited = .inl found.2 := by
  induction bs generalizing queue visited with
  | nil => exact fun h => nomatch h
  | cons b bs ih =>
    intro found h
    rw [List.map_cons] at h
    unfold follow
    by_cases hend : b = target
    · rw [List.find?_cons_of_pos (endsIn_iff.mpr hend)] at h
      rw [if_pos hend, ← Option.some.inj h]
    · rw [List.find?_cons_of_neg fun h' => hend (endsIn_iff.mp h')] at h
      rw [if_neg hend]
      split_ifs with hin
      · exact ih h
      · exact ih h

theorem follow_none {path bs : List α} {queue : List (α × List α)}
    (h : (bs.map fun b => (b, path ++ [b])).find? (endsIn target) = none) :
    follow key target path bs queue visited =
      .inr (queue ++ pick key visited (bs.map fun b => (b, path ++ [b])),
        visited ++ keysOf key (pick key visited (bs.map fun b => (b, path ++ [b])))) := by
  induction bs generalizing queue visited with
  | nil => rw [follow, List.map_nil, pick_nil, keysOf, List.map_nil, List.append_nil, List.append_nil]
  | cons b bs ih =>
    rw [List.map_cons] at h ⊢
    have hend : ¬endsIn target (b, path ++ [b]) = true := fun hend => by
      rw [List.find?_cons_of_pos hend] at h
      cases h
    rw [List.find?_cons_of_neg hend] at h
    unfold follow
    rw [if_neg fun heq => hend (endsIn_iff.mpr heq), pick_cons]
    split_ifs with hin
    · exact ih h
    · rw [ih h, List.append_assoc, List.append_assoc]
      rfl

/-- The search handles the entries of one level, and queues those of the next. Kind: L -/
theorem walkSearch_level (succ : α → List α) (key : α → σ) (target : α) {depth : ℕ} (es queue : List (α × List α)) (visited : List σ) (n : ℕ)
    (h : ∀ e ∈ es, e.2.length - 1 < depth) :
    walkSearch succ key target depth (es.length + n) (es ++ queue) visited =
      (((es.flatMap (extend succ)).find? (endsIn target)).map Prod.snd).or
        (walkSearch succ key target depth n (queue ++ pick key visited (es.flatMap (extend succ)))
          (visited ++ keysOf key (pick key visited (es.flatMap (extend succ))))) := by
  induction es generalizing queue visited with
  | nil =>
    rw [List.length_nil, Nat.zero_add, List.nil_append, List.flatMap_nil, List.find?_nil, pick_nil, keysOf, List.map_nil,
      List.append_nil, List.append_nil]
    rfl
  | cons e es ih =>
    have hlevel : ¬depth ≤ e.2.length - 1 := Nat.not_le.mpr (h e List.mem_cons_self)
    have hrest : ∀ e' ∈ es, e'.2.length - 1 < depth := fun e' he' => h e' (List.mem_cons_of_mem _ he')
    rw [List.length_cons, Nat.add_right_comm, List.cons_append, walkSearch, if_neg hlevel, List.flatMap_cons,
      List.find?_append]
    rcases hfound : (extend succ e).find? (endsIn target) with _ | found
    · rw [follow_none hfound, Option.none_or]
      dsimp only
      rw [List.append_assoc, ih _ _ hrest, pick_append, List.append_assoc, List.append_assoc]
      congr 3
      unfold keysOf
      rw [List.map_append]
      rfl
    · rw [follow_found hfound]
      rfl

/-- Nothing is expanded at the greatest depth. Kind: L -/
theorem walkSearch_eq_none {depth : ℕ} (n : ℕ) (h : ∀ e ∈ es, depth ≤ e.2.length - 1) :
    walkSearch succ key target depth n es visited = none := by
  induction n generalizing es with
  | zero => rfl
  | succ n ih =>
    rcases es with _ | ⟨e, es⟩
    · rfl
    · rw [walkSearch, if_pos (h e List.mem_cons_self)]
      exact ih fun e' he' => h e' (List.mem_cons_of_mem _ he')

/-! ## All levels -/

section levels

variable (succ) (key) (start : α)

omit [DecidableEq α]

/-- The entries that a level adds, and what has been visited then. Kind: D -/
def level : ℕ → List (α × List α) × List σ
  | 0 => ([(start, [start])], [key start])
  | k + 1 =>
    let new := pick key (level k).2 ((level k).1.flatMap (extend succ))
    (new, (level k).2 ++ keysOf key new)

variable {succ} {key} {start}

theorem length_of_mem_walks {k : ℕ} : ∀ {e}, e ∈ walks succ start k → e.2.length = k + 1 := by
  induction k with
  | zero =>
    intro e h
    rw [List.mem_singleton.mp h]
    rfl
  | succ k ih =>
    intro e h
    obtain ⟨e', he', hmem⟩ := List.mem_flatMap.mp h
    obtain ⟨b, _, rfl⟩ := List.mem_map.mp hmem
    rw [List.length_append, List.length_singleton, ih he']

theorem mem_walks_of_mem_level {k : ℕ} : ∀ {e}, e ∈ (level succ key start k).1 → e ∈ walks succ start k := by
  induction k with
  | zero => exact fun h => h
  | succ k ih =>
    intro e h
    obtain ⟨e', he', hmem⟩ := List.mem_flatMap.mp (mem_of_mem_pick h)
    exact List.mem_flatMap.mpr ⟨e', ih he', hmem⟩

theorem nodup_level (k : ℕ) : (level succ key start k).2.Nodup := by
  induction k with
  | zero => exact List.nodup_singleton _
  | succ k ih => exact nodup_keysOf_pick _ ih

theorem length_level_succ (k : ℕ) : (level succ key start (k + 1)).2.length =
    (level succ key start k).2.length + (level succ key start (k + 1)).1.length :=
  List.length_append.trans (congrArg _ (List.length_map _))

/-- What has been visited up to a level has its successors visited one level on. Kind: L -/
theorem level_closed (hkey : Function.Injective key) (k : ℕ) : ∀ a, key a ∈ (level succ key start k).2 →
    ∀ b ∈ succ a, key b ∈ (level succ key start (k + 1)).2 := by
  have hnew : ∀ k, ∀ e ∈ (level succ key start k).1, ∀ b ∈ succ e.1, key b ∈ (level succ key start (k + 1)).2 := by
    intro k e he b hb
    have hmem : (b, e.2 ++ [b]) ∈ (level succ key start k).1.flatMap (extend succ) :=
      List.mem_flatMap.mpr ⟨e, he, List.mem_map.mpr ⟨b, hb, rfl⟩⟩
    exact key_mem_pick hmem
  induction k with
  | zero =>
    intro a ha b hb
    obtain rfl : a = start := hkey (List.mem_singleton.mp ha)
    exact hnew 0 (a, [a]) List.mem_cons_self b hb
  | succ k ih =>
    intro a ha b hb
    rcases List.mem_append.mp ha with hold | hpicked
    · exact List.mem_append_left _ (ih a hold b hb)
    · obtain ⟨e, he, heq⟩ := List.mem_map.mp hpicked
      exact hnew (k + 1) e he b (hkey heq ▸ hb)

/-- The search keeps, of all walks, the first to each node. Kind: P -/
theorem pick_level (hkey : Function.Injective key) (k : ℕ) :
    pick key (level succ key start k).2 ((level succ key start k).1.flatMap (extend succ)) =
      pick key (level succ key start k).2 (walks succ start (k + 1)) := by
  induction k with
  | zero => rfl
  | succ k ih =>
    have hpicked : (level succ key start (k + 1)).1 = pick key (level succ key start k).2 (walks succ start (k + 1)) := ih
    rw [hpicked]
    exact pick_flatMap hkey _ (level_closed hkey k)

/-- The keys of nodes that the search does not leave bound what it visits. Kind: L -/
theorem length_level_le_of_closed {nodes : List α} (hstart : start ∈ nodes)
    (hsucc : ∀ a ∈ nodes, ∀ b ∈ succ a, b ∈ nodes) (k : ℕ) : (level succ key start k).2.length ≤ nodes.length := by
  have hwalks : ∀ k, ∀ e ∈ walks succ start k, e.1 ∈ nodes := by
    intro k
    induction k with
    | zero => exact fun e he => List.mem_singleton.mp he ▸ hstart
    | succ k ih =>
      intro e he
      obtain ⟨e', he', hmem⟩ := List.mem_flatMap.mp he
      obtain ⟨b, hb, rfl⟩ := List.mem_map.mp hmem
      exact hsucc _ (ih e' he') b hb
  have hkeys : ∀ i ∈ (level succ key start k).2, i ∈ nodes.map key := by
    induction k with
    | zero => exact fun i hi => List.mem_singleton.mp hi ▸ List.mem_map_of_mem hstart
    | succ k ih =>
      intro i hi
      rcases List.mem_append.mp hi with hold | hpicked
      · exact ih i hold
      · obtain ⟨e, he, rfl⟩ := List.mem_map.mp hpicked
        exact List.mem_map_of_mem (hwalks (k + 1) e (mem_walks_of_mem_level he))
  rw [← List.length_map key]
  exact ((nodup_level k).subperm hkeys).length_le

end levels

variable {start : α} {depth : ℕ}

theorem find?_level (hkey : Function.Injective key) {k : ℕ} (h : key target ∉ (level succ key start k).2) :
    (((level succ key start k).1.flatMap (extend succ)).find? (endsIn target)).map Prod.snd =
      walkOf succ start target (k + 1) := by
  unfold walkOf
  rw [← find?_pick hkey h, pick_level hkey k, find?_pick hkey h]

/-- A target that no walk of a level reaches is not visited there. Kind: L -/
theorem not_mem_level_succ (hkey : Function.Injective key) {k : ℕ} (h : key target ∉ (level succ key start k).2)
    (hnone : walkOf succ start target (k + 1) = none) : key target ∉ (level succ key start (k + 1)).2 := by
  intro hmem
  rcases List.mem_append.mp hmem with hold | hpicked
  · exact h hold
  · obtain ⟨e, he, heq⟩ := List.mem_map.mp hpicked
    have hin : e ∈ walks succ start (k + 1) := mem_walks_of_mem_level he
    have hnot := List.find?_eq_none.mp (Option.map_eq_none_iff.mp hnone) e hin
    exact hnot (endsIn_iff.mpr (hkey heq))

/-- From any level on the search finds the first walk of the levels that follow. Kind: L -/
theorem walkSearch_from_level (hkey : Function.Injective key) {bound : ℕ}
    (hbound : ∀ k, (level succ key start k).2.length ≤ bound) (m : ℕ) : ∀ {k n : ℕ}, k + m = depth →
    bound + (level succ key start k).1.length ≤ n + (level succ key start k).2.length →
    key target ∉ (level succ key start k).2 →
    walkSearch succ key target depth n (level succ key start k).1 (level succ key start k).2 =
      (List.range' (k + 1) m).findSome? (walkOf succ start target) := by
  induction m with
  | zero =>
    intro k n hk _ _
    refine walkSearch_eq_none n fun e he => ?_
    rw [length_of_mem_walks (mem_walks_of_mem_level he)]
    omega
  | succ m ih =>
    intro k n hk hn htarget
    have hlevel : ∀ e ∈ (level succ key start k).1, e.2.length - 1 < depth := by
      intro e he
      rw [length_of_mem_walks (mem_walks_of_mem_level he)]
      omega
    have hle := hbound k
    obtain ⟨n', rfl⟩ : ∃ n', n = (level succ key start k).1.length + n' := Nat.exists_eq_add_of_le (by omega)
    have hstep := walkSearch_level succ key target (level succ key start k).1 [] (level succ key start k).2 n' hlevel
    rw [List.append_nil, find?_level hkey htarget, List.nil_append] at hstep
    rw [hstep, List.range'_succ, List.findSome?_cons]
    rcases hwalk : walkOf succ start target (k + 1) with _ | path
    · have hsum := @length_level_succ α σ succ key _ start k
      rw [Option.none_or]
      exact ih (by omega) (by omega) (not_mem_level_succ hkey htarget hwalk)
    · rfl

/-- **Breadth-first search finds the first of the shortest walks.** Kind: P -/
theorem shortestWalk_eq (hkey : Function.Injective key) {nodes : List α} (hstart : start ∈ nodes)
    (hsucc : ∀ a ∈ nodes, ∀ b ∈ succ a, b ∈ nodes) :
    shortestWalk succ key nodes.length start target depth = firstWalk succ start target depth := by
  unfold shortestWalk firstWalk
  rw [List.range_eq_range', List.range'_succ, List.findSome?_cons]
  by_cases heq : start = target
  · simp_all [walkOf, endsIn_iff, walks]
  · have hzero : walkOf succ start target 0 = none := by simp_all [walkOf, endsIn_iff, walks]
    have htarget : key target ∉ (level succ key start 0).2 := fun h => heq (hkey (List.mem_singleton.mp h)).symm
    rw [if_neg heq, hzero]
    exact walkSearch_from_level hkey (length_level_le_of_closed hstart hsucc) depth (Nat.zero_add _)
      (Nat.le_refl (nodes.length + 1)) htarget

/-! ## The first walk among all walks -/

omit [DecidableEq σ] [DecidableEq α] in
theorem isWalk_append_iff {path : List α} {b : α} : IsWalk succ start b (path ++ [b]) ∧ path ≠ [] ↔
    ∃ a, IsWalk succ start a path ∧ b ∈ succ a := by
  constructor
  · rintro ⟨hwalk, hne⟩
    have ha := List.getLast?_eq_some_getLast hne
    obtain ⟨hchain, -, hlink⟩ := List.isChain_append.mp hwalk.chain
    refine ⟨path.getLast hne, ⟨?_, ha, hchain⟩, hlink _ ha b rfl⟩
    rw [← List.head?_append_of_ne_nil path hne]
    exact hwalk.head
  · rintro ⟨a, hwalk, hb⟩
    have hne : path ≠ [] := hwalk.ne_nil
    refine ⟨⟨?_, List.getLast?_concat, ?_⟩, hne⟩
    · rw [List.head?_append_of_ne_nil path hne]
      exact hwalk.head
    · refine List.isChain_append.mpr ⟨hwalk.chain, List.isChain_singleton b, fun c hc d hd => ?_⟩
      rw [Option.mem_def, hwalk.last] at hc
      obtain rfl := Option.some.inj hc
      obtain rfl := Option.some.inj hd
      exact hb

omit [DecidableEq σ] [DecidableEq α] in
theorem IsWalk.snoc {path : List α} {a b : α} (h : IsWalk succ start a path) (hb : b ∈ succ a) :
    IsWalk succ start b (path ++ [b]) := (isWalk_append_iff.mpr ⟨a, h, hb⟩).1

omit [DecidableEq σ] [DecidableEq α] in
/-- The enumeration has exactly the walks. Kind: L -/
theorem mem_walks_iff {k : ℕ} : ∀ {target : α} {path : List α}, (target, path) ∈ walks succ start k ↔
    IsWalk succ start target path ∧ path.length = k + 1 := by
  induction k with
  | zero =>
    intro target path
    constructor
    · intro h
      obtain ⟨rfl, rfl⟩ := Prod.mk.inj (List.mem_singleton.mp h)
      exact ⟨⟨rfl, rfl, List.isChain_singleton _⟩, rfl⟩
    · rintro ⟨hwalk, hlength⟩
      obtain ⟨a, rfl⟩ := List.length_eq_one_iff.mp hlength
      obtain rfl := Option.some.inj hwalk.head
      obtain rfl := Option.some.inj hwalk.last
      exact List.mem_singleton.mpr rfl
  | succ k ih =>
    intro target path
    constructor
    · intro h
      obtain ⟨⟨a, path'⟩, he, hmem⟩ := List.mem_flatMap.mp h
      obtain ⟨b, hb, heq⟩ := List.mem_map.mp hmem
      obtain ⟨rfl, rfl⟩ := Prod.mk.inj heq
      obtain ⟨hwalk, hlength⟩ := ih.mp he
      refine ⟨hwalk.snoc hb, ?_⟩
      rw [List.length_append, hlength, List.length_singleton]
    · rintro ⟨hwalk, hlength⟩
      have hne : path ≠ [] := List.ne_nil_of_length_eq_add_one hlength
      have hlast : path.getLast hne = target := Option.some.inj ((List.getLast?_eq_some_getLast hne).symm.trans hwalk.last)
      obtain ⟨path', rfl⟩ : ∃ path', path = path' ++ [target] :=
        ⟨path.dropLast, by rw [← hlast, List.dropLast_append_getLast hne]⟩
      rw [List.length_append, List.length_singleton, Nat.add_right_cancel_iff] at hlength
      obtain ⟨a, hwalk', hb⟩ := isWalk_append_iff.mp ⟨hwalk, List.ne_nil_of_length_eq_add_one hlength⟩
      exact List.mem_flatMap.mpr ⟨(a, path'), ih.mpr ⟨hwalk', hlength⟩, List.mem_map.mpr ⟨target, hb, rfl⟩⟩

omit [DecidableEq σ] in
theorem walkOf_eq_none_iff {k : ℕ} : walkOf succ start target k = none ↔
    ∀ path, IsWalk succ start target path → path.length ≠ k + 1 := by
  unfold walkOf
  rw [Option.map_eq_none_iff, List.find?_eq_none]
  constructor
  · intro h path hwalk hlength
    exact h (target, path) (mem_walks_iff.mpr ⟨hwalk, hlength⟩) (endsIn_iff.mpr rfl)
  · grind [endsIn_iff, mem_walks_iff]

omit [DecidableEq σ] in
/-- There is a first walk where there is a walk. Kind: L -/
theorem firstWalk_eq_none_iff : firstWalk succ start target depth = none ↔
    ∀ path, IsWalk succ start target path → depth + 1 < path.length := by
  unfold firstWalk
  rw [List.findSome?_eq_none_iff]
  constructor
  · intro h path hwalk
    obtain ⟨k, hk⟩ : ∃ k, path.length = k + 1 :=
      Nat.exists_eq_succ_of_ne_zero (mt List.length_eq_zero_iff.mp hwalk.ne_nil)
    by_contra hle
    exact walkOf_eq_none_iff.mp (h k (List.mem_range.mpr (by omega))) path hwalk hk
  · grind [walkOf_eq_none_iff]

omit [DecidableEq σ] in
theorem isWalk_of_firstWalk {path : List α} (h : firstWalk succ start target depth = some path) :
    IsWalk succ start target path ∧ path.length ≤ depth + 1 := by
  obtain ⟨k, hk, hwalk⟩ := List.exists_of_findSome?_eq_some h
  obtain ⟨⟨b, path'⟩, hfound, rfl⟩ := Option.map_eq_some_iff.mp hwalk
  obtain rfl : b = target := endsIn_iff.mp (List.find?_some hfound)
  obtain ⟨hwalk', hlength⟩ := mem_walks_iff.mp (List.mem_of_find?_eq_some hfound)
  refine ⟨hwalk', ?_⟩
  rw [hlength]
  exact Nat.succ_le_of_lt (List.mem_range.mp hk)

omit [DecidableEq σ] in
/-- No walk is shorter than the first. Kind: L -/
theorem firstWalk_least {path : List α} (h : firstWalk succ start target depth = some path) :
    ∀ q, IsWalk succ start target q → path.length ≤ q.length := by
  obtain ⟨before, k, after, hrange, hfound, hbefore⟩ := List.findSome?_eq_some_iff.mp h
  rw [List.range_eq_range', List.range'_eq_append_iff] at hrange
  obtain ⟨k', -, rfl, hafter⟩ := hrange
  obtain ⟨hk, -, -⟩ := List.range'_eq_cons_iff.mp hafter.symm
  obtain ⟨e, hmem, rfl⟩ := Option.map_eq_some_iff.mp hfound
  have hlength := length_of_mem_walks (List.mem_of_find?_eq_some hmem)
  intro q hq
  obtain ⟨i, hi⟩ : ∃ i, q.length = i + 1 := Nat.exists_eq_succ_of_ne_zero (mt List.length_eq_zero_iff.mp hq.ne_nil)
  by_contra hlt
  have hnone := hbefore i (List.mem_range'_1.mpr (by omega))
  exact walkOf_eq_none_iff.mp hnone q hq hi

end KarsaSec.Found
