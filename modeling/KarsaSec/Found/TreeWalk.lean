import KarsaSec.Found.Tree
import Mathlib.Algebra.GroupWithZero.Nat
import Mathlib.Algebra.Order.BigOperators.Group.List
import Mathlib.Algebra.Order.Group.Nat
import Mathlib.Data.List.Nodup
import Mathlib.Data.List.Perm.Basic
import Mathlib.Logic.Relation

/-!
# Walks over trees in a table

The nodes of a tree in the order in which they are met, and a walk with a list of what is to come that looks its nodes up in a
table.

* `toList` has a node before its children, `postList` after them.
* `explore` takes the first key off the list and puts the keys that it leads to at the front or at the end.
* `explore_isSome`: the keys in the table bound the turns.
* `flood` also queues what was visited; `mem_of_flood`: it collects what can be reached.
* `perm_of_explore`: a table in which every node of a tree stands under a key of its own is walked node by node, each once.
* `explore_spec`: any table, with cycles and shared keys too: each key that can be reached and is in the table is met once.
* `explore_front`, `explore_back`: with new keys in front, a node of a tree is met before its children, and these from left to
  right; with new keys at the end, the nodes of a tree are met level by level.
-/

namespace KarsaSec.Found

namespace RoseTree

variable {α β : Type*}

mutual
/-- The data of all nodes, that of a node before those of its children. Kind: D -/
def toList : RoseTree α → List α
  | node a children => a :: toListAll children

/-- The data of all nodes of a list of trees. Kind: D -/
def toListAll : List (RoseTree α) → List α
  | [] => []
  | t :: ts => t.toList ++ toListAll ts
end

mutual
/-- The data of all nodes, that of a node after those of its children. Kind: D -/
def postList : RoseTree α → List α
  | node a children => postListAll children ++ [a]

/-- The data of all nodes of a list of trees. Kind: D -/
def postListAll : List (RoseTree α) → List α
  | [] => []
  | t :: ts => t.postList ++ postListAll ts
end

mutual

theorem postList_perm : ∀ t : RoseTree α, t.postList.Perm t.toList
  | node a children => by
    rw [postList, toList]
    exact (postListAll_perm children).append_right [a] |>.trans (List.perm_append_singleton a _)

theorem postListAll_perm : ∀ ts : List (RoseTree α), (postListAll ts).Perm (toListAll ts)
  | [] => .refl _
  | t :: ts => by
    rw [postListAll, toListAll]
    exact (postList_perm t).append (postListAll_perm ts)

end

theorem toListAll_append (ts us : List (RoseTree α)) : toListAll (ts ++ us) = toListAll ts ++ toListAll us := by
  induction ts with
  | nil => rfl
  | cons t ts ih => rw [List.cons_append, toListAll, toListAll, ih, List.append_assoc]

theorem toList_eq (t : RoseTree α) : t.toList = t.data :: toListAll t.children := by
  cases t with
  | node a children => rw [toList]; rfl

theorem data_mem_toListAll {ts : List (RoseTree α)} {t : RoseTree α} (h : t ∈ ts) : t.data ∈ toListAll ts := by
  induction ts with
  | nil => cases h
  | cons u ts ih =>
    rw [toListAll, toList_eq]
    rcases List.mem_cons.mp h with rfl | h
    · exact List.mem_append_left _ List.mem_cons_self
    · exact List.mem_append_right _ (ih h)

end RoseTree

/-! ## New keys -/

section enqueue

variable {κ α : Type*} (front : Bool)

/-- New keys go before or behind those that wait. Kind: D -/
def enqueue (keys rest : List κ) : List κ := if front then keys ++ rest else rest ++ keys

variable {front}

theorem length_enqueue (ks rest : List κ) : (enqueue front ks rest).length = ks.length + rest.length := by grind [enqueue]

theorem enqueue_map (f : α → κ) (ts us : List α) :
    enqueue front (ts.map f) (us.map f) = (if front then ts ++ us else us ++ ts).map f := by
  unfold enqueue
  split_ifs
  · exact List.map_append.symm
  · exact List.map_append.symm

end enqueue

/-! ## Trees in the table -/

section stored

variable {κ ν : Type*} {lookup : κ → Option ν} {next : ν → List κ}

mutual

/-- Every node of a tree stands in the table and leads to its children. Kind: D -/
def Stored (lookup : κ → Option ν) (next : ν → List κ) (key : ν → κ) : RoseTree ν → Prop
  | .node v children => lookup (key v) = some v ∧ next v = children.map (fun t => key t.data) ∧
      StoredAll lookup next key children

/-- All trees of a list stand in the table. Kind: D -/
def StoredAll (lookup : κ → Option ν) (next : ν → List κ) (key : ν → κ) : List (RoseTree ν) → Prop
  | [] => True
  | t :: ts => Stored lookup next key t ∧ StoredAll lookup next key ts

end

theorem storedAll_iff {key : ν → κ} {ts : List (RoseTree ν)} :
    StoredAll lookup next key ts ↔ ∀ t ∈ ts, Stored lookup next key t := by
  induction ts with
  | nil => exact iff_of_true trivial fun t ht => absurd ht List.not_mem_nil
  | cons t ts ih => rw [StoredAll, ih, List.forall_mem_cons]

end stored

/-! ## The walk -/

section explore

variable {κ ν : Type*} [DecidableEq κ] (front : Bool) (lookup : κ → Option ν) (next : ν → List κ)

/-- The walk with a bound on the turns. A key that was visited is left out, and so is one that is not in the table. Kind: D -/
def explore : ℕ → List κ → List κ → Option (List ν)
  | _, [], _ => some []
  | 0, _ :: _, _ => none
  | n + 1, k :: rest, visited =>
    if k ∈ visited then explore n rest visited
    else match lookup k with
      | none => explore n rest (k :: visited)
      | some v =>
        (explore n (enqueue front ((next v).filter fun c => c ∉ k :: visited) rest) (k :: visited)).map (v :: ·)

/-- How many keys the nodes of the table lead to that were not visited. Kind: D -/
def pending (keys visited : List κ) : ℕ :=
  ((keys.filter fun k => k ∉ visited).map fun k => ((lookup k).elim [] next).length).sum

variable {front lookup next} {keys visited stack : List κ}

theorem pending_cons_le (k : κ) : pending lookup next keys (k :: visited) ≤ pending lookup next keys visited := by
  refine List.Sublist.sum_le_sum (List.Sublist.map _ ?_) fun _ _ => Nat.zero_le _
  refine List.monotone_filter_right keys fun c hc => ?_
  exact decide_eq_true fun h => of_decide_eq_true hc (List.mem_cons_of_mem k h)

/-- A visit uses up the keys that the node leads to. Kind: L -/
theorem pending_cons (lookup : κ → Option ν) (next : ν → List κ) {k : κ} (hk : k ∈ keys) (hvisited : k ∉ visited) :
    pending lookup next keys (k :: visited) + ((lookup k).elim [] next).length ≤ pending lookup next keys visited := by
  unfold pending
  induction keys with
  | nil => cases hk
  | cons c keys ih =>
    by_cases hck : c = k
    · subst hck
      have hmono : pending lookup next keys (c :: visited) ≤ pending lookup next keys visited := pending_cons_le c
      rw [List.filter_cons_of_neg (by simp), List.filter_cons_of_pos (by simpa using hvisited), List.map_cons, List.sum_cons,
        Nat.add_comm]
      exact Nat.add_le_add_left hmono _
    · have hrest := ih ((List.mem_cons.mp hk).resolve_left fun h => hck h.symm)
      by_cases hc : c ∈ visited
      · simp_all
      · grind

/-- **The keys in the table bound the turns.** Kind: P -/
theorem explore_isSome (hkeys : ∀ k v, lookup k = some v → k ∈ keys) {n : ℕ}
    (hn : stack.length + pending lookup next keys visited ≤ n) : (explore front lookup next n stack visited).isSome := by
  induction n generalizing stack visited with
  | zero =>
    rw [List.eq_nil_of_length_eq_zero (by omega : stack.length = 0)]
    rfl
  | succ n ih =>
    rcases stack with _ | ⟨k, rest⟩
    · rfl
    · rw [explore]
      rw [List.length_cons] at hn
      have hmono : pending lookup next keys (k :: visited) ≤ pending lookup next keys visited := pending_cons_le k
      split_ifs with hvisited
      · exact ih (by omega)
      · rcases hv : lookup k with _ | v
        · exact ih (by omega)
        · have hused := pending_cons lookup next (hkeys k v hv) hvisited
          rw [hv, Option.elim_some] at hused
          have hfilter := List.length_filter_le (fun c => decide (c ∉ k :: visited)) (next v)
          refine Option.isSome_map.trans (ih ?_)
          rw [length_enqueue]
          omega

theorem explore_cons {n : ℕ} {k : κ} {v : ν} {rest : List κ} (hk : k ∉ visited) (hlookup : lookup k = some v) :
    explore front lookup next (n + 1) (k :: rest) visited =
      (explore front lookup next n (enqueue front ((next v).filter fun c => c ∉ k :: visited) rest) (k :: visited)).map
        (v :: ·) := by
  rw [explore, if_neg hk, hlookup]

theorem toListAll_ite_perm (front : Bool) (ts us : List (RoseTree ν)) :
    (RoseTree.toListAll (if front then ts ++ us else us ++ ts)).Perm (RoseTree.toListAll ts ++ RoseTree.toListAll us) := by
  split_ifs
  · rw [RoseTree.toListAll_append]
  · rw [RoseTree.toListAll_append]
    exact List.perm_append_comm

/-- The trees stand in the table, no two nodes under one key, and no node was visited. Kind: D -/
structure InTable (lookup : κ → Option ν) (next : ν → List κ) (key : ν → κ) (ts : List (RoseTree ν)) (visited : List κ) : Prop where
  stored : StoredAll lookup next key ts
  nodup : ((RoseTree.toListAll ts).map key).Nodup
  fresh : ∀ v ∈ RoseTree.toListAll ts, key v ∉ visited

/-- The node of the first tree is met, and its children go to the other trees. Kind: L -/
theorem InTable.step (front : Bool) {key : ν → κ} {v : ν} {children ts : List (RoseTree ν)}
    (h : InTable lookup next key (.node v children :: ts) visited) :
    InTable lookup next key (if front then children ++ ts else ts ++ children) (key v :: visited) ∧
      ∀ n, explore front lookup next (n + 1) ((RoseTree.node v children :: ts).map fun t => key t.data) visited =
        (explore front lookup next n ((if front then children ++ ts else ts ++ children).map fun t => key t.data)
          (key v :: visited)).map (v :: ·) := by
  obtain ⟨⟨⟨hlookup, hnext, hchildren⟩, hts⟩, hnodup, hfresh⟩ := h
  have hlist : RoseTree.toListAll (.node v children :: ts) = v :: (RoseTree.toListAll children ++ RoseTree.toListAll ts) := by
    rw [RoseTree.toListAll, RoseTree.toList, List.cons_append]
  rw [hlist, List.map_cons, List.nodup_cons] at hnodup
  rw [hlist] at hfresh
  have hv : key v ∉ visited := hfresh v List.mem_cons_self
  -- what the node leads to was not visited
  have hnew : ∀ w ∈ RoseTree.toListAll children ++ RoseTree.toListAll ts, key w ∉ key v :: visited := by grind
  have hfilter : (next v).filter (fun c => c ∉ key v :: visited) = children.map fun t => key t.data := by
    rw [hnext]
    refine List.filter_eq_self.mpr fun c hc => ?_
    obtain ⟨t, ht, rfl⟩ := List.mem_map.mp hc
    exact decide_eq_true (hnew _ (List.mem_append_left _ (RoseTree.data_mem_toListAll ht)))
  have hperm := toListAll_ite_perm front children ts
  refine ⟨⟨?_, (hperm.map key).nodup_iff.mpr hnodup.2, fun w hw => hnew w (hperm.mem_iff.mp hw)⟩, fun n => ?_⟩
  · rw [storedAll_iff] at hchildren hts ⊢
    intro t ht
    split_ifs at ht
    · exact (List.mem_append.mp ht).elim (hchildren t) (hts t)
    · exact (List.mem_append.mp ht).elim (hts t) (hchildren t)
  · rw [List.map_cons, RoseTree.data, explore_cons hv hlookup, hfilter, enqueue_map]

/-- **A table that holds trees under keys of their own is walked node by node, each once.** Kind: P -/
theorem perm_of_explore {key : ν → κ} {n : ℕ} {l : List ν} {ts : List (RoseTree ν)}
    (hstored : StoredAll lookup next key ts) (hnodup : ((RoseTree.toListAll ts).map key).Nodup)
    (hfresh : ∀ v ∈ RoseTree.toListAll ts, key v ∉ visited)
    (h : explore front lookup next n (ts.map fun t => key t.data) visited = some l) : l.Perm (RoseTree.toListAll ts) := by
  have htable : InTable lookup next key ts visited := ⟨hstored, hnodup, hfresh⟩
  clear hstored hnodup hfresh
  induction n generalizing ts visited l with
  | zero =>
    rcases ts with _ | ⟨t, ts⟩
    · rw [List.map_nil, explore] at h
      rw [← Option.some.inj h]
      exact .refl _
    · cases h
  | succ n ih =>
    rcases ts with _ | ⟨⟨v, children⟩, ts⟩
    · rw [List.map_nil, explore] at h
      rw [← Option.some.inj h]
      exact .refl _
    · obtain ⟨hrest, hstep⟩ := htable.step front
      rw [hstep] at h
      obtain ⟨l', hl', rfl⟩ := Option.map_eq_some_iff.mp h
      rw [RoseTree.toListAll, RoseTree.toList, List.cons_append]
      exact ((ih hl' hrest).trans (toListAll_ite_perm front children ts)).cons v

end explore

/-! ## The walk that adds visited keys again -/

section flood

variable {κ β : Type*} [DecidableEq κ] (value : κ → List β) (next : κ → List κ)

/-- A walk with a queue and a bound on the turns. What a key leads to is queued whether it was visited or not. Kind: D -/
def flood : ℕ → List κ → List κ → List β → Option (List β)
  | _, [], _, result => some result
  | 0, _ :: _, _, _ => none
  | n + 1, k :: rest, visited, result =>
    if k ∈ visited then flood n rest visited result else flood n (rest ++ next k) (k :: visited) (result ++ value k)

variable {value next} {keys visited queue : List κ} {result : List β}

/-- **The keys that lead somewhere bound the turns.** Kind: P -/
theorem flood_isSome (hkeys : ∀ k, k ∉ keys → next k = []) {n : ℕ}
    (hn : queue.length + pending (some : κ → Option κ) next keys visited ≤ n) : (flood value next n queue visited result).isSome := by
  induction n generalizing queue visited result with
  | zero =>
    rw [List.eq_nil_of_length_eq_zero (by omega : queue.length = 0)]
    rfl
  | succ n ih =>
    rcases queue with _ | ⟨k, rest⟩
    · rfl
    · rw [flood]
      rw [List.length_cons] at hn
      split_ifs with hvisited
      · exact ih (by omega)
      · apply ih
        rw [List.length_append]
        by_cases hk : k ∈ keys
        · have hused := pending_cons (some : κ → Option κ) next hk hvisited
          rw [Option.elim_some] at hused
          omega
        · grind [pending_cons_le]

/-- What holds at each turn: the visited keys can be reached, what they lead to is visited or waits, and the result has what
they stand for. Kind: D -/
structure Flooding (value : κ → List β) (next : κ → List κ) (start : κ) (queue visited : List κ) (result : List β) : Prop where
  reached : ∀ k, k ∈ visited ∨ k ∈ queue → Relation.ReflTransGen (fun a b => b ∈ next a) start k
  closed : ∀ a ∈ visited, ∀ b ∈ next a, b ∈ visited ∨ b ∈ queue
  started : start ∈ visited ∨ start ∈ queue
  collected : ∀ b, b ∈ result ↔ ∃ k ∈ visited, b ∈ value k

omit [DecidableEq κ] in
theorem Flooding.drop {start k : κ} (h : Flooding value next start (k :: queue) visited result) (hk : k ∈ visited) :
    Flooding value next start queue visited result := by
  have hkeep : ∀ b, b ∈ visited ∨ b ∈ k :: queue → b ∈ visited ∨ b ∈ queue := by grind
  exact ⟨fun b hb => h.reached b (hb.imp_right (List.mem_cons_of_mem k)), fun a ha b hb => hkeep b (h.closed a ha b hb),
    hkeep start h.started, h.collected⟩

omit [DecidableEq κ] in
theorem Flooding.visit {start k : κ} (h : Flooding value next start (k :: queue) visited result) :
    Flooding value next start (queue ++ next k) (k :: visited) (result ++ value k) := by
  have hstart := h.reached k (.inr List.mem_cons_self)
  have hkeep : ∀ b, b ∈ visited ∨ b ∈ k :: queue → b ∈ k :: visited ∨ b ∈ queue ++ next k := by grind
  refine ⟨fun b hb => ?_, fun a ha b hb => ?_, hkeep start h.started, fun b => ?_⟩
  · rcases hb with hb | hb
    · rcases List.mem_cons.mp hb with rfl | hb
      · exact hstart
      · exact h.reached b (.inl hb)
    · rcases List.mem_append.mp hb with hb | hb
      · exact h.reached b (.inr (List.mem_cons_of_mem k hb))
      · exact hstart.tail hb
  · rcases List.mem_cons.mp ha with rfl | ha
    · exact .inr (List.mem_append_right _ hb)
    · exact hkeep b (h.closed a ha b hb)
  · rw [List.mem_append, h.collected]
    simp only [List.mem_cons, exists_eq_or_imp]
    exact or_comm

/-- A queue that is empty has left nothing out. Kind: L -/
theorem mem_of_flood_nil {start : κ} {n : ℕ} {r : List β} (h : Flooding value next start [] visited result)
    (hr : flood value next n [] visited result = some r) (b : β) :
    b ∈ r ↔ ∃ k, Relation.ReflTransGen (fun a b => b ∈ next a) start k ∧ b ∈ value k := by
  have hdone : ∀ k, k ∈ visited ∨ k ∈ ([] : List κ) → k ∈ visited := fun k hk => hk.resolve_right List.not_mem_nil
  have hall : ∀ k, Relation.ReflTransGen (fun a b => b ∈ next a) start k → k ∈ visited := by
    intro k hk
    induction hk with
    | refl => exact hdone start h.started
    | tail _ hlink ih => exact hdone _ (h.closed _ ih _ hlink)
  rw [flood] at hr
  obtain rfl := Option.some.inj hr
  rw [h.collected]
  constructor
  · rintro ⟨k, hk, hb⟩
    exact ⟨k, h.reached k (.inl hk), hb⟩
  · rintro ⟨k, hk, hb⟩
    exact ⟨k, hall k hk, hb⟩

/-- **A walk that ends has what every key stands for that can be reached, and nothing else.** Kind: P -/
theorem mem_of_flood {start : κ} {n : ℕ} {r : List β} (h : Flooding value next start queue visited result)
    (hr : flood value next n queue visited result = some r) (b : β) :
    b ∈ r ↔ ∃ k, Relation.ReflTransGen (fun a b => b ∈ next a) start k ∧ b ∈ value k := by
  induction n generalizing queue visited result with
  | zero =>
    rcases queue with _ | ⟨k, rest⟩
    · exact mem_of_flood_nil h hr b
    · cases hr
  | succ n ih =>
    rcases queue with _ | ⟨k, rest⟩
    · exact mem_of_flood_nil h hr b
    · rw [flood] at hr
      split_ifs at hr with hvisited
      · exact ih (h.drop hvisited) hr
      · exact ih h.visit hr

end flood

/-! ## What is met -/

section reach

variable {κ ν : Type*} [DecidableEq κ] {front : Bool} {lookup : κ → Option ν} {next : ν → List κ}
  {stack visited : List κ} {k x : κ}

/-- The node under a key leads to a key. Kind: D -/
def LeadsTo (lookup : κ → Option ν) (next : ν → List κ) (k c : κ) : Prop := ∃ v, lookup k = some v ∧ c ∈ next v

/-- A key that can be reached from a list of keys. Kind: D -/
def ReachedFrom (lookup : κ → Option ν) (next : ν → List κ) (stack : List κ) (k : κ) : Prop :=
  ∃ s ∈ stack, Relation.ReflTransGen (LeadsTo lookup next) s k

/-- What the visited keys lead to is visited or waits. Kind: D -/
def ClosedUpTo (lookup : κ → Option ν) (next : ν → List κ) (stack visited : List κ) : Prop :=
  ∀ k ∈ visited, ∀ c, LeadsTo lookup next k c → c ∈ visited ∨ c ∈ stack

omit [DecidableEq κ] in
theorem mem_enqueue {ks rest : List κ} : k ∈ enqueue front ks rest ↔ k ∈ ks ∨ k ∈ rest := by
  unfold enqueue
  split_ifs
  · exact List.mem_append
  · exact List.mem_append.trans or_comm

omit [DecidableEq κ] in
theorem ReachedFrom.mono {stack' : List κ} (h : ReachedFrom lookup next stack x) (hsub : ∀ s ∈ stack, s ∈ stack') :
    ReachedFrom lookup next stack' x :=
  h.imp fun s hs => hs.imp_left (hsub s)

omit [DecidableEq κ] in
/-- What is reached from a visited key is visited or reached from what waits. Kind: L -/
theorem ClosedUpTo.reached (h : ClosedUpTo lookup next stack visited) (hk : k ∈ visited)
    (hx : Relation.ReflTransGen (LeadsTo lookup next) k x) (hnew : x ∉ visited) : ReachedFrom lookup next stack x := by
  induction hx using Relation.ReflTransGen.head_induction_on with
  | refl => exact absurd hk hnew
  | head hleads hrest ih =>
    rcases h _ hk _ hleads with hc | hc
    · exact ih hc
    · exact ⟨_, hc, hrest⟩

/-- A key that is still to be met. Kind: D -/
def Meets (lookup : κ → Option ν) (next : ν → List κ) (stack visited : List κ) (x : κ) : Prop :=
  x ∉ visited ∧ (lookup x).isSome ∧ ReachedFrom lookup next stack x

variable {rest : List κ} {v : ν}

omit [DecidableEq κ] in
/-- A visited key is dropped. Kind: L -/
theorem meets_visited (hclosed : ClosedUpTo lookup next (k :: rest) visited) (hk : k ∈ visited) :
    ClosedUpTo lookup next rest visited ∧ ∀ x, Meets lookup next (k :: rest) visited x ↔ Meets lookup next rest visited x := by
  have hrest : ClosedUpTo lookup next rest visited := by
    intro k' hk' c hc
    rcases hclosed k' hk' c hc with hc | hc
    · exact .inl hc
    · rcases List.mem_cons.mp hc with rfl | hc
      · exact .inl hk
      · exact .inr hc
  refine ⟨hrest, fun x => and_congr_right fun hnew => and_congr_right fun _ => ⟨fun hx => ?_, fun hx => ?_⟩⟩
  · obtain ⟨s, hs, hsx⟩ := hx
    rcases List.mem_cons.mp hs with rfl | hs
    · exact hrest.reached hk hsx hnew
    · exact ⟨s, hs, hsx⟩
  · exact hx.mono fun s hs => List.mem_cons_of_mem k hs

omit [DecidableEq κ] in
/-- A key that is not in the table leads nowhere. Kind: L -/
theorem meets_absent (hclosed : ClosedUpTo lookup next (k :: rest) visited) (hk : lookup k = none) :
    ClosedUpTo lookup next rest (k :: visited) ∧
      ∀ x, Meets lookup next (k :: rest) visited x ↔ Meets lookup next rest (k :: visited) x := by
  have hleads : ∀ c, ¬LeadsTo lookup next k c := by
    rintro c ⟨v, hv, -⟩
    rw [hk] at hv
    cases hv
  refine ⟨fun k' hk' c hc => ?_, fun x => ⟨?_, ?_⟩⟩
  · rcases List.mem_cons.mp hk' with rfl | hk'
    · exact absurd hc (hleads c)
    rcases hclosed k' hk' c hc with hc | hc
    · exact .inl (List.mem_cons_of_mem k hc)
    · rcases List.mem_cons.mp hc with rfl | hc
      · exact .inl List.mem_cons_self
      · exact .inr hc
  · rintro ⟨hnew, hx, s, hs, hsx⟩
    have hxk : x ≠ k := by
      rintro rfl
      rw [hk] at hx
      cases hx
    refine ⟨fun hmem => (List.mem_cons.mp hmem).elim hxk hnew, hx, ?_⟩
    rcases List.mem_cons.mp hs with rfl | hs
    · rcases Relation.ReflTransGen.cases_head hsx with heq | ⟨c, hc, -⟩
      · exact absurd heq.symm hxk
      · exact absurd hc (hleads c)
    · exact ⟨s, hs, hsx⟩
  · rintro ⟨hnew, hx, hreached⟩
    exact ⟨fun hmem => hnew (List.mem_cons_of_mem k hmem), hx, hreached.mono fun s hs => List.mem_cons_of_mem k hs⟩

/-- A key in the table is met, and what it leads to waits. Kind: L -/
theorem meets_node (front : Bool) (hclosed : ClosedUpTo lookup next (k :: rest) visited) (hk : k ∉ visited) (hv : lookup k = some v) :
    ClosedUpTo lookup next (enqueue front ((next v).filter fun c => c ∉ k :: visited) rest) (k :: visited) ∧
      ∀ x, Meets lookup next (k :: rest) visited x ↔
        x = k ∨ Meets lookup next (enqueue front ((next v).filter fun c => c ∉ k :: visited) rest) (k :: visited) x := by
  have hleads : ∀ c, LeadsTo lookup next k c ↔ c ∈ next v := by
    refine fun c => ⟨?_, fun hc => ⟨v, hv, hc⟩⟩
    rintro ⟨v', hv', hc⟩
    rwa [Option.some.inj (hv.symm.trans hv')]
  have hwaits : ∀ c, LeadsTo lookup next k c → c ∈ k :: visited ∨
      c ∈ enqueue front ((next v).filter fun c => c ∉ k :: visited) rest := by
    intro c hc
    by_cases hvisited : c ∈ k :: visited
    · exact .inl hvisited
    · exact .inr (mem_enqueue.mpr (.inl (List.mem_filter.mpr ⟨(hleads c).mp hc, decide_eq_true hvisited⟩)))
  have hrest : ClosedUpTo lookup next (enqueue front ((next v).filter fun c => c ∉ k :: visited) rest) (k :: visited) := by
    intro k' hk' c hc
    rcases List.mem_cons.mp hk' with rfl | hk'
    · exact hwaits c hc
    rcases hclosed k' hk' c hc with hc | hc
    · exact .inl (List.mem_cons_of_mem k hc)
    · rcases List.mem_cons.mp hc with rfl | hc
      · exact .inl List.mem_cons_self
      · exact .inr (mem_enqueue.mpr (.inr hc))
  refine ⟨hrest, fun x => ⟨?_, ?_⟩⟩
  · rintro ⟨hnew, hx, s, hs, hsx⟩
    by_cases hxk : x = k
    · exact .inl hxk
    have hnew' : x ∉ k :: visited := fun hmem => (List.mem_cons.mp hmem).elim hxk hnew
    refine .inr ⟨hnew', hx, ?_⟩
    rcases List.mem_cons.mp hs with rfl | hs
    · exact hrest.reached List.mem_cons_self hsx hnew'
    · exact ⟨s, mem_enqueue.mpr (.inr hs), hsx⟩
  · rintro (rfl | ⟨hnew, hx, s, hs, hsx⟩)
    · exact ⟨hk, by rw [hv]; rfl, x, List.mem_cons_self, .refl⟩
    · refine ⟨fun hmem => hnew (List.mem_cons_of_mem k hmem), hx, ?_⟩
      rcases mem_enqueue.mp hs with hs | hs
      · exact ⟨k, List.mem_cons_self, .head ((hleads s).mpr (List.mem_of_mem_filter hs)) hsx⟩
      · exact ⟨s, List.mem_cons_of_mem k hs, hsx⟩

omit [DecidableEq κ] in
theorem meets_nil : ¬Meets lookup next [] visited x := fun ⟨_, _, _, hs, _⟩ => List.not_mem_nil hs

theorem explore_nil (n : ℕ) : explore front lookup next n [] visited = some [] := by cases n <;> rfl

/-- **A walk meets each key that can be reached and is in the table, once.** Kind: P -/
theorem explore_spec {n : ℕ} {l : List ν} (hclosed : ClosedUpTo lookup next stack visited)
    (h : explore front lookup next n stack visited = some l) :
    ∃ ids : List κ, ids.Nodup ∧ (∀ k, k ∈ ids ↔ Meets lookup next stack visited k) ∧ l.map some = ids.map lookup := by
  induction n generalizing stack visited l with
  | zero =>
    rcases stack with _ | ⟨k, rest⟩
    · rw [explore_nil] at h
      obtain rfl := Option.some.inj h
      exact ⟨[], List.nodup_nil, fun k => iff_of_false List.not_mem_nil meets_nil, rfl⟩
    · cases h
  | succ n ih =>
    rcases stack with _ | ⟨k, rest⟩
    · rw [explore_nil] at h
      obtain rfl := Option.some.inj h
      exact ⟨[], List.nodup_nil, fun k => iff_of_false List.not_mem_nil meets_nil, rfl⟩
    rw [explore] at h
    by_cases hk : k ∈ visited
    · rw [if_pos hk] at h
      obtain ⟨hrest, hmeets⟩ := meets_visited hclosed hk
      obtain ⟨ids, hnodup, hmem, hmap⟩ := ih hrest h
      exact ⟨ids, hnodup, fun x => (hmem x).trans (hmeets x).symm, hmap⟩
    rw [if_neg hk] at h
    cases hv : lookup k with
    | none =>
      rw [hv] at h
      obtain ⟨hrest, hmeets⟩ := meets_absent hclosed hv
      obtain ⟨ids, hnodup, hmem, hmap⟩ := ih hrest h
      exact ⟨ids, hnodup, fun x => (hmem x).trans (hmeets x).symm, hmap⟩
    | some v =>
      rw [hv] at h
      obtain ⟨l', hl', rfl⟩ := Option.map_eq_some_iff.mp h
      obtain ⟨hrest, hmeets⟩ := meets_node front hclosed hk hv
      obtain ⟨ids, hnodup, hmem, hmap⟩ := ih hrest hl'
      refine ⟨k :: ids, List.nodup_cons.mpr ⟨fun hin => ((hmem k).mp hin).1 List.mem_cons_self, hnodup⟩, fun x => ?_, ?_⟩
      · rw [List.mem_cons, hmem, hmeets]
      · rw [List.map_cons, List.map_cons, hmap, hv]

end reach

/-! ## Trees -/

namespace RoseTree

variable {α : Type*}

mutual

/-- The number of levels of a tree. Kind: D -/
def height : RoseTree α → ℕ
  | node _ children => heightAll children + 1

/-- The number of levels of a list of trees. Kind: D -/
def heightAll : List (RoseTree α) → ℕ
  | [] => 0
  | t :: ts => max t.height (heightAll ts)

end

/-- The data of the nodes level by level, each level from left to right, down to a depth. Kind: D -/
def levels : ℕ → List (RoseTree α) → List α
  | 0, _ => []
  | d + 1, ts => ts.map data ++ levels d (ts.flatMap children)

theorem heightAll_le_iff {d : ℕ} {ts : List (RoseTree α)} : heightAll ts ≤ d ↔ ∀ t ∈ ts, t.height ≤ d := by
  induction ts with
  | nil => exact iff_of_true (Nat.zero_le d) fun t ht => absurd ht List.not_mem_nil
  | cons t ts ih => rw [heightAll, max_le_iff, ih, List.forall_mem_cons]

theorem height_node_le_iff {d : ℕ} {a : α} {ts : List (RoseTree α)} : (node a ts).height ≤ d + 1 ↔ heightAll ts ≤ d := by
  rw [height, Nat.add_le_add_iff_right]

theorem levels_nil : (d : ℕ) → levels d ([] : List (RoseTree α)) = []
  | 0 => rfl
  | d + 1 => by rw [levels, List.map_nil, List.flatMap_nil, levels_nil d, List.append_nil]

end RoseTree

section order

open RoseTree

variable {κ ν : Type*} [DecidableEq κ] {lookup : κ → Option ν} {next : ν → List κ} {key : ν → κ} {visited : List κ}
  {ts us : List (RoseTree ν)} {n : ℕ} {l : List ν}

/-- **With new keys in front, a tree is walked from its root, the children from left to right.** Kind: P -/
theorem explore_front (htable : InTable lookup next key ts visited)
    (h : explore true lookup next n (ts.map fun t => key t.data) visited = some l) : l = toListAll ts := by
  induction n generalizing ts visited l with
  | zero =>
    rcases ts with _ | ⟨t, ts⟩
    · rw [List.map_nil, explore] at h
      exact (Option.some.inj h).symm
    · cases h
  | succ n ih =>
    rcases ts with _ | ⟨⟨v, children⟩, ts⟩
    · rw [List.map_nil, explore] at h
      exact (Option.some.inj h).symm
    · obtain ⟨hrest, hstep⟩ := htable.step true
      rw [hstep] at h
      obtain ⟨l', hl', rfl⟩ := Option.map_eq_some_iff.mp h
      rw [if_pos rfl] at hrest hl'
      rw [ih hrest hl', toListAll_append, toListAll, toList, List.cons_append]

/-- What a walk with new keys at the end meets: the trees of a level that are left, then the next levels, of the trees that
wait behind them and of the children. Kind: D -/
def MeetsLevels (lookup : κ → Option ν) (next : ν → List κ) (key : ν → κ) (n : ℕ) (ts us : List (RoseTree ν)) : Prop :=
  ∀ d visited l, heightAll ts ≤ d + 1 → heightAll us ≤ d → InTable lookup next key (ts ++ us) visited →
    explore false lookup next n ((ts ++ us).map fun t => key t.data) visited = some l →
      l = ts.map data ++ levels d (us ++ ts.flatMap children)

/-- The first tree of a level is met, and its children go behind the trees that wait. Kind: L -/
theorem meetsLevels_cons {t : RoseTree ν} (ih : MeetsLevels lookup next key n ts (us ++ t.children)) :
    MeetsLevels lookup next key (n + 1) (t :: ts) us := by
  intro d visited l hts hus htable h
  obtain ⟨v, children⟩ := t
  obtain ⟨ht, hts⟩ := max_le_iff.mp hts
  rw [List.cons_append] at htable h
  obtain ⟨hrest, hstep⟩ := htable.step false
  rw [hstep] at h
  obtain ⟨l', hl', rfl⟩ := Option.map_eq_some_iff.mp h
  rw [if_neg Bool.false_ne_true, List.append_assoc] at hrest hl'
  have hus' : heightAll (us ++ children) ≤ d := by
    rw [heightAll_le_iff, List.forall_mem_append, ← heightAll_le_iff, ← heightAll_le_iff]
    exact ⟨hus, height_node_le_iff.mp ht⟩
  rw [ih d _ l' hts hus' hrest hl', List.map_cons, List.flatMap_cons, List.cons_append, List.append_assoc]
  rfl

theorem meetsLevels (n : ℕ) : ∀ ts us : List (RoseTree ν), MeetsLevels lookup next key n ts us := by
  induction n with
  | zero =>
    intro ts us d visited l _ _ _ h
    rcases ts with _ | ⟨t, ts⟩
    · rcases us with _ | ⟨u, us⟩
      · rw [List.append_nil, List.map_nil, explore_nil] at h
        rw [← Option.some.inj h, List.map_nil, List.flatMap_nil, List.append_nil, List.nil_append, levels_nil]
      · cases h
    · cases h
  | succ n ih =>
    intro ts us
    rcases ts with _ | ⟨t, ts⟩
    · intro d visited l _ hus htable h
      rcases us with _ | ⟨u, us⟩
      · rw [List.append_nil, List.map_nil, explore_nil] at h
        rw [← Option.some.inj h, List.map_nil, List.flatMap_nil, List.append_nil, List.nil_append, levels_nil]
      -- the level is done, and the trees that waited are the next one
      rcases d with _ | d
      · obtain ⟨v, children⟩ := u
        exact absurd (le_of_max_le_left hus) (Nat.not_succ_le_zero _)
      · rw [List.nil_append, ← List.append_nil (u :: us)] at htable h
        have hnil : heightAll ([] : List (RoseTree ν)) ≤ d := Nat.zero_le d
        rw [meetsLevels_cons (ih us ([] ++ u.children)) d visited l hus hnil htable h, List.map_nil, List.nil_append,
          List.nil_append, List.flatMap_nil, List.append_nil, levels]
    · exact meetsLevels_cons (ih ts (us ++ t.children))

/-- **With new keys at the end, trees are walked level by level.** Kind: P -/
theorem explore_back (htable : InTable lookup next key ts visited)
    (h : explore false lookup next n (ts.map fun t => key t.data) visited = some l) : l = levels (heightAll ts) ts := by
  rcases hd : heightAll ts with _ | d
  · rcases ts with _ | ⟨⟨v, children⟩, ts⟩
    · rw [List.map_nil, explore_nil] at h
      exact (Option.some.inj h).symm
    · exact absurd (le_of_max_le_left hd.le) (Nat.not_succ_le_zero _)
  · rw [← List.append_nil ts] at htable h
    have hnil : heightAll ([] : List (RoseTree ν)) ≤ d := Nat.zero_le d
    rw [meetsLevels n ts [] d visited l hd.le hnil htable h, levels, List.nil_append]

end order

end KarsaSec.Found
