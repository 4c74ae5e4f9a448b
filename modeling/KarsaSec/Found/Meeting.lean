import KarsaSec.Found.Dict
import KarsaSec.Found.ShortestWalk
import Mathlib.Data.Finset.Card

/-!
# Search from both ends

Breadth-first search from a start along the edges and from a target against them, one node of each side a round, until
an edge leads from one side to the other.

* `Front` is one side: the ways to the nodes it has met, and the queue. `spread` adds the successors of one node.
* `Spread` says what the side knows after a number of nodes: the ways are shortest ways, in the order of their lengths,
  and the nodes taken from the queue have their successors among the nodes met.
* `meet` is the search. `meet_spec`: what it finds is a walk that is at most one edge longer than any other.
* `meet_ne_nil` and `meet_eq_nil`: where it finds something, and where it does not, by the numbers of nodes that are
  nearer to the start or to the target than a distance.
-/

namespace KarsaSec.Found

variable {α : Type*}

/-! ## Nodes within a distance -/

/-- The nodes that fewer than so many edges lead to. Kind: D -/
def nearer [DecidableEq α] (succ : α → List α) (start : α) (k : ℕ) : Finset α :=
  ((List.range k).flatMap fun i => (walks succ start i).map Prod.fst).toFinset

theorem mem_nearer [DecidableEq α] {succ : α → List α} {start a : α} {k : ℕ} :
    a ∈ nearer succ start k ↔ ∃ path, IsWalk succ start a path ∧ path.length ≤ k := by
  unfold nearer
  rw [List.mem_toFinset, List.mem_flatMap]
  constructor
  · grind [mem_walks_iff]
  · rintro ⟨path, hwalk, hlength⟩
    obtain ⟨i, hi⟩ : ∃ i, path.length = i + 1 :=
      Nat.exists_eq_succ_of_ne_zero (mt List.length_eq_zero_iff.mp hwalk.ne_nil)
    refine ⟨i, List.mem_range.mpr (by omega), List.mem_map.mpr ⟨(a, path), mem_walks_iff.mpr ⟨hwalk, hi⟩, rfl⟩⟩

/-! ## One side -/

/-- The ways to the nodes met, and the nodes whose edges have not been followed. Kind: D -/
structure Front (α : Type*) where
  ways : Dict α (List α)
  queue : List α

namespace Front

variable [DecidableEq α]

/-- The side at its start. Kind: D -/
def start (a : α) : Front α := ⟨Dict.empty.set a [a], [a]⟩

/-- A successor is met, by a way one edge further. Kind: D -/
def met (path : List α) (b : α) (f : Front α) : Front α :=
  if f.ways.contains b then f else ⟨f.ways.set b (path ++ [b]), f.queue ++ [b]⟩

/-- The edges of a node are followed until one leads to the other side. Kind: D -/
def spread (other : Dict α (List α)) (path : List α) : List α → Front α → List α ⊕ Front α
  | [], f => .inr f
  | b :: bs, f =>
    match other.get? b with
    | some rest => .inl rest
    | none => spread other path bs (f.met path b)

end Front

/-- The search, for a number of rounds. Kind: D -/
def meet [DecidableEq α] (succ pred : α → List α) : ℕ → Front α → Front α → List α
  | 0, _, _ => []
  | n + 1, f, r =>
    match f.queue, r.queue with
    | a :: fs, b :: rs =>
      let pathF := f.ways.getD a []
      match Front.spread r.ways pathF (succ a) ⟨f.ways, fs⟩ with
      | .inl rest => pathF ++ rest.reverse
      | .inr f' =>
        let pathR := r.ways.getD b []
        match Front.spread f'.ways pathR (pred b) ⟨r.ways, rs⟩ with
        | .inl rest => rest ++ pathR.reverse
        | .inr r' => meet succ pred n f' r'
    | _, _ => []

/-! ## What one side knows -/

/-- A side after the edges of so many nodes. Kind: D -/
structure Spread (succ : α → List α) (start : α) (i : ℕ) (f : Front α) : Prop where
  queue_eq : f.queue = (f.ways.entries.drop i).map Prod.fst
  start_mem : start ∈ f.ways.keys
  walk : ∀ e ∈ f.ways.entries, IsWalk succ start e.1 e.2
  least : ∀ e ∈ f.ways.entries, ∀ path, IsWalk succ start e.1 path → e.2.length ≤ path.length
  sorted : f.ways.entries.Pairwise fun e e' => e.2.length ≤ e'.2.length
  window : ∀ e ∈ f.ways.entries.drop (i - 1), ∀ e' ∈ f.ways.entries, e'.2.length ≤ e.2.length + 1
  closed : ∀ e ∈ f.ways.entries.take i, ∀ b ∈ succ e.1, b ∈ f.ways.keys

section side

variable {succ : α → List α} {start a b : α} {i : ℕ} {f f' : Front α} {path q : List α} {bs fs : List α}

/-- A walk to a node other than its start comes from a node before. Kind: L -/
theorem IsWalk.before (h : IsWalk succ start b q) :
    (q = [start] ∧ b = start) ∨ ∃ a q', q = q' ++ [b] ∧ IsWalk succ start a q' ∧ b ∈ succ a := by
  have hne := h.ne_nil
  have hlast : q.getLast hne = b := Option.some.inj ((List.getLast?_eq_some_getLast hne).symm.trans h.last)
  have hq : q = q.dropLast ++ [b] := by rw [← hlast, List.dropLast_append_getLast hne]
  rcases hdrop : q.dropLast with _ | ⟨c, cs⟩
  · rw [hdrop, List.nil_append] at hq
    rw [hq] at h
    obtain rfl := Option.some.inj h.head
    exact .inl ⟨hq, rfl⟩
  · right
    rw [hdrop] at hq
    rw [hq] at h
    obtain ⟨a, hwalk, hb⟩ := isWalk_append_iff.mp ⟨h, List.cons_ne_nil c cs⟩
    exact ⟨a, c :: cs, hq, hwalk, hb⟩

variable [DecidableEq α]

omit [DecidableEq α] in
/-- The next node of the queue stands in the list of the ways. Kind: L -/
theorem Spread.head (h : Spread succ start i f) (hqueue : f.queue = a :: fs) :
    ∃ before path after, f.ways.entries = before ++ (a, path) :: after ∧ before.length = i ∧
      fs = after.map Prod.fst := by
  rw [h.queue_eq] at hqueue
  rcases hdrop : f.ways.entries.drop i with _ | ⟨⟨a', path⟩, after⟩
  · rw [hdrop] at hqueue
    cases hqueue
  · rw [hdrop] at hqueue
    obtain ⟨rfl, rfl⟩ := List.cons.inj hqueue
    refine ⟨f.ways.entries.take i, path, after, ?_, ?_, rfl⟩
    · rw [← hdrop, List.take_append_drop]
    · rw [List.length_take]
      have hlt : i < f.ways.entries.length := by
        by_contra hle
        rw [List.drop_eq_nil_of_le (Nat.not_lt.mp hle)] at hdrop
        cases hdrop
      omega

theorem way_eq {before after : List (α × List α)} (h : f.ways.entries = before ++ (a, path) :: after) :
    f.ways.getD a [] = path := by
  have hmem : (a, path) ∈ f.ways.entries := by
    rw [h]
    exact List.mem_append_right _ List.mem_cons_self
  unfold Dict.getD
  rw [Dict.mem_entries.mp hmem, Option.getD_some]

/-- What has not been met is further away than the next node of the queue. Kind: L -/
theorem Spread.far (h : Spread succ start i f) {before after : List (α × List α)}
    (hentries : f.ways.entries = before ++ (a, path) :: after) (hi : before.length = i) (n : ℕ) :
    ∀ {b q}, b ∉ f.ways.keys → IsWalk succ start b q → q.length = n → path.length + 1 ≤ n := by
  induction n with
  | zero =>
    intro b q _ hwalk hlength
    exact absurd (List.length_eq_zero_iff.mp hlength) hwalk.ne_nil
  | succ n ih =>
    intro b q hb hwalk hlength
    rcases hwalk.before with ⟨-, rfl⟩ | ⟨c, q', rfl, hwalk', hc⟩
    · exact absurd h.start_mem hb
    · rw [List.length_append, List.length_singleton, Nat.add_right_cancel_iff] at hlength
      by_cases hmet : c ∈ f.ways.keys
      · obtain ⟨⟨c', pathC⟩, hmem, rfl⟩ := List.mem_map.mp hmet
        have hleast : pathC.length ≤ q'.length := h.least _ hmem q' hwalk'
        have hsorted := h.sorted
        rw [hentries] at hmem hsorted
        rcases List.mem_append.mp hmem with hold | hnew
        · -- its edges have been followed
          have htake : (c', pathC) ∈ f.ways.entries.take i := by
            rw [hentries, ← hi, List.take_left]
            exact hold
          exact absurd (h.closed _ htake b hc) hb
        · grind [List.pairwise_cons]
      · have hfar := ih hmet hwalk' hlength
        omega

omit [DecidableEq α] in
/-- A side with nothing left to follow has met all there is. Kind: L -/
theorem Spread.all (h : Spread succ start i f) (hqueue : f.queue = []) (n : ℕ) :
    ∀ {b q}, IsWalk succ start b q → q.length = n → b ∈ f.ways.keys := by
  have hdrop : f.ways.entries.drop i = [] := List.map_eq_nil_iff.mp (h.queue_eq.symm.trans hqueue)
  have htake : f.ways.entries.take i = f.ways.entries := List.take_of_length_le (List.drop_eq_nil_iff.mp hdrop)
  induction n with
  | zero =>
    intro b q hwalk hlength
    exact absurd (List.length_eq_zero_iff.mp hlength) hwalk.ne_nil
  | succ n ih =>
    intro b q hwalk hlength
    rcases hwalk.before with ⟨-, rfl⟩ | ⟨c, q', rfl, hwalk', hc⟩
    · exact h.start_mem
    · rw [List.length_append, List.length_singleton, Nat.add_right_cancel_iff] at hlength
      obtain ⟨e, hmem, rfl⟩ := List.mem_map.mp (ih hwalk' hlength)
      refine h.closed e ?_ b hc
      rw [htake]
      exact hmem

/-! ## Following the edges of a node -/

/-- What the edges of one node add to a side. Kind: D -/
structure Grown (path bs : List α) (f f' : Front α) (new : List α) : Prop where
  entries : f'.ways.entries = f.ways.entries ++ new.map fun b => (b, path ++ [b])
  queue : f'.queue = f.queue ++ new
  fresh : ∀ b ∈ new, b ∈ bs ∧ b ∉ f.ways.keys
  met : ∀ b ∈ bs, b ∈ f'.ways.keys

theorem grown_met (path : List α) (b : α) (f : Front α) :
    ∃ new, Grown path [b] f (f.met path b) new := by
  unfold Front.met
  by_cases hb : b ∈ f.ways.keys
  · have hcontains : f.ways.contains b = true := Dict.get?_isSome.mpr hb
    refine ⟨[], ?_, ?_, fun c hc => absurd hc List.not_mem_nil, fun c hc => ?_⟩
    · rw [if_pos hcontains]
      simp
    · rw [if_pos hcontains]
      simp
    · rw [if_pos hcontains, List.mem_singleton.mp hc]
      exact hb
  · have hcontains : ¬f.ways.contains b = true := fun h => hb (Dict.get?_isSome.mp h)
    refine ⟨[b], ?_, ?_, fun c hc => ⟨hc, List.mem_singleton.mp hc ▸ hb⟩, fun c hc => ?_⟩
    · rw [if_neg hcontains]
      exact Dict.insertEntry_of_not_mem hb
    · rw [if_neg hcontains]
    · simp_all

omit [DecidableEq α] in
theorem Grown.keys {new : List α} (h : Grown path bs f f' new) : f'.ways.keys = f.ways.keys ++ new := by
  unfold Dict.keys
  rw [h.entries, List.map_append, List.map_map]
  exact congrArg _ (List.map_id new)

omit [DecidableEq α] in
theorem Grown.cons {f'' : Front α} {new new' : List α} (h : Grown path [b] f f' new) (h' : Grown path bs f' f'' new') :
    Grown path (b :: bs) f f'' (new ++ new') := by
  refine ⟨?_, ?_, fun c hc => ?_, fun c hc => ?_⟩
  · rw [h'.entries, h.entries, List.append_assoc, List.map_append]
  · rw [h'.queue, h.queue, List.append_assoc]
  · rcases List.mem_append.mp hc with hc | hc
    · obtain ⟨hmem, hfresh⟩ := h.fresh c hc
      exact ⟨List.mem_singleton.mp hmem ▸ List.mem_cons_self, hfresh⟩
    · obtain ⟨hmem, hfresh⟩ := h'.fresh c hc
      refine ⟨List.mem_cons_of_mem _ hmem, fun hold => hfresh ?_⟩
      rw [h.keys]
      exact List.mem_append_left _ hold
  · rcases List.mem_cons.mp hc with rfl | hc
    · rw [h'.keys]
      exact List.mem_append_left _ (h.met c List.mem_cons_self)
    · exact h'.met c hc

/-- No edge led to the other side. Kind: L -/
theorem grown_of_spread {other : Dict α (List α)} : ∀ {f : Front α}, f.spread other path bs = .inr f' →
    (∀ b ∈ bs, b ∉ other.keys) ∧ ∃ new, Grown path bs f f' new := by
  induction bs with
  | nil =>
    intro f h
    obtain rfl := Sum.inr.inj h
    refine ⟨fun b hb => absurd hb List.not_mem_nil, [], ?_, ?_, ?_, fun b hb => absurd hb List.not_mem_nil⟩
    · simp
    · simp
    · exact fun b hb => absurd hb List.not_mem_nil
  | cons b bs ih =>
    intro f h
    rw [Front.spread] at h
    rcases hb : other.get? b with _ | rest
    · rw [hb] at h
      obtain ⟨hnone, new', hgrown'⟩ := ih h
      obtain ⟨new, hgrown⟩ := grown_met path b f
      refine ⟨fun c hc => ?_, new ++ new', hgrown.cons hgrown'⟩
      rcases List.mem_cons.mp hc with rfl | hc
      · exact Dict.get?_eq_none.mp hb
      · exact hnone c hc
    · rw [hb] at h
      cases h

/-- An edge led to the other side. Kind: L -/
theorem exists_of_spread {other : Dict α (List α)} {rest : List α} : ∀ {f : Front α},
    f.spread other path bs = .inl rest → ∃ b ∈ bs, (b, rest) ∈ other.entries := by
  induction bs with
  | nil => exact fun h => nomatch h
  | cons b bs ih =>
    intro f h
    rw [Front.spread] at h
    rcases hb : other.get? b with _ | rest'
    · grind
    · grind [List.mem_cons_self, Dict.mem_entries]

theorem spread_start (a : α) : Spread succ a 0 (Front.start a) := by
  have hentries : (Front.start a).ways.entries = [(a, [a])] := rfl
  refine ⟨rfl, List.mem_cons_self, fun e he => ?_, fun e he path hwalk => ?_, ?_, fun e he e' he' => ?_, fun e he => ?_⟩
  · rw [hentries] at he
    rw [List.mem_singleton.mp he]
    exact ⟨rfl, rfl, List.isChain_singleton a⟩
  · rw [hentries] at he
    rw [List.mem_singleton.mp he]
    exact List.length_pos_iff.mpr hwalk.ne_nil
  · rw [hentries]
    exact List.pairwise_singleton _ _
  · simp_all
  · exact absurd he List.not_mem_nil

omit [DecidableEq α] in
/-- No way is more than an edge longer than that to the next node. Kind: L -/
theorem Spread.window_head (h : Spread succ start i f) {before after : List (α × List α)}
    (hentries : f.ways.entries = before ++ (a, path) :: after) (hi : before.length = i) :
    ∀ e ∈ f.ways.entries, e.2.length ≤ path.length + 1 := by
  have hhead : (a, path) ∈ f.ways.entries.drop (i - 1) := by grind
  exact fun e he => h.window _ hhead e he

/-- **A side stays what it is when the edges of one more node have been followed.** Kind: P -/
theorem Spread.grow (h : Spread succ start i f) {before after : List (α × List α)} {new : List α}
    (hentries : f.ways.entries = before ++ (a, path) :: after) (hi : before.length = i)
    (hgrown : Grown path (succ a) ⟨f.ways, after.map Prod.fst⟩ f' new) : Spread succ start (i + 1) f' := by
  have hmem : (a, path) ∈ f.ways.entries := by simp_all
  have hnew : ∀ e ∈ new.map (fun b => (b, path ++ [b])), e.2.length = path.length + 1 ∧ e.1 ∈ succ a ∧
      e.1 ∉ f.ways.keys ∧ e.2 = path ++ [e.1] := by
    intro e he
    obtain ⟨b, hb, rfl⟩ := List.mem_map.mp he
    obtain ⟨hsucc, hfresh⟩ := hgrown.fresh b hb
    exact ⟨List.length_append, hsucc, hfresh, rfl⟩
  have hdrop : (f.ways.entries).drop i = (a, path) :: after := by
    rw [hentries, ← hi, List.drop_left]
  have hold := h.window_head hentries hi
  have hlater : ∀ e ∈ after, path.length ≤ e.2.length := by
    have hsorted := h.sorted
    rw [hentries] at hsorted
    exact (List.pairwise_cons.mp (List.pairwise_append.mp hsorted).2.1).1
  have hall : f'.ways.entries = (before ++ [(a, path)]) ++ (after ++ new.map fun b => (b, path ++ [b])) := by
    rw [hgrown.entries]
    dsimp only
    rw [hentries]
    simp
  have hlength : (before ++ [(a, path)]).length = i + 1 := by
    rw [List.length_append, hi, List.length_singleton]
  refine ⟨?_, ?_, fun e he => ?_, fun e he q hwalk => ?_, ?_, fun e he e' he' => ?_, fun e he b hb => ?_⟩
  · rw [hall, ← hlength, List.drop_left, hgrown.queue, List.map_append, List.map_map]
    exact congrArg _ (List.map_id new).symm
  · rw [hgrown.keys]
    exact List.mem_append_left _ h.start_mem
  · rw [hgrown.entries] at he
    rcases List.mem_append.mp he with he | he
    · exact h.walk e he
    · obtain ⟨-, hsucc, -, hway⟩ := hnew e he
      rw [hway]
      exact (h.walk _ hmem).snoc hsucc
  · rw [hgrown.entries] at he
    rcases List.mem_append.mp he with he | he
    · exact h.least e he q hwalk
    · obtain ⟨hlen, -, hfresh, -⟩ := hnew e he
      rw [hlen]
      exact h.far hentries hi _ hfresh hwalk rfl
  · rw [hgrown.entries]
    refine List.pairwise_append.mpr ⟨h.sorted, ?_, fun e he e' he' => ?_⟩
    · exact List.pairwise_iff_forall_sublist.mpr fun {e e'} hsub => by
        rw [(hnew e (hsub.subset List.mem_cons_self)).1,
          (hnew e' (hsub.subset (List.mem_cons_of_mem _ List.mem_cons_self))).1]
    · rw [(hnew e' he').1]
      exact hold e he
  · have hat : path.length ≤ e.2.length := by
      rw [Nat.add_sub_cancel, hgrown.entries] at he
      dsimp only at he
      rw [List.drop_append_of_le_length (by rw [hentries, List.length_append, hi]; omega), hdrop] at he
      rcases List.mem_append.mp he with he | he
      · grind
      · rw [(hnew e he).1]
        exact Nat.le_succ _
    have hle : e'.2.length ≤ path.length + 1 := by grind
    omega
  · rw [hall, ← hlength, List.take_left] at he
    rcases List.mem_append.mp he with he | he
    · have htake : e ∈ f.ways.entries.take i := by
        rw [hentries, ← hi, List.take_left]
        exact he
      rw [hgrown.keys]
      exact List.mem_append_left _ (h.closed e htake b hb)
    · rw [List.mem_singleton.mp he] at hb
      exact hgrown.met b hb

end side

/-! ## The two sides -/

section meeting

variable [DecidableEq α] {succ pred : α → List α} {start target : α}

omit [DecidableEq α] in
/-- A walk the other way. Kind: L -/
theorem IsWalk.reverse (hinv : ∀ a b, b ∈ succ a ↔ a ∈ pred b) {a b : α} {q : List α} (h : IsWalk succ a b q) :
    IsWalk pred b a q.reverse := by
  refine ⟨?_, ?_, ?_⟩
  · rw [List.head?_reverse]
    exact h.last
  · rw [List.getLast?_reverse]
    exact h.head
  · rw [List.isChain_reverse]
    exact h.chain.imp fun x y hy => (hinv x y).mp hy

omit [DecidableEq α] in
/-- A walk as far as a node, and from the next one on. Kind: L -/
theorem IsWalk.join {a b c d : α} {p q : List α} (hp : IsWalk succ a b p) (hb : c ∈ succ b) (hq : IsWalk succ c d q) :
    IsWalk succ a d (p ++ q) := by
  refine ⟨?_, ?_, ?_⟩
  · rw [List.head?_append_of_ne_nil p hp.ne_nil]
    exact hp.head
  · rw [List.getLast?_append_of_ne_nil p hq.ne_nil]
    exact hq.last
  · refine List.isChain_append.mpr ⟨hp.chain, hq.chain, fun x hx y hy => ?_⟩
    rw [Option.mem_def, hp.last] at hx
    rw [Option.mem_def, hq.head] at hy
    obtain rfl := Option.some.inj hx
    obtain rfl := Option.some.inj hy
    exact hb

/-- Two sides that have no node in common. Kind: D -/
structure Apart (succ pred : α → List α) (start target : α) (i j : ℕ) (f r : Front α) : Prop where
  ahead : Spread succ start i f
  back : Spread pred target j r
  disjoint : ∀ a ∈ f.ways.keys, a ∉ r.ways.keys

omit [DecidableEq α] in
theorem IsWalk.left {a b x : α} {p q : List α} (h : IsWalk succ a b (p ++ x :: q)) : IsWalk succ a x (p ++ [x]) := by
  rw [List.append_cons] at h
  refine ⟨?_, List.getLast?_concat, (List.isChain_append.mp h.chain).1⟩
  rw [← List.head?_append_of_ne_nil (p ++ [x]) (List.append_ne_nil_of_right_ne_nil p (List.cons_ne_nil x []))]
  exact h.head

omit [DecidableEq α] in
theorem IsWalk.right {a b x : α} {p q : List α} (h : IsWalk succ a b (p ++ x :: q)) : IsWalk succ x b (x :: q) := by
  refine ⟨rfl, ?_, (List.isChain_append.mp h.chain).2.1⟩
  rw [← List.getLast?_append_of_ne_nil p (List.cons_ne_nil x q)]
  exact h.last

omit [DecidableEq α] in
/-- A walk that comes back to a node is not the shortest. Kind: L -/
theorem IsWalk.nodup {a b : α} {q : List α} (h : IsWalk succ a b q)
    (hleast : ∀ path, IsWalk succ a b path → q.length ≤ path.length) : q.Nodup := by
  rw [List.nodup_iff_sublist]
  intro x hsub
  obtain ⟨r, s, rfl, hr, hs⟩ := List.cons_sublist_iff.mp hsub
  obtain ⟨p, p', rfl⟩ := List.append_of_mem hr
  obtain ⟨t, t', rfl⟩ := List.append_of_mem (List.singleton_sublist.mp hs)
  -- without the part between the two visits, the walk is shorter
  have hwalk : IsWalk succ a b (p ++ x :: p' ++ t ++ x :: t') := by simpa using h
  have hfirst : IsWalk succ a b (p ++ x :: (p' ++ t ++ x :: t')) := by simpa using hwalk
  have hleft := hfirst.left
  have hright := hwalk.right
  have hshort : IsWalk succ a b (p ++ x :: t') := by
    refine ⟨?_, ?_, ?_⟩
    · have hhead := hleft.head
      rcases p with _ | ⟨c, p⟩
      · exact hhead
      · exact hhead
    · rw [List.getLast?_append_of_ne_nil p (List.cons_ne_nil x t')]
      exact hright.last
    · rw [List.append_cons, List.isChain_append]
      refine ⟨hleft.chain, (List.isChain_cons.mp hright.chain).2, fun y hy z hz => ?_⟩
      rw [Option.mem_def, List.getLast?_concat] at hy
      obtain rfl := Option.some.inj hy
      exact (List.isChain_cons.mp hright.chain).1 z hz
  have hle := hleast _ hshort
  simp only [List.length_append, List.length_cons] at hle
  omega

omit [DecidableEq α] in
/-- The first of a list that a property does not hold of. Kind: L -/
theorem exists_leaving {P : α → Prop} {q : List α} (h : ∃ y ∈ q, ¬P y) :
    ∃ q₁ x q₂, q = q₁ ++ x :: q₂ ∧ (∀ y ∈ q₁, P y) ∧ ¬P x := by
  induction q with
  | nil =>
    obtain ⟨y, hy, -⟩ := h
    exact absurd hy List.not_mem_nil
  | cons a q ih =>
    by_cases ha : P a
    · obtain ⟨y, hy, hnot⟩ := h
      have hy' : y ∈ q := by grind
      obtain ⟨q₁, x, q₂, rfl, hall, hx⟩ := ih ⟨y, hy', hnot⟩
      refine ⟨a :: q₁, x, q₂, rfl, fun z hz => ?_, hx⟩
      rcases List.mem_cons.mp hz with rfl | hz
      · exact ha
      · exact hall z hz
    · exact ⟨[], a, q, rfl, fun z hz => absurd hz List.not_mem_nil, ha⟩

variable {i j : ℕ} {f r : Front α} {a b : α} {path pathR q : List α} {before after beforeR afterR : List (α × List α)}

/-- **A walk is at least as long as the next nodes of the two sides are far.** Kind: P -/
theorem Apart.le_length (hinv : ∀ a b, b ∈ succ a ↔ a ∈ pred b) (h : Apart succ pred start target i j f r)
    (hf : f.ways.entries = before ++ (a, path) :: after) (hi : before.length = i)
    (hr : r.ways.entries = beforeR ++ (b, pathR) :: afterR) (hj : beforeR.length = j)
    (hwalk : IsWalk succ start target q) : path.length + pathR.length ≤ q.length := by
  have hleaves : ∃ y ∈ q, ¬y ∈ f.ways.keys :=
    ⟨target, List.mem_of_getLast? hwalk.last, fun hmem => h.disjoint target hmem h.back.start_mem⟩
  obtain ⟨q₁, x, q₂, rfl, hall, hx⟩ := exists_leaving hleaves
  rcases List.eq_nil_or_concat' q₁ with rfl | ⟨q₁, y, rfl⟩
  · obtain rfl := Option.some.inj hwalk.head
    exact absurd h.ahead.start_mem hx
  · have hy : y ∉ r.ways.keys := h.disjoint y (hall y (List.mem_append_right _ List.mem_cons_self))
    have hforth := h.ahead.far hf hi _ hx hwalk.left rfl
    have hwalkR := hwalk
    rw [List.append_assoc, List.singleton_append] at hwalkR
    have hback := h.back.far hr hj _ hy (hwalkR.right.reverse hinv) rfl
    simp only [List.length_append, List.length_cons, List.length_nil, List.length_reverse] at hforth hback ⊢
    omega

omit [DecidableEq α] in
/-- Neither side can run out while there is a walk. Kind: L -/
theorem Apart.queue_ne_nil (hinv : ∀ a b, b ∈ succ a ↔ a ∈ pred b) (h : Apart succ pred start target i j f r)
    (hwalk : IsWalk succ start target q) : f.queue ≠ [] ∧ r.queue ≠ [] := by
  constructor
  · exact fun hqueue => h.disjoint target (h.ahead.all hqueue _ hwalk rfl) h.back.start_mem
  · exact fun hqueue => h.disjoint start h.ahead.start_mem (h.back.all hqueue _ (hwalk.reverse hinv) rfl)

/-- The nodes on a way have been met. Kind: L -/
theorem Spread.mem_way (h : Spread succ start i f) {e : α × List α} (he : e ∈ f.ways.entries) {x : α} (hx : x ∈ e.2) :
    x ∈ f.ways.keys := by
  obtain ⟨p, p', heq⟩ := List.append_of_mem hx
  have hwalk := h.walk e he
  rw [heq] at hwalk
  rcases hqueue : f.queue with _ | ⟨a, fs⟩
  · exact h.all hqueue _ hwalk.left rfl
  · obtain ⟨before, path, after, hentries, hi, -⟩ := h.head hqueue
    by_contra hnot
    have hfar := h.far hentries hi _ hnot hwalk.left rfl
    have hlong := h.window_head hentries hi e he
    rcases p' with _ | ⟨y, p'⟩
    · -- the last node of a way is where it leads
      have hlast := hwalk.last
      rw [List.getLast?_concat] at hlast
      exact hnot (Option.some.inj hlast ▸ List.mem_map_of_mem he)
    · rw [heq] at hlong
      simp only [List.length_append, List.length_cons, List.length_nil] at hfar hlong
      omega

/-- A way of one side and a way of the other, with no node met on both, make a walk without repeated nodes. Kind: L -/
theorem nodup_ways {f r : Front α} {e e' : α × List α} (hf : Spread succ start i f) (hr : Spread pred target j r)
    (hdisjoint : ∀ a ∈ f.ways.keys, a ∉ r.ways.keys) (he : e ∈ f.ways.entries) (he' : e' ∈ r.ways.entries) :
    (e.2 ++ e'.2.reverse).Nodup := by
  refine List.nodup_append.mpr ⟨(hf.walk e he).nodup (hf.least e he),
    List.nodup_reverse.mpr ((hr.walk e' he').nodup (hr.least e' he')), fun x hx y hy heq => ?_⟩
  subst heq
  exact hdisjoint x (hf.mem_way he hx) (hr.mem_way he' (List.mem_reverse.mp hy))

/-! ## A round -/

/-- What a round finds that begins with these two sides. Kind: D -/
def FoundWalk (succ : α → List α) (start target : α) (i : ℕ) (f r : Front α) (w : List α) : Prop :=
  ∃ before a path after beforeR b pathR afterR, f.ways.entries = before ++ (a, path) :: after ∧ before.length = i ∧
    r.ways.entries = beforeR ++ (b, pathR) :: afterR ∧ beforeR.length = i ∧ IsWalk succ start target w ∧ w.Nodup ∧
      w.length ≤ path.length + pathR.length + 1

/-- **A round ends the search, or leaves two sides without a common node.** Kind: P -/
theorem Apart.round (hinv : ∀ a b, b ∈ succ a ↔ a ∈ pred b) (h : Apart succ pred start target i i f r) (n : ℕ) :
    (meet succ pred (n + 1) f r = [] ∧ (f.queue = [] ∨ r.queue = [])) ∨
      FoundWalk succ start target i f r (meet succ pred (n + 1) f r) ∨
        ∃ f' r', Apart succ pred start target (i + 1) (i + 1) f' r' ∧
          meet succ pred (n + 1) f r = meet succ pred n f' r' := by
  rw [meet]
  rcases hqueue : f.queue with _ | ⟨a, fs⟩
  · exact .inl ⟨rfl, .inl rfl⟩
  rcases hqueueR : r.queue with _ | ⟨b, rs⟩
  · exact .inl ⟨rfl, .inr rfl⟩
  right
  obtain ⟨before, path, after, hentries, hi, rfl⟩ := h.ahead.head hqueue
  obtain ⟨beforeR, pathR, afterR, hentriesR, hj, rfl⟩ := h.back.head hqueueR
  have hmemF : (a, path) ∈ f.ways.entries := hentries ▸ List.mem_append_right _ List.mem_cons_self
  have hmemR : (b, pathR) ∈ r.ways.entries := hentriesR ▸ List.mem_append_right _ List.mem_cons_self
  have hway : IsWalk succ start a path := h.ahead.walk (a, path) hmemF
  have hwayR : IsWalk pred target b pathR := h.back.walk (b, pathR) hmemR
  have hinv' : ∀ a b, b ∈ pred a ↔ a ∈ succ b := fun a b => (hinv b a).symm
  dsimp only
  rw [way_eq hentries, way_eq hentriesR]
  rcases hspread : Front.spread r.ways path (succ a) ⟨f.ways, after.map Prod.fst⟩ with rest | f'
  · left
    obtain ⟨c, hc, hmem⟩ := exists_of_spread hspread
    have hrest := (h.back.walk _ hmem).reverse hinv'
    have hlong : rest.length ≤ pathR.length + 1 := h.back.window_head hentriesR hj _ hmem
    refine ⟨before, a, path, after, beforeR, b, pathR, afterR, hentries, hi, hentriesR, hj, hway.join hc hrest,
      nodup_ways h.ahead h.back h.disjoint hmemF hmem, ?_⟩
    rw [List.length_append, List.length_reverse]
    omega
  · obtain ⟨hnone, new, hgrown⟩ := grown_of_spread hspread
    have hahead := h.ahead.grow hentries hi hgrown
    have hdisjoint : ∀ c ∈ f'.ways.keys, c ∉ r.ways.keys := by
      intro c hc
      rw [hgrown.keys] at hc
      rcases List.mem_append.mp hc with hc | hc
      · exact h.disjoint c hc
      · exact hnone c (hgrown.fresh c hc).1
    dsimp only
    rcases hspreadR : Front.spread f'.ways pathR (pred b) ⟨r.ways, afterR.map Prod.fst⟩ with rest | r'
    · left
      obtain ⟨c, hc, hmem⟩ := exists_of_spread hspreadR
      have hlong : rest.length ≤ path.length + 1 := by
        refine hahead.window (a, path) ?_ _ hmem
        rw [Nat.add_sub_cancel, hgrown.entries]
        dsimp only
        rw [hentries, List.append_assoc, ← hi, List.drop_left]
        exact List.mem_cons_self
      refine ⟨before, a, path, after, beforeR, b, pathR, afterR, hentries, hi, hentriesR, hj,
        (hahead.walk _ hmem).join ((hinv c b).mpr hc) (hwayR.reverse hinv'),
        nodup_ways hahead h.back hdisjoint hmem hmemR, ?_⟩
      rw [List.length_append, List.length_reverse]
      omega
    · right
      obtain ⟨hnoneR, newR, hgrownR⟩ := grown_of_spread hspreadR
      refine ⟨f', r', ⟨hahead, h.back.grow hentriesR hj hgrownR, fun c hc hcR => ?_⟩, rfl⟩
      rw [hgrownR.keys] at hcR
      rcases List.mem_append.mp hcR with hcR | hcR
      · exact hdisjoint c hc hcR
      · exact hnoneR c (hgrownR.fresh c hcR).1 hc

/-- The search as a whole: it stops with nothing, or with what its last round finds. Kind: P -/
theorem Apart.run (hinv : ∀ a b, b ∈ succ a ↔ a ∈ pred b) (n : ℕ) : ∀ {i : ℕ} {f r : Front α},
    Apart succ pred start target i i f r → ∃ k f' r', i ≤ k ∧ Apart succ pred start target k k f' r' ∧
      ((meet succ pred n f r = [] ∧ (k = i + n ∨ f'.queue = [] ∨ r'.queue = [])) ∨
        (k < i + n ∧ FoundWalk succ start target k f' r' (meet succ pred n f r))) := by
  induction n with
  | zero => exact fun {i f r} h => ⟨i, f, r, Nat.le_refl i, h, .inl ⟨rfl, .inl rfl⟩⟩
  | succ n ih =>
    intro i f r h
    rcases h.round hinv n with ⟨hnil, hempty⟩ | hfound | ⟨f', r', hnext, heq⟩
    · exact ⟨i, f, r, Nat.le_refl i, h, .inl ⟨hnil, .inr hempty⟩⟩
    · exact ⟨i, f, r, Nat.le_refl i, h, .inr ⟨by omega, hfound⟩⟩
    · obtain ⟨k, f'', r'', hle, hlast, hout⟩ := ih hnext
      rw [heq]
      refine ⟨k, f'', r'', Nat.le_of_succ_le hle, hlast,
        hout.imp (fun ⟨hnil, hk⟩ => ⟨hnil, hk.imp_left fun hk => ?_⟩) fun ⟨hk, hfound⟩ => ⟨?_, hfound⟩⟩
      · omega
      · omega

/-! ## How far the sides come -/

/-- As many nodes as are nearer than a distance have been left behind before a way is longer. Kind: L -/
theorem Spread.length_le (h : Spread succ start i f) (hf : f.ways.entries = before ++ (a, path) :: after)
    (hi : before.length = i) {k : ℕ} (hcard : i < (nearer succ start k).card) : path.length ≤ k := by
  by_contra hlong
  have hsub : nearer succ start k ⊆ (before.map Prod.fst).toFinset := by
    intro x hx
    obtain ⟨p, hwalk, hlength⟩ := mem_nearer.mp hx
    have hmet : x ∈ f.ways.keys := by
      by_contra hnot
      have hfar := h.far hf hi _ hnot hwalk rfl
      omega
    obtain ⟨e, hmem, rfl⟩ := List.mem_map.mp hmet
    have hleast := h.least e hmem p hwalk
    have hsorted := h.sorted
    rw [hf] at hmem hsorted
    rcases List.mem_append.mp hmem with hmem | hmem
    · exact List.mem_toFinset.mpr (List.mem_map_of_mem hmem)
    · have hle : path.length ≤ e.2.length := by
        rcases List.mem_cons.mp hmem with rfl | hmem
        · exact Nat.le_refl _
        · grind [List.pairwise_cons]
      omega
  have hle := (Finset.card_le_card hsub).trans (List.toFinset_card_le _)
  rw [List.length_map] at hle
  omega

/-- With as many nodes left behind as are nearer than a distance, what is at that distance has been met. Kind: L -/
theorem Spread.mem_keys (h : Spread succ start i f) {k : ℕ} (hcard : (nearer succ start k).card ≤ i)
    (hwalk : IsWalk succ start b q) (hq : q.length = k + 1) : b ∈ f.ways.keys := by
  rcases hqueue : f.queue with _ | ⟨c, cs⟩
  · exact h.all hqueue _ hwalk rfl
  · obtain ⟨before, path, after, hf, hi, -⟩ := h.head hqueue
    by_contra hnot
    have hfar := h.far hf hi _ hnot hwalk hq
    have hnodup : ((before ++ [(c, path)]).map Prod.fst).Nodup := by
      have hkeys := f.ways.nodup
      rw [hf, List.append_cons, List.map_append] at hkeys
      exact (List.nodup_append.mp hkeys).1
    have hsub : ((before ++ [(c, path)]).map Prod.fst).toFinset ⊆ nearer succ start k := by
      intro x hx
      obtain ⟨e, he, rfl⟩ := List.mem_map.mp (List.mem_toFinset.mp hx)
      have hsorted := h.sorted
      rw [hf] at hsorted
      have hmem : e ∈ f.ways.entries := by grind
      have hle : e.2.length ≤ path.length := by
        rcases List.mem_append.mp he with he | he
        · grind [List.mem_cons_self]
        · rw [List.mem_singleton.mp he]
      exact mem_nearer.mpr ⟨e.2, h.walk e hmem, by omega⟩
    have hle := Finset.card_le_card hsub
    rw [List.toFinset_card_of_nodup hnodup, List.length_map, List.length_append, List.length_singleton, hi] at hle
    omega

/-! ## The search from a start and a target -/

theorem apart_start (h : start ≠ target) :
    Apart succ pred start target 0 0 (Front.start start) (Front.start target) := by
  refine ⟨spread_start start, spread_start target, fun c hc hcR => h ?_⟩
  obtain rfl : c = start := List.mem_singleton.mp hc
  exact List.mem_singleton.mp hcR

omit [DecidableEq α] in
theorem two_le_length (h : start ≠ target) (hwalk : IsWalk succ start target q) : 2 ≤ q.length := by
  rcases hwalk.before with ⟨-, heq⟩ | ⟨a, q', rfl, hwalk', -⟩
  · exact absurd heq.symm h
  · have hpos := List.length_pos_iff.mpr hwalk'.ne_nil
    rw [List.length_append, List.length_singleton]
    omega

omit [DecidableEq α] in
theorem three_le_length (h : start ≠ target) (hnot : target ∉ succ start) (hwalk : IsWalk succ start target q) :
    3 ≤ q.length := by
  rcases hwalk.before with ⟨-, heq⟩ | ⟨a, q', rfl, hwalk', ha⟩
  · exact absurd heq.symm h
  · have hne : start ≠ a := by
      rintro rfl
      exact hnot ha
    have htwo := two_le_length hne hwalk'
    rw [List.length_append, List.length_singleton]
    omega

/-- What the first round finds is as short as can be. Kind: L -/
theorem first_round (h : start ≠ target) {n : ℕ} :
    (∃ f r, Apart succ pred start target 1 1 f r ∧
        meet succ pred (n + 1) (Front.start start) (Front.start target) = meet succ pred n f r) ∨
      ∀ q, IsWalk succ start target q →
        (meet succ pred (n + 1) (Front.start start) (Front.start target)).length ≤ q.length := by
  rw [meet]
  dsimp only [Front.start]
  have hway : ∀ c : α, (Dict.empty.set c [c]).getD c [] = [c] := fun c => Dict.getD_set_self _ _ _ _
  have hentries : ∀ c : α, (Front.start c).ways.entries = [] ++ (c, [c]) :: [] := fun c => rfl
  rw [hway start, hway target]
  rcases hspread : Front.spread (Dict.empty.set target [target]) [start] (succ start)
      ⟨Dict.empty.set start [start], []⟩ with rest | f
  · right
    obtain ⟨c, -, hmem⟩ := exists_of_spread hspread
    obtain ⟨-, rfl⟩ := Prod.mk.inj (List.mem_singleton.mp hmem)
    exact fun q hq => two_le_length h hq
  · obtain ⟨hnone, new, hgrown⟩ := grown_of_spread hspread
    have hnot : target ∉ succ start := fun hmem => hnone target hmem List.mem_cons_self
    have hahead := (spread_start start).grow (hentries start) rfl hgrown
    have hdisjoint : ∀ c ∈ f.ways.keys, c ∉ (Dict.empty.set target [target]).keys := by
      intro c hc hcR
      obtain rfl : c = target := List.mem_singleton.mp hcR
      rw [hgrown.keys] at hc
      rcases List.mem_append.mp hc with hc | hc
      · exact h (List.mem_singleton.mp hc).symm
      · exact hnot (hgrown.fresh c hc).1
    dsimp only
    rcases hspreadR : Front.spread f.ways [target] (pred target) ⟨Dict.empty.set target [target], []⟩ with rest | r
    · right
      obtain ⟨c, hc, hmem⟩ := exists_of_spread hspreadR
      have hlong : rest.length ≤ 2 := by
        have hmem' := hmem
        rw [hgrown.entries] at hmem'
        rcases List.mem_append.mp hmem' with hmem' | hmem'
        · obtain ⟨-, rfl⟩ := Prod.mk.inj (List.mem_singleton.mp hmem')
          exact Nat.le_succ 1
        · grind
      intro q hq
      have hthree := three_le_length h hnot hq
      simp only [List.length_append, List.length_reverse, List.length_singleton]
      omega
    · left
      obtain ⟨hnoneR, newR, hgrownR⟩ := grown_of_spread hspreadR
      refine ⟨f, r, ⟨hahead, (spread_start target).grow (hentries target) rfl hgrownR, fun c hc hcR => ?_⟩, rfl⟩
      rw [hgrownR.keys] at hcR
      rcases List.mem_append.mp hcR with hcR | hcR
      · exact hdisjoint c hc hcR
      · exact hnoneR c (hgrownR.fresh c hcR).1 hc

/-- No walk where both sides have left behind what is nearer than two distances that make it up. Kind: L -/
theorem Apart.not_isWalk (hinv : ∀ a b, b ∈ succ a ↔ a ∈ pred b) (h : Apart succ pred start target i j f r) {x y : ℕ}
    (hq : q.length = x + y + 1) (hx : (nearer succ start x).card ≤ i) (hy : (nearer pred target y).card ≤ j) :
    ¬IsWalk succ start target q := by
  intro hwalk
  obtain ⟨q₁, z, q₂, rfl, hlength⟩ : ∃ q₁ z q₂, q = q₁ ++ z :: q₂ ∧ q₁.length = x := by
    have hlt : x < q.length := by omega
    refine ⟨q.take x, q[x], q.drop (x + 1), ?_, ?_⟩
    · rw [List.cons_getElem_drop_succ, List.take_append_drop]
    · rw [List.length_take]
      omega
  simp only [List.length_append, List.length_cons] at hq
  refine h.disjoint z (h.ahead.mem_keys hx hwalk.left ?_) (h.back.mem_keys hy (hwalk.right.reverse hinv) ?_)
  · rw [List.length_append, hlength, List.length_singleton]
  · rw [List.length_reverse, List.length_cons]
    omega

theorem card_nearer_one : (nearer succ start 1).card = 1 := rfl

/-- **What the search finds is a walk without repeated nodes, at most one edge longer than any other, and no longer where some walk
has fewer than three edges.** Kind: P -/
theorem meet_spec (hinv : ∀ a b, b ∈ succ a ↔ a ∈ pred b) (h : start ≠ target) {n : ℕ} {w : List α}
    (hw : meet succ pred n (Front.start start) (Front.start target) = w) (hne : w ≠ []) :
    IsWalk succ start target w ∧ w.Nodup ∧ (∀ q, IsWalk succ start target q → w.length ≤ q.length + 1) ∧
      ((∀ q, IsWalk succ start target q → w.length ≤ q.length) ∨ ∀ q, IsWalk succ start target q → 4 ≤ q.length) := by
  obtain ⟨k, f, r, -, hapart, ⟨hnil, -⟩ | ⟨hk, hfound⟩⟩ := (apart_start h).run hinv n
  · exact absurd (hw.symm.trans hnil) hne
  rw [hw] at hfound
  obtain ⟨before, a, path, after, beforeR, b, pathR, afterR, hf, hi, hr, hj, hwalk, hnodup, hlength⟩ := hfound
  refine ⟨hwalk, hnodup, fun q hq => ?_, ?_⟩
  · have hle := hapart.le_length hinv hf hi hr hj hq
    omega
  · obtain ⟨n, rfl⟩ : ∃ n', n = n' + 1 := Nat.exists_eq_succ_of_ne_zero (by omega)
    rcases first_round h with ⟨f, r, hone, -⟩ | hshort
    · -- a walk of one or two edges would have been met
      refine .inr fun q hq => ?_
      have htwo := two_le_length h hq
      by_contra hless
      have hx := @card_nearer_one α _ succ start
      rcases Nat.lt_or_eq_of_le htwo with hthree | htwo
      · exact hone.not_isWalk hinv (x := 1) (y := 1) (by omega) (Nat.le_of_eq hx) (Nat.le_of_eq card_nearer_one) hq
      · exact hone.not_isWalk hinv (x := 1) (y := 0) (by omega) (Nat.le_of_eq hx) (Nat.zero_le 1) hq
    · rw [hw] at hshort
      exact .inl hshort

/-- Enough rounds for the nodes nearer than two distances, one on each side, that make up a walk. Kind: P -/
theorem meet_ne_nil (hinv : ∀ a b, b ∈ succ a ↔ a ∈ pred b) (h : start ≠ target) {n x y : ℕ}
    (hwalk : IsWalk succ start target q) (hq : q.length = x + y + 1) (hx : (nearer succ start x).card ≤ n)
    (hy : (nearer pred target y).card ≤ n) : meet succ pred n (Front.start start) (Front.start target) ≠ [] := by
  obtain ⟨k, f, r, -, hapart, ⟨-, hk | hempty⟩ | ⟨-, hfound⟩⟩ := (apart_start h).run hinv n
  · rw [Nat.zero_add] at hk
    rw [← hk] at hx hy
    exact absurd hwalk (hapart.not_isWalk hinv hq hx hy)
  · obtain ⟨hf, hr⟩ := hapart.queue_ne_nil hinv hwalk
    exact absurd hempty (not_or.mpr ⟨hf, hr⟩)
  · obtain ⟨-, -, -, -, -, -, -, -, -, -, -, -, hfound, -⟩ := hfound
    exact hfound.ne_nil

/-- Too few rounds to leave the nodes nearer than two distances that fall short of every walk. Kind: P -/
theorem meet_eq_nil (hinv : ∀ a b, b ∈ succ a ↔ a ∈ pred b) (h : start ≠ target) {n x y : ℕ}
    (hfar : ∀ q, IsWalk succ start target q → x + y + 1 < q.length) (hx : n ≤ (nearer succ start x).card)
    (hy : n ≤ (nearer pred target y).card) : meet succ pred n (Front.start start) (Front.start target) = [] := by
  obtain ⟨k, f, r, -, hapart, ⟨hnil, -⟩ | ⟨hk, hfound⟩⟩ := (apart_start h).run hinv n
  · exact hnil
  · exfalso
    obtain ⟨before, a, path, after, beforeR, b, pathR, afterR, hf, hi, hr, hj, hwalk, -, hlength⟩ := hfound
    have hpath := hapart.ahead.length_le hf hi (k := x) (by omega)
    have hpathR := hapart.back.length_le hr hj (k := y) (by omega)
    have hlong := hfar _ hwalk
    omega

end meeting

end KarsaSec.Found
