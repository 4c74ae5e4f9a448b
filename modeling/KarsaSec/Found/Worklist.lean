import KarsaSec.Found.ShortestWalk
import Mathlib.Logic.Relation
import Mathlib.Order.WellFounded

/-!
# Loops over a worklist

A loop as its step, and searches over a graph that are loops of this kind.

* `Returns` says what a loop returns. `returns_of_invariant` is the rule of total correctness: an invariant that the
  step keeps, and a well-founded order in which it goes down.
* `visitStep` takes a node from a worklist, keeps it where it is new, and adds the nodes next to it: depth-first with a
  stack, breadth-first with a queue. `visit_total`: it returns each reachable node once.
* `seekStep` looks for one node and takes a node again as often as the queue has it. `seek_total`: it says whether the
  node can be reached; the nodes not visited and the visited ones in the queue go down together.
* `edgeStep` keeps the way as a list of edges. `edge_total`: it returns a shortest one.
-/

namespace KarsaSec.Found

/-! ## Loops -/

section loop

variable {S R : Type*} (step : S → S ⊕ R)

/-- A number of turns of a loop. Kind: D -/
def turns : ℕ → S → Option R
  | 0, _ => none
  | n + 1, s =>
    match step s with
    | .inl s' => turns n s'
    | .inr r => some r

/-- The loop ends, with this result. Kind: D -/
def Returns (s : S) (r : R) : Prop := ∃ n, turns step n s = some r

variable {step}

theorem Returns.of_step {s s' : S} {r : R} (h : step s = .inl s') (hr : Returns step s' r) : Returns step s r := by
  obtain ⟨n, hn⟩ := hr
  refine ⟨n + 1, ?_⟩
  rw [turns, h]
  exact hn

theorem Returns.of_result {s : S} {r : R} (h : step s = .inr r) : Returns step s r := by
  refine ⟨1, ?_⟩
  rw [turns, h]

theorem turns_mono {n m : ℕ} (h : n ≤ m) : ∀ {s : S} {r : R}, turns step n s = some r → turns step m s = some r := by
  induction n generalizing m with
  | zero => exact fun hn => nomatch hn
  | succ n ih =>
    intro s r hn
    obtain ⟨m, rfl⟩ : ∃ m', m = m' + 1 := Nat.exists_eq_succ_of_ne_zero (by omega)
    rw [turns] at hn ⊢
    rcases hs : step s with s' | r'
    · rw [hs] at hn
      exact ih (by omega) hn
    · rw [hs] at hn
      exact hn

/-- **A loop whose step keeps an invariant and goes down returns, from a state of the invariant.** Kind: P -/
theorem returns_of_invariant {below : S → S → Prop} (hwf : WellFounded below) {Inv : S → Prop}
    (hstep : ∀ s s', Inv s → step s = .inl s' → Inv s' ∧ below s' s) {s : S} (hs : Inv s) :
    ∃ s' r, Inv s' ∧ step s' = .inr r ∧ Returns step s r := by
  induction s using hwf.induction with
  | h s ih =>
    rcases hnext : step s with s' | r
    · obtain ⟨hinv, hbelow⟩ := hstep s s' hs hnext
      obtain ⟨s'', r, hinv', hresult, hreturns⟩ := ih s' hbelow hinv
      exact ⟨s'', r, hinv', hresult, hreturns.of_step hnext⟩
    · exact ⟨s, r, hs, hnext, .of_result hnext⟩

end loop

/-! ## What has not been visited -/

section fresh

variable {α : Type*} [DecidableEq α]

/-- The number of nodes that have not been visited. Kind: D -/
def unvisited (all visited : List α) : ℕ := (all.filter fun a => a ∉ visited).length

theorem unvisited_lt {all visited : List α} {a : α} (ha : a ∈ all) (hnew : a ∉ visited) :
    unvisited all (visited ++ [a]) < unvisited all visited := by
  unfold unvisited
  have hsub : List.Sublist (all.filter fun b => b ∉ visited ++ [a]) (all.filter fun b => b ∉ visited) := by
    simp_all [List.monotone_filter_right]
  refine lt_of_le_of_ne hsub.length_le fun heq => ?_
  have hmem : a ∈ all.filter fun b => b ∉ visited := List.mem_filter.mpr ⟨ha, decide_eq_true hnew⟩
  rw [← hsub.eq_of_length heq] at hmem
  have hnot := of_decide_eq_true (List.mem_filter.mp hmem).2
  exact hnot (List.mem_append_right _ List.mem_cons_self)

/-- Two numbers go down in order. Kind: D -/
def LexLess (m m' : ℕ × ℕ) : Prop := Prod.Lex (· < ·) (· < ·) m m'

theorem wellFounded_lexLess {S : Type*} (m : S → ℕ × ℕ) : WellFounded fun s' s => LexLess (m s') (m s) :=
  InvImage.wf m (WellFounded.prod_lex Nat.lt_wfRel.wf Nat.lt_wfRel.wf)

end fresh

/-! ## Each reachable node once -/

section visit

variable {α β : Type*} [DecidableEq α] (put : List α → List α → List α) (value : α → Option β) (next : α → List α)

/-- The worklist, the visited set, and the result. Kind: D -/
structure Visit (α β : Type*) where
  work : List α
  visited : List α
  result : List β

/-- One turn: take the next node; if it is new and there is one, keep it and add what is next to it. Kind: D -/
def visitStep (s : Visit α β) : Visit α β ⊕ List β :=
  match s.work with
  | [] => .inr s.result
  | a :: work =>
    match value a with
    | none => .inl ⟨work, s.visited, s.result⟩
    | some b =>
      if a ∈ s.visited then .inl ⟨work, s.visited, s.result⟩
      else
        let visited := s.visited ++ [a]
        .inl ⟨put ((next a).filter fun b => b ∉ visited) work, visited, s.result ++ [b]⟩

/-- A way along the edges. Kind: D -/
def Reaches (next : α → List α) : α → α → Prop := Relation.ReflTransGen fun a b => b ∈ next a

/-- What holds at each turn: the visited nodes are kept once and can be reached, and what is next to them is visited or
waits. Kind: D -/
structure Visiting (value : α → Option β) (next : α → List α) (start : α) (s : Visit α β) : Prop where
  nodup : s.visited.Nodup
  result : s.result.map some = s.visited.map value
  reached : ∀ a, a ∈ s.visited ∨ a ∈ s.work → Reaches next start a
  closed : ∀ a ∈ s.visited, ∀ b ∈ next a, b ∈ s.visited ∨ b ∈ s.work
  start : start ∈ s.visited ∨ start ∈ s.work

variable {put value next} {start : α}

omit [DecidableEq α] in
/-- A visited node is taken from the worklist. Kind: L -/
theorem Visiting.drop {a : α} {work : List α} {s : Visit α β} (h : Visiting value next start s) (hwork : s.work = a :: work)
    (ha : a ∈ s.visited) : Visiting value next start ⟨work, s.visited, s.result⟩ := by
  have hkeep : ∀ b, b ∈ s.visited ∨ b ∈ s.work → b ∈ s.visited ∨ b ∈ work := by
    intro b hb
    rw [hwork] at hb
    rcases hb with hb | hb
    · exact .inl hb
    · grind
  refine ⟨h.nodup, h.result, fun b hb => h.reached b ?_, fun b hb c hc => hkeep c (h.closed b hb c hc), hkeep start h.start⟩
  rw [hwork]
  exact hb.imp_right (List.mem_cons_of_mem a)

/-- A new node is kept. Kind: L -/
theorem Visiting.keep (hput : ∀ new work x, x ∈ put new work ↔ x ∈ new ∨ x ∈ work) {a : α} {b : β} {work : List α}
    {s : Visit α β} (h : Visiting value next start s) (hwork : s.work = a :: work) (ha : a ∉ s.visited)
    (hvalue : value a = some b) : Visiting value next start
      ⟨put ((next a).filter fun b => b ∉ s.visited ++ [a]) work, s.visited ++ [a], s.result ++ [b]⟩ := by
  have hreach : Reaches next start a := h.reached a (.inr (hwork ▸ List.mem_cons_self))
  have hkeep : ∀ c, c ∈ s.visited ∨ c ∈ s.work → c ∈ s.visited ++ [a] ∨
      c ∈ put ((next a).filter fun b => b ∉ s.visited ++ [a]) work := by
    intro c hc
    rw [hwork] at hc
    rcases hc with hc | hc
    · exact .inl (List.mem_append_left _ hc)
    · grind
  refine ⟨?_, ?_, fun c hc => ?_, fun c hc d hd => ?_, hkeep start h.start⟩
  · refine List.nodup_append.mpr ⟨h.nodup, List.nodup_singleton a, fun x hx y hy heq => ha ?_⟩
    rw [← List.mem_singleton.mp hy, ← heq]
    exact hx
  · rw [List.map_append, List.map_append, h.result, List.map_singleton, List.map_singleton, hvalue]
  · rcases hc with hc | hc
    · rcases List.mem_append.mp hc with hc | hc
      · exact h.reached c (.inl hc)
      · rw [List.mem_singleton.mp hc]
        exact hreach
    · rcases (hput _ _ _).mp hc with hc | hc
      · exact hreach.tail (List.mem_of_mem_filter hc)
      · exact h.reached c (.inr (hwork ▸ List.mem_cons_of_mem a hc))
  · rcases List.mem_append.mp hc with hc | hc
    · exact hkeep d (h.closed c hc d hd)
    · grind

/-- **The loop returns the value of each reachable node once, where every reachable node has one.** Kind: P -/
theorem visit_total (hput : ∀ new work x, x ∈ put new work ↔ x ∈ new ∨ x ∈ work) {all : List α}
    (hvalue : ∀ a, Reaches next start a → (value a).isSome) (hall : ∀ a, Reaches next start a → a ∈ all) :
    ∃ (ids : List α) (result : List β), Returns (visitStep put value next) ⟨[start], [], []⟩ result ∧ ids.Nodup ∧
      (∀ a, a ∈ ids ↔ Reaches next start a) ∧ result.map some = ids.map value := by
  have hinit : Visiting value next start ⟨[start], [], []⟩ := by
    refine ⟨List.nodup_nil, rfl, fun a ha => ?_, fun a ha => absurd ha List.not_mem_nil, .inr List.mem_cons_self⟩
    rcases ha with ha | ha
    · exact absurd ha List.not_mem_nil
    · rw [List.mem_singleton.mp ha]
      exact Relation.ReflTransGen.refl
  have hstep : ∀ s s', Visiting value next start s → visitStep put value next s = .inl s' →
      Visiting value next start s' ∧
        LexLess (unvisited all s'.visited, s'.work.length) (unvisited all s.visited, s.work.length) := by
    intro s s' hs hnext
    unfold visitStep at hnext
    rcases hwork : s.work with _ | ⟨a, work⟩
    · rw [hwork] at hnext
      cases hnext
    · rw [hwork] at hnext
      have hreach : Reaches next start a := hs.reached a (.inr (hwork ▸ List.mem_cons_self))
      obtain ⟨b, hb⟩ := Option.isSome_iff_exists.mp (hvalue a hreach)
      dsimp only at hnext
      rw [hb] at hnext
      dsimp only at hnext
      split_ifs at hnext with ha
      · obtain rfl := Sum.inl.inj hnext
        exact ⟨hs.drop hwork ha, Prod.Lex.right _ (Nat.lt_succ_self work.length)⟩
      · obtain rfl := Sum.inl.inj hnext
        exact ⟨hs.keep hput hwork ha hb, Prod.Lex.left _ _ (unvisited_lt (hall a hreach) ha)⟩
  obtain ⟨s, r, hs, hresult, hreturns⟩ := returns_of_invariant (wellFounded_lexLess _) hstep hinit
  rcases hwork : s.work with _ | ⟨a, work⟩
  · unfold visitStep at hresult
    rw [hwork] at hresult
    obtain rfl := Sum.inr.inj hresult
    refine ⟨s.visited, s.result, hreturns, hs.nodup, fun a => ⟨fun ha => hs.reached a (.inl ha), fun ha => ?_⟩, hs.result⟩
    have hdone : ∀ b, b ∈ s.visited ∨ b ∈ s.work → b ∈ s.visited := by simp_all
    induction ha with
    | refl => exact hdone start hs.start
    | tail _ hlink ih => exact hdone _ (hs.closed _ ih _ hlink)
  · unfold visitStep at hresult
    rw [hwork] at hresult
    dsimp only at hresult
    split at hresult
    · cases hresult
    · split_ifs at hresult

end visit

/-! ## Whether a node can be reached -/

section seek

variable {α : Type*} [DecidableEq α] (next : α → List α) (target : α)

/-- One turn: stop at the target, else mark the node and add what is next to it and not marked. A node that has been
marked is taken like any other. Kind: D -/
def seekStep (s : List α × List α) : (List α × List α) ⊕ Bool :=
  match s.1 with
  | [] => .inr false
  | a :: queue =>
    if a = target then .inr true
    else
      let visited := if a ∈ s.2 then s.2 else s.2 ++ [a]
      .inl (queue ++ (next a).filter fun b => b ∉ visited, visited)

/-- What holds at each turn. Kind: D -/
structure Seeking (next : α → List α) (target start : α) (s : List α × List α) : Prop where
  reached : ∀ a, a ∈ s.2 ∨ a ∈ s.1 → Reaches next start a
  closed : ∀ a ∈ s.2, ∀ b ∈ next a, b ∈ s.2 ∨ b ∈ s.1
  start : start ∈ s.2 ∨ start ∈ s.1
  target : target ∉ s.2

variable {next} {target} {start : α}

theorem Seeking.step {a : α} {queue visited : List α} (h : Seeking next target start (a :: queue, visited))
    (ha : a ≠ target) (visited' : List α) (hvisited : ∀ b, b ∈ visited' ↔ b ∈ visited ∨ b = a) :
    Seeking next target start (queue ++ (next a).filter fun b => b ∉ visited', visited') := by
  have hreach : Reaches next start a := h.reached a (.inr List.mem_cons_self)
  have hkeep : ∀ c, c ∈ visited ∨ c ∈ a :: queue → c ∈ visited' ∨ c ∈ queue ++ (next a).filter fun b => b ∉ visited' := by
    grind
  refine ⟨fun c hc => ?_, fun c hc d hd => ?_, hkeep start h.start, fun hmem => ?_⟩
  · rcases hc with hc | hc
    · rcases (hvisited c).mp hc with hc | rfl
      · exact h.reached c (.inl hc)
      · exact hreach
    · rcases List.mem_append.mp hc with hc | hc
      · exact h.reached c (.inr (List.mem_cons_of_mem a hc))
      · exact hreach.tail (List.mem_of_mem_filter hc)
  · rcases (hvisited c).mp hc with hc | rfl
    · exact hkeep d (h.closed c hc d hd)
    · grind
  · rcases (hvisited target).mp hmem with hmem | rfl
    · exact h.target hmem
    · exact ha rfl

/-- Nodes in the queue that have been marked. Kind: D -/
def stale (s : List α × List α) : ℕ := (s.1.filter fun a => a ∈ s.2).length

/-- What is added has not been marked. Kind: L -/
theorem stale_append (queue visited more : List α) :
    stale (queue ++ more.filter fun b => b ∉ visited, visited) = stale (queue, visited) := by
  have hnone : ((more.filter fun b => b ∉ visited).filter fun a => a ∈ visited) = [] := by simp
  unfold stale
  rw [List.filter_append, hnone, List.append_nil]

theorem stale_cons {a : α} {queue visited : List α} (h : a ∈ visited) :
    stale (a :: queue, visited) = stale (queue, visited) + 1 := by
  simp [stale, h]

/-- **The loop says whether the target can be reached.** Kind: P -/
theorem seek_total {all : List α} (hall : ∀ a, Reaches next start a → a ∈ all) :
    ∃ b, Returns (seekStep next target) ([start], []) b ∧ (b = true ↔ Reaches next start target) := by
  have hinit : Seeking next target start ([start], []) := by
    refine ⟨fun a ha => ?_, fun a ha => absurd ha List.not_mem_nil, .inr List.mem_cons_self, List.not_mem_nil⟩
    rcases ha with ha | ha
    · exact absurd ha List.not_mem_nil
    · rw [List.mem_singleton.mp ha]
      exact Relation.ReflTransGen.refl
  have hstep : ∀ s s', Seeking next target start s → seekStep next target s = .inl s' →
      Seeking next target start s' ∧ LexLess (unvisited all s'.2, stale s') (unvisited all s.2, stale s) := by
    rintro ⟨queue, visited⟩ s' hs hnext
    rcases queue with _ | ⟨a, queue⟩
    · cases hnext
    · unfold seekStep at hnext
      dsimp only at hnext
      have hreach : Reaches next start a := hs.reached a (.inr List.mem_cons_self)
      by_cases ha : a = target
      · rw [if_pos ha] at hnext
        cases hnext
      rw [if_neg ha] at hnext
      obtain rfl := Sum.inl.inj hnext
      by_cases hin : a ∈ visited
      · -- a marked node is taken, and only nodes that are not marked are added
        rw [if_pos hin]
        refine ⟨hs.step ha visited fun b => ⟨.inl, fun hb => hb.elim id fun heq => heq ▸ hin⟩, ?_⟩
        dsimp only
        rw [stale_append]
        refine Prod.Lex.right _ ?_
        rw [stale_cons hin]
        exact Nat.lt_succ_self _
      · rw [if_neg hin]
        refine ⟨hs.step ha (visited ++ [a]) fun b => ?_, Prod.Lex.left _ _ (unvisited_lt (hall a hreach) hin)⟩
        rw [List.mem_append, List.mem_singleton]
  obtain ⟨⟨queue, visited⟩, b, hs, hresult, hreturns⟩ := returns_of_invariant (wellFounded_lexLess _) hstep hinit
  refine ⟨b, hreturns, ?_⟩
  rcases queue with _ | ⟨a, queue⟩
  · obtain rfl := Sum.inr.inj hresult
    have hdone : ∀ c, c ∈ visited ∨ c ∈ [] → c ∈ visited := fun c hc => hc.resolve_right List.not_mem_nil
    have hvisited : ∀ c, Reaches next start c → c ∈ visited := by
      intro c hreach
      induction hreach with
      | refl => exact hdone start hs.start
      | tail _ hlink ih => exact hdone _ (hs.closed _ ih _ hlink)
    exact ⟨fun h => absurd h Bool.false_ne_true, fun hreach => absurd (hvisited target hreach) hs.target⟩
  · unfold seekStep at hresult
    dsimp only at hresult
    split_ifs at hresult with ha
    obtain rfl := Sum.inr.inj hresult
    rw [← ha]
    exact ⟨fun _ => hs.reached a (.inr List.mem_cons_self), fun _ => rfl⟩

end seek

/-! ## The shortest way as a list of edges -/

section edges

variable {α E : Type*} [DecidableEq α] (out : α → List E) (tgt : E → α) (target : α)

/-- Follow the edges of a node: stop at one into the target, else queue what has not been visited. Kind: D -/
def followEdges (path : List E) : List E → List (α × List E) → List α → List E ⊕ List (α × List E) × List α
  | [], queue, visited => .inr (queue, visited)
  | e :: es, queue, visited =>
    if tgt e = target then .inl (path ++ [e])
    else if tgt e ∈ visited then followEdges path es queue visited
    else followEdges path es (queue ++ [(tgt e, path ++ [e])]) (visited ++ [tgt e])

/-- One turn. Kind: D -/
def edgeStep (s : List (α × List E) × List α) : (List (α × List E) × List α) ⊕ List E :=
  match s.1 with
  | [] => .inr []
  | (a, path) :: queue =>
    match followEdges tgt target path (out a) queue s.2 with
    | .inl found => .inr found
    | .inr s' => .inl s'

/-- Edges one after the other from a node to a node. Kind: D -/
def Leads : α → α → List E → Prop
  | a, b, [] => a = b
  | a, b, e :: es => e ∈ out a ∧ Leads (tgt e) b es

/-- The nodes next to a node. Kind: D -/
def heads (a : α) : List α := (out a).map tgt

variable {out tgt target} {start a b : α} {path es : List E} {queue : List (α × List E)} {visited all : List α}

omit [DecidableEq α] in
theorem Leads.snoc {e : E} (h : Leads out tgt a b path) (he : e ∈ out b) : Leads out tgt a (tgt e) (path ++ [e]) := by
  induction path generalizing a with
  | nil =>
    obtain rfl : a = b := h
    exact ⟨he, rfl⟩
  | cons e' path ih => exact ⟨h.1, ih h.2⟩

omit [DecidableEq α] in
/-- The nodes on the way are a walk. Kind: L -/
theorem Leads.isWalk (h : Leads out tgt a b path) : IsWalk (heads out tgt) a b (a :: path.map tgt) := by
  induction path generalizing a with
  | nil =>
    obtain rfl : a = b := h
    exact ⟨rfl, rfl, List.isChain_singleton a⟩
  | cons e path ih =>
    have hrest := ih h.2
    refine ⟨rfl, ?_, ?_⟩
    · rw [List.map_cons, List.getLast?_cons_cons]
      exact hrest.last
    · rw [List.map_cons]
      exact List.isChain_cons_cons.mpr ⟨List.mem_map_of_mem h.1, hrest.chain⟩

/-- The queue has nodes with ways to them. Kind: D -/
def Queued (out : α → List E) (tgt : E → α) (all : List α) (start : α) (queue : List (α × List E)) : Prop :=
  ∀ i ∈ queue, i.1 ∈ all ∧ Leads out tgt start i.1 i.2

/-- What a turn queues leads from the start to its node, and a turn that queues something visits something. Kind: L -/
theorem followEdges_spec (hclosed : ∀ e ∈ es, tgt e ∈ all ∧ Leads out tgt start (tgt e) (path ++ [e])) :
    ∀ {queue : List (α × List E)} {visited : List α} {s' : List (α × List E) × List α},
      Queued out tgt all start queue → followEdges tgt target path es queue visited = .inr s' →
        Queued out tgt all start s'.1 ∧ (s' = (queue, visited) ∨ unvisited all s'.2 < unvisited all visited) := by
  induction es with
  | nil =>
    intro queue visited s' hqueue h
    obtain rfl := Sum.inr.inj h
    exact ⟨hqueue, .inl rfl⟩
  | cons e es ih =>
    intro queue visited s' hqueue h
    have hrest : ∀ e' ∈ es, tgt e' ∈ all ∧ Leads out tgt start (tgt e') (path ++ [e']) :=
      fun e' he' => hclosed e' (List.mem_cons_of_mem e he')
    rw [followEdges] at h
    split_ifs at h with hend hin
    · exact ih hrest hqueue h
    · obtain ⟨hall, hlead⟩ := hclosed e List.mem_cons_self
      have hqueue' : Queued out tgt all start (queue ++ [(tgt e, path ++ [e])]) := by
        intro i hi
        rcases List.mem_append.mp hi with hi | hi
        · exact hqueue i hi
        · rw [List.mem_singleton.mp hi]
          exact ⟨hall, hlead⟩
      have hless := unvisited_lt hall hin
      obtain ⟨hitems, rfl | hdown⟩ := ih hrest hqueue' h
      · exact ⟨hitems, .inr hless⟩
      · exact ⟨hitems, .inr (hdown.trans hless)⟩

theorem leads_of_followEdges {found : List E} (hes : ∀ e ∈ es, Leads out tgt start (tgt e) (path ++ [e])) :
    ∀ {queue : List (α × List E)} {visited : List α}, followEdges tgt target path es queue visited = .inl found →
      Leads out tgt start target found ∧ found ≠ [] := by
  induction es with
  | nil => exact fun h => nomatch h
  | cons e es ih =>
    intro queue visited h
    rw [followEdges] at h
    split_ifs at h with hend hin
    · obtain rfl := Sum.inl.inj h
      rw [← hend]
      exact ⟨hes e List.mem_cons_self, List.append_ne_nil_of_right_ne_nil _ (List.cons_ne_nil e [])⟩
    · exact ih (fun e' he' => hes e' (List.mem_cons_of_mem e he')) h
    · exact ih (fun e' he' => hes e' (List.mem_cons_of_mem e he')) h

/-! ### The nodes of the search -/

/-- An entry of the queue with its nodes. Kind: D -/
def nodesOf (tgt : E → α) (start : α) (i : α × List E) : α × List α := (i.1, start :: i.2.map tgt)

theorem follow_nodesOf : ∀ {queue : List (α × List E)} {visited : List α},
    follow id target (start :: path.map tgt) (es.map tgt) (queue.map (nodesOf tgt start)) visited =
      (followEdges tgt target path es queue visited).map (fun found => start :: found.map tgt)
        fun s => (s.1.map (nodesOf tgt start), s.2) := by
  induction es with
  | nil => exact fun {_ _} => rfl
  | cons e es ih =>
    intro queue visited
    have hsnoc : start :: path.map tgt ++ [tgt e] = start :: (path ++ [e]).map tgt := by
      rw [List.map_append, List.cons_append]
      rfl
    rw [List.map_cons, follow, followEdges, hsnoc]
    by_cases hend : tgt e = target
    · rw [if_pos hend, if_pos hend]
      rfl
    · rw [if_neg hend, if_neg hend]
      by_cases hin : tgt e ∈ visited
      · simp_all
      · have hqueue : (queue ++ [(tgt e, path ++ [e])]).map (nodesOf tgt start) =
            queue.map (nodesOf tgt start) ++ [(tgt e, start :: (path ++ [e]).map tgt)] := List.map_append
        rw [if_neg hin, if_neg (show ¬id (tgt e) ∈ visited from hin), ← ih, hqueue]
        rfl

theorem length_followEdges {n : ℕ} (hpath : path.length < n) : ∀ {queue : List (α × List E)} {visited : List α}
    {s' : List (α × List E) × List α}, (∀ i ∈ queue, i.2.length ≤ n) →
      followEdges tgt target path es queue visited = .inr s' → ∀ i ∈ s'.1, i.2.length ≤ n := by
  induction es with
  | nil =>
    intro queue visited s' hqueue h
    obtain rfl := Sum.inr.inj h
    exact hqueue
  | cons e es ih =>
    intro queue visited s' hqueue h
    rw [followEdges] at h
    split_ifs at h with hend hin
    · exact ih hqueue h
    · grind [List.length_singleton]

theorem walkSearch_cons {succ : α → List α} {depth n : ℕ} {a : α} {path : List α} {queue : List (α × List α)}
    {visited : List α} (h : ¬depth ≤ path.length - 1) :
    walkSearch succ id target depth (n + 1) ((a, path) :: queue) visited =
      match follow id target path (succ a) queue visited with
      | .inl found => some found
      | .inr (queue', visited') => walkSearch succ id target depth n queue' visited' := by
  rw [walkSearch, if_neg h]
  rcases follow id target path (succ a) queue visited with _ | _ <;> rfl

/-- The search over nodes finds the nodes of what the search over edges returns. Kind: L -/
theorem walkSearch_nodesOf (start : α) (depth n : ℕ) : ∀ {s : List (α × List E) × List α} {r : List E},
    (∀ i ∈ s.1, i.2.length + n ≤ depth) → turns (edgeStep out tgt target) n s = some r →
      (r = [] ∧ walkSearch (heads out tgt) id target depth n (s.1.map (nodesOf tgt start)) s.2 = none) ∨
        walkSearch (heads out tgt) id target depth n (s.1.map (nodesOf tgt start)) s.2 = some (start :: r.map tgt) := by
  induction n with
  | zero => exact fun _ h => nomatch h
  | succ n ih =>
    rintro ⟨queue, visited⟩ r hdepth h
    rw [turns, edgeStep] at h
    rcases queue with _ | ⟨⟨a, path⟩, queue⟩
    · obtain rfl := Option.some.inj h
      exact .inl ⟨rfl, rfl⟩
    · have hlength : path.length + (n + 1) ≤ depth := hdepth (a, path) List.mem_cons_self
      have hshort : ¬depth ≤ (start :: path.map tgt).length - 1 := by
        rw [List.length_cons, List.length_map]
        omega
      have hsearch : walkSearch (heads out tgt) id target depth (n + 1) (((a, path) :: queue).map (nodesOf tgt start))
          visited = _ := walkSearch_cons hshort
      have hfollow := @follow_nodesOf α E _ tgt target start path (out a) queue visited
      dsimp only at h ⊢
      rw [hsearch]
      unfold heads at ih ⊢
      rw [hfollow]
      rcases hnext : followEdges tgt target path (out a) queue visited with found | s'
      · grind
      · rw [hnext] at h
        refine ih (fun i hi => ?_) h
        have hle := length_followEdges (n := depth - n) (by omega) (fun i hi => ?_) hnext i hi
        · omega
        · grind

/-- **The loop returns a shortest way where the target can be reached and is not the start.** Kind: P -/
theorem edge_total (hstart : start ∈ all) (hclosed : ∀ a ∈ all, ∀ e ∈ out a, tgt e ∈ all) (hne : start ≠ target) :
    ∃ r, Returns (edgeStep out tgt target) ([(start, [])], [start]) r ∧ (r ≠ [] → Leads out tgt start target r) ∧
      ∀ q, Leads out tgt start target q → r ≠ [] ∧ r.length ≤ q.length := by
  have hinit : Queued out tgt all start [(start, [])] := by
    intro i hi
    rw [List.mem_singleton.mp hi]
    exact ⟨hstart, rfl⟩
  have hnode : ∀ {a : α} {path : List E}, a ∈ all ∧ Leads out tgt start a path →
      ∀ e ∈ out a, tgt e ∈ all ∧ Leads out tgt start (tgt e) (path ++ [e]) :=
    fun h e he => ⟨hclosed _ h.1 e he, h.2.snoc he⟩
  have hstep : ∀ s s' : List (α × List E) × List α, Queued out tgt all start s.1 →
      edgeStep out tgt target s = .inl s' → Queued out tgt all start s'.1 ∧
        LexLess (unvisited all s'.2, s'.1.length) (unvisited all s.2, s.1.length) := by
    rintro ⟨queue, visited⟩ s' hs hnext
    unfold edgeStep at hnext
    rcases queue with _ | ⟨⟨a, path⟩, queue⟩
    · cases hnext
    · dsimp only at hnext hs ⊢
      rcases hfollow : followEdges tgt target path (out a) queue visited with found | s''
      · rw [hfollow] at hnext
        cases hnext
      · rw [hfollow] at hnext
        obtain rfl := Sum.inl.inj hnext
        obtain ⟨hitems, rfl | hless⟩ := followEdges_spec (hnode (hs _ List.mem_cons_self))
          (fun i hi => hs i (List.mem_cons_of_mem _ hi)) hfollow
        · exact ⟨hitems, Prod.Lex.right _ (Nat.lt_succ_self queue.length)⟩
        · exact ⟨hitems, Prod.Lex.left _ _ hless⟩
  have hwf := wellFounded_lexLess fun s : List (α × List E) × List α => (unvisited all s.2, s.1.length)
  obtain ⟨⟨queue, visited⟩, r, hs, hresult, n, hturns⟩ := returns_of_invariant hwf hstep (s := ([(start, [])], [start])) hinit
  refine ⟨r, ⟨n, hturns⟩, fun hr => ?_, fun q hq => ?_⟩
  · unfold edgeStep at hresult
    rcases queue with _ | ⟨⟨a, path⟩, queue⟩
    · obtain rfl := Sum.inr.inj hresult
      exact absurd rfl hr
    · dsimp only at hresult
      rcases hfollow : followEdges tgt target path (out a) queue visited with found | s''
      · rw [hfollow] at hresult
        obtain rfl := Sum.inr.inj hresult
        exact (leads_of_followEdges (fun e he => (hnode (hs _ List.mem_cons_self) e he).2) hfollow).1
      · rw [hfollow] at hresult
        cases hresult
  · -- the nodes are padded, so that the search over nodes has as many turns
    have hnodes : ∀ a ∈ all ++ List.replicate n start, ∀ b ∈ heads out tgt a, b ∈ all ++ List.replicate n start := by
      intro a ha b hb
      have hall : a ∈ all := by grind
      obtain ⟨e, he, rfl⟩ := List.mem_map.mp hb
      exact List.mem_append_left _ (hclosed a hall e he)
    generalize hbound : all ++ List.replicate n start = nodes at hnodes
    have hle : n ≤ nodes.length := by grind
    have hmem : start ∈ nodes := by
      rw [← hbound]
      exact List.mem_append_left _ hstart
    have hfirst : shortestWalk (heads out tgt) id nodes.length start target (nodes.length + q.length) =
        firstWalk (heads out tgt) start target (nodes.length + q.length) :=
      shortestWalk_eq Function.injective_id hmem hnodes
    rw [shortestWalk, if_neg hne] at hfirst
    have hsearch := walkSearch_nodesOf start (nodes.length + q.length) nodes.length
      (fun i hi => by rw [List.mem_singleton.mp hi]; simp) (turns_mono hle hturns)
    rcases hsearch with ⟨-, hnone⟩ | hsome
    · have hlong := firstWalk_eq_none_iff.mp (hfirst.symm.trans hnone) _ hq.isWalk
      rw [List.length_cons, List.length_map] at hlong
      omega
    · obtain ⟨hwalk, -⟩ := isWalk_of_firstWalk (hfirst.symm.trans hsome)
      have hleast := firstWalk_least (hfirst.symm.trans hsome) _ hq.isWalk
      refine ⟨?_, ?_⟩
      · rintro rfl
        exact hne (Option.some.inj hwalk.last)
      · simp only [List.length_cons, List.length_map] at hleast
        omega

end edges

end KarsaSec.Found
