import KarsaSec.Found.ShortestWalk
import Mathlib.Data.List.Flatten

/-!
# Depth-first search under a bound

Depth-first search for a target that goes no deeper than a bound and enters a node once, under a key.

* `trails` lists the walks without a repeated node, up to a number of nodes, in the order in which a search that forgets
  nothing would come to them.
* `dive` is the search. A node that it enters with no depth left is marked, and what follows it is not looked at; a
  later way to that node finds it marked.
* `Clear`: some trail to the target has no node on which an earlier trail of full length ends.
* `dive_sound`: the search finds only what a walk within the bound reaches. `dive_complete`: it finds the target where a
  trail is clear.
-/

namespace KarsaSec.Found

variable {α σ : Type*} (succ : α → List α) (key : α → σ)

/-! ## Trails -/

/-- The walks on from a node, after a past that they do not enter again. Kind: D -/
def trails [DecidableEq α] : ℕ → List α → α → List (List α)
  | 0, _, _ => []
  | n + 1, past, a => if a ∈ past then [] else (past ++ [a]) :: (succ a).flatMap (trails n (past ++ [a]))

/-- No trail of full length that comes before this one, and stays clear of the target, ends on one of its nodes. Kind: D -/
def Unmarked (target : α) (full : ℕ) (before : List (List α)) (w : List α) : Prop :=
  ∀ p ∈ before, p.length = full → target ∉ p → ∀ a ∈ w.dropLast, p.getLast? ≠ some a

/-- Some trail to the target meets no node that an earlier trail has used up. Kind: D -/
def Clear [DecidableEq α] (depth : ℕ) (start target : α) : Prop :=
  ∃ before w after, trails succ (depth + 1) [] start = before ++ w :: after ∧ w.getLast? = some target ∧
    Unmarked target (depth + 1) before w

variable {succ} in
theorem trail_nodup [DecidableEq α] {n : ℕ} {past w : List α} {a : α} (hpast : past.Nodup)
    (h : w ∈ trails succ n past a) : w.Nodup := by
  induction n generalizing past a with
  | zero => exact absurd h List.not_mem_nil
  | succ n ih =>
    rw [trails] at h
    split_ifs at h with hin
    · exact absurd h List.not_mem_nil
    · have hsnoc : (past ++ [a]).Nodup := by grind
      rcases List.mem_cons.mp h with rfl | h
      · exact hsnoc
      · grind

variable {succ} in
/-- What follows the past is a walk. Kind: L -/
theorem trail_chain [DecidableEq α] {n : ℕ} {past w : List α} {a : α} (h : w ∈ trails succ n past a) :
    ∃ rest, w = past ++ a :: rest ∧ (a :: rest).IsChain fun x y => y ∈ succ x := by
  induction n generalizing past a with
  | zero => exact absurd h List.not_mem_nil
  | succ n ih =>
    rw [trails] at h
    split_ifs at h with hpast
    · exact absurd h List.not_mem_nil
    · grind

/-- An element of a flattened list comes from one list, and what is before it from those before that one. Kind: L -/
theorem split_of_flatMap {β : Type*} {f : α → List β} {l : List α} {before after : List β} {w : β}
    (h : l.flatMap f = before ++ w :: after) : ∃ as b bs, l = as ++ b :: bs ∧ ∃ before',
      f b = before' ++ w :: (f b).drop (before'.length + 1) ∧ before = as.flatMap f ++ before' := by
  induction l generalizing before with
  | nil => exact absurd h.symm (List.append_ne_nil_of_right_ne_nil _ (List.cons_ne_nil _ _))
  | cons a l ih =>
    rw [List.flatMap_cons] at h
    rcases List.append_eq_append_iff.mp h with ⟨rest, rfl, hrest⟩ | ⟨rest, ha, hrest⟩
    · obtain ⟨as, b, bs, rfl, before', hb, rfl⟩ := ih hrest
      refine ⟨a :: as, b, bs, rfl, before', hb, ?_⟩
      rw [List.flatMap_cons, List.append_assoc]
    · rcases rest with _ | ⟨w', rest⟩
      · rw [List.append_nil] at ha
        have hrest' : l.flatMap f = [] ++ w :: after := hrest.symm
        obtain ⟨as, b, bs, rfl, before', hb, hnil⟩ := ih hrest'
        obtain ⟨hnone, rfl⟩ := List.append_eq_nil_iff.mp hnil.symm
        refine ⟨a :: as, b, bs, rfl, [], hb, ?_⟩
        rw [List.flatMap_cons, hnone, ← ha, List.append_nil, List.append_nil]
      · obtain ⟨rfl, -⟩ := List.cons.inj hrest
        refine ⟨[], a, l, rfl, before, ?_, rfl⟩
        rw [ha]
        simp

/-! ## The search -/

/-- Ask for one after the other until one says yes. Kind: D -/
def tryEach (f : α → List σ → Bool × List σ) : List α → List σ → Bool × List σ
  | [], seen => (false, seen)
  | b :: bs, seen =>
    match f b seen with
    | (true, seen') => (true, seen')
    | (false, seen') => tryEach f bs seen'

/-- The search with a number of nodes that the way may still take. Kind: D -/
def dive [DecidableEq α] [DecidableEq σ] (target : α) : ℕ → α → List σ → Bool × List σ
  | 0, _, seen => (false, seen)
  | n + 1, a, seen =>
    if key a ∈ seen then (false, seen)
    else if a = target then (true, seen ++ [key a])
    else tryEach (dive target n) (succ a) (seen ++ [key a])

section tryEach

variable {f : α → List σ → Bool × List σ} {bs : List α} {seen : List σ}

theorem exists_of_tryEach (h : (tryEach f bs seen).1 = true) : ∃ b ∈ bs, ∃ seen', (f b seen').1 = true := by
  induction bs generalizing seen with
  | nil => cases h
  | cons b bs ih =>
    rw [tryEach] at h
    rcases hb : f b seen with ⟨_ | _, seen'⟩
    · rw [hb] at h
      obtain ⟨c, hc, hyes⟩ := ih h
      exact ⟨c, List.mem_cons_of_mem _ hc, hyes⟩
    · refine ⟨b, List.mem_cons_self, seen, ?_⟩
      rw [hb]

theorem tryEach_append {as : List α} (h : (tryEach f as seen).1 = false) :
    tryEach f (as ++ bs) seen = tryEach f bs (tryEach f as seen).2 := by
  induction as generalizing seen with
  | nil => rfl
  | cons a as ih =>
    rw [List.cons_append, tryEach]
    rw [tryEach] at h ⊢
    rcases ha : f a seen with ⟨_ | _, seen'⟩
    · rw [ha] at h
      exact ih h
    · rw [ha] at h
      cases h

theorem tryEach_of_prefix {as : List α} (h : (tryEach f as seen).1 = true) : (tryEach f (as ++ bs) seen).1 = true := by
  induction as generalizing seen with
  | nil => cases h
  | cons a as ih =>
    rw [List.cons_append, tryEach]
    rw [tryEach] at h
    rcases ha : f a seen with ⟨_ | _, seen'⟩
    · rw [ha] at h
      exact ih h
    · rfl

end tryEach

variable {succ} {key} [DecidableEq α] [DecidableEq σ] {target : α}

/-- The search finds only what a walk within the bound reaches. Kind: P -/
theorem dive_sound {n : ℕ} {a : α} {seen : List σ} (h : (dive succ key target n a seen).1 = true) :
    ∃ path, IsWalk succ a target path ∧ path.length ≤ n := by
  induction n generalizing a seen with
  | zero => cases h
  | succ n ih =>
    rw [dive] at h
    split_ifs at h with hseen htarget
    · refine ⟨[a], ⟨rfl, ?_, List.isChain_singleton a⟩, Nat.succ_le_succ (Nat.zero_le n)⟩
      rw [htarget]
      rfl
    · obtain ⟨b, hb, seen', hyes⟩ := exists_of_tryEach h
      obtain ⟨path, hwalk, hlength⟩ := ih hyes
      have hcons : path = b :: path.tail := (List.cons_head?_tail hwalk.head).symm
      refine ⟨a :: path, ⟨rfl, ?_, ?_⟩, Nat.succ_le_succ hlength⟩
      · rw [hcons, List.getLast?_cons_cons, ← hcons]
        exact hwalk.last
      · rw [hcons]
        refine List.isChain_cons_cons.mpr ⟨hb, ?_⟩
        rw [← hcons]
        exact hwalk.chain

/-! ## What a search in vain leaves marked -/

/-- A marked node that is not the target, and whose successors are marked unless a full trail ended there. Kind: D -/
def Spent (succ : α → List α) (key : α → σ) (target : α) (full : ℕ) (ts : List (List α)) (seen : List σ) (x : α) : Prop :=
  x ≠ target ∧ ((∀ b ∈ succ x, key b ∈ seen) ∨ ∃ p ∈ ts, p.length = full ∧ target ∉ p ∧ p.getLast? = some x)

omit [DecidableEq α] [DecidableEq σ] in
theorem Spent.mono {full : ℕ} {ts ts' : List (List α)} {seen seen' : List σ} {x : α}
    (h : Spent succ key target full ts seen x) (hseen : ∀ i ∈ seen, i ∈ seen') (hts : ∀ p ∈ ts, p ∈ ts') :
    Spent succ key target full ts' seen' x := by
  obtain ⟨hne, hclosed | ⟨p, hp, hfull⟩⟩ := h
  · exact ⟨hne, .inl fun b hb => hseen _ (hclosed b hb)⟩
  · exact ⟨hne, .inr ⟨p, hts p hp, hfull⟩⟩

/-- What asking for these nodes has marked, the trails on from them given. Kind: D -/
structure Vain (succ : α → List α) (key : α → σ) (target : α) (n full : ℕ) (bs : List α) (ts : List (List α))
    (seen seen' : List σ) : Prop where
  kept : ∀ i ∈ seen, i ∈ seen'
  heads : 0 < n → ∀ b ∈ bs, key b ∈ seen'
  spent : ∀ x, key x ∈ seen' → key x ∉ seen → Spent succ key target full ts seen' x

/-- Asking one after the other in vain. Kind: L -/
theorem vain_tryEach {n full : ℕ} {past : List α} {bs : List α} {seen : List σ}
    (hone : ∀ b seen, (∀ y ∈ past, key y ∈ seen) → (dive succ key target n b seen).1 = false →
      Vain succ key target n full [b] (trails succ n past b) seen (dive succ key target n b seen).2)
    (hpast : ∀ y ∈ past, key y ∈ seen) (h : (tryEach (dive succ key target n) bs seen).1 = false) :
    Vain succ key target n full bs (bs.flatMap (trails succ n past)) seen (tryEach (dive succ key target n) bs seen).2 := by
  induction bs generalizing seen with
  | nil => exact ⟨fun i hi => hi, fun _ b hb => absurd hb List.not_mem_nil, fun x hx hnot => absurd hx hnot⟩
  | cons b bs ih =>
    rw [tryEach] at h ⊢
    rcases hb : dive succ key target n b seen with ⟨_ | _, seen'⟩
    · rw [hb] at h
      have hfirst := hone b seen hpast (by rw [hb])
      rw [hb] at hfirst
      have hrest := ih (fun y hy => hfirst.kept _ (hpast y hy)) h
      refine ⟨fun i hi => hrest.kept i (hfirst.kept i hi), fun hn c hc => ?_, fun x hx hnot => ?_⟩
      · rcases List.mem_cons.mp hc with rfl | hc
        · exact hrest.kept _ (hfirst.heads hn c List.mem_cons_self)
        · exact hrest.heads hn c hc
      · rw [List.flatMap_cons]
        by_cases hmid : key x ∈ seen'
        · exact (hfirst.spent x hmid hnot).mono hrest.kept fun p hp => List.mem_append_left _ hp
        · exact (hrest.spent x hx hmid).mono (fun i hi => hi) fun p hp => List.mem_append_right _ hp
    · rw [hb] at h
      cases h

/-- A search in vain. Kind: P -/
theorem vain_dive (hkey : Function.Injective key) {n : ℕ} : ∀ {past : List α} {a : α} {seen : List σ},
    target ∉ past → (∀ y ∈ past, key y ∈ seen) → (dive succ key target n a seen).1 = false →
      Vain succ key target n (past.length + n) [a] (trails succ n past a) seen (dive succ key target n a seen).2 := by
  induction n with
  | zero =>
    intro past a seen _ _ _
    exact ⟨fun i hi => hi, fun hn => absurd hn (Nat.lt_irrefl 0), fun x hx hnot => absurd hx hnot⟩
  | succ n ih =>
    intro past a seen htarget hpast h
    rw [dive] at h ⊢
    split_ifs at h ⊢ with hseen hend
    · exact ⟨fun i hi => hi, fun _ b hb => List.mem_singleton.mp hb ▸ hseen, fun x hx hnot => absurd hx hnot⟩
    · have hin : a ∉ past := fun hmem => hseen (hpast a hmem)
      have htarget' : target ∉ past ++ [a] := by grind
      have hpast' : ∀ y ∈ past ++ [a], key y ∈ seen ++ [key a] := by grind
      have hlength : (past ++ [a]).length + n = past.length + (n + 1) := by
        rw [List.length_append, List.length_singleton]
        omega
      have hloop := vain_tryEach (fun b seen hpast hno => ih htarget' hpast hno) hpast' h
      rw [hlength] at hloop
      have hmark : key a ∈ (tryEach (dive succ key target n) (succ a) (seen ++ [key a])).2 :=
        hloop.kept _ (List.mem_append_right _ List.mem_cons_self)
      refine ⟨fun i hi => hloop.kept i (List.mem_append_left _ hi), fun _ b hb => List.mem_singleton.mp hb ▸ hmark,
        fun x hx hnot => ?_⟩
      rw [trails, if_neg hin]
      by_cases hxa : key x = key a
      · obtain rfl := hkey hxa
        refine ⟨hend, ?_⟩
        rcases Nat.eq_zero_or_pos n with hzero | hn
        · -- nothing is left of the bound: the node is marked, and its successors are not
          refine .inr ⟨past ++ [x], List.mem_cons_self, ?_, htarget', List.getLast?_concat⟩
          rw [← hlength, hzero, Nat.add_zero]
        · exact .inl (hloop.heads hn)
      · have hnot' : key x ∉ seen ++ [key a] := by
          simp only [List.mem_append, List.mem_singleton, not_or]
          exact ⟨hnot, hxa⟩
        exact (hloop.spent x hx hnot').mono (fun i hi => hi) fun p hp => List.mem_cons_of_mem _ hp

/-! ## The search along a clear trail -/

omit [DecidableEq α] [DecidableEq σ] in
/-- Marks spread along a walk whose nodes have their successors marked. Kind: L -/
theorem marked_of_chain {seen : List σ} {rest : List α} : ∀ {a : α}, (a :: rest).IsChain (fun x y => y ∈ succ x) →
    key a ∈ seen → (∀ x ∈ (a :: rest).dropLast, key x ∈ seen → ∀ b ∈ succ x, key b ∈ seen) →
    ∀ z, (a :: rest).getLast? = some z → key z ∈ seen := by
  induction rest with
  | nil =>
    intro a _ ha _ z hz
    obtain rfl := Option.some.inj hz
    exact ha
  | cons b rest ih =>
    intro a hchain ha hclosed z hz
    obtain ⟨hb, hchain'⟩ := List.isChain_cons_cons.mp hchain
    rw [List.dropLast_cons_cons] at hclosed
    refine ih hchain' (hclosed a List.mem_cons_self ha b hb) (fun x hx => hclosed x (List.mem_cons_of_mem _ hx)) z ?_
    rw [← hz, List.getLast?_cons_cons]

/-- The search finds the target along a trail that is clear. Kind: L -/
theorem dive_along (hkey : Function.Injective key) {n : ℕ} : ∀ {past : List α} {a : α} {seen : List σ}
    {before after : List (List α)} {w : List α}, past.Nodup → (∀ y ∈ past, key y ∈ seen) →
    trails succ n past a = before ++ w :: after → w.getLast? = some target → key target ∉ seen →
    (∀ x ∈ w.dropLast, key x ∈ seen → x ∉ past → ∀ b ∈ succ x, key b ∈ seen) →
    Unmarked target (past.length + n) before w → (dive succ key target n a seen).1 = true := by
  induction n with
  | zero =>
    intro past a seen before after w _ _ h
    exact absurd h.symm (List.append_ne_nil_of_right_ne_nil _ (List.cons_ne_nil _ _))
  | succ n ih =>
    intro past a seen before after w hnodup hpast h hlast htarget hclosed hclear
    have hmem : w ∈ trails succ (n + 1) past a := by
      rw [h]
      exact List.mem_append_right _ List.mem_cons_self
    obtain ⟨rest, hw, hchain⟩ := trail_chain hmem
    have hw_nodup := trail_nodup hnodup hmem
    have hin : a ∉ past := by
      rw [hw] at hw_nodup
      intro ha
      exact (List.nodup_append.mp hw_nodup).2.2 a ha a List.mem_cons_self rfl
    have hlast' : (a :: rest).getLast? = some target := by
      rw [hw, List.getLast?_append_of_ne_nil _ (List.cons_ne_nil _ _)] at hlast
      exact hlast
    have hdrop : w.dropLast = past ++ (a :: rest).dropLast := by
      rw [hw, List.dropLast_append_of_ne_nil (List.cons_ne_nil _ _)]
    have hrest : ∀ x ∈ (a :: rest).dropLast, x ∉ past := by
      intro x hx hp
      rw [hw] at hw_nodup
      exact (List.nodup_append.mp hw_nodup).2.2 x hp x (List.dropLast_subset _ hx) rfl
    have hfresh : key a ∉ seen := fun ha => htarget (marked_of_chain hchain ha (fun x hx hx' =>
      hclosed x (hdrop ▸ List.mem_append_right _ hx) hx' (hrest x hx)) target hlast')
    rw [dive, if_neg hfresh]
    by_cases hend : a = target
    · rw [if_pos hend]
    · rw [if_neg hend]
      obtain ⟨before', rfl, hloop⟩ : ∃ before', before = (past ++ [a]) :: before' ∧
          (succ a).flatMap (trails succ n (past ++ [a])) = before' ++ w :: after := by
        rw [trails, if_neg hin] at h
        rcases before with _ | ⟨t, before'⟩
        · grind
        · obtain ⟨rfl, htail⟩ := List.cons.inj h
          exact ⟨before', rfl, htail⟩
      obtain ⟨bs, b, cs, hsucc, before'', hb, rfl⟩ := split_of_flatMap hloop
      have hnodup' : (past ++ [a]).Nodup :=
        List.nodup_append.mpr ⟨hnodup, List.nodup_singleton a, fun x hx y hy heq =>
          hin (List.mem_singleton.mp hy ▸ heq ▸ hx)⟩
      have hpast' : ∀ y ∈ past ++ [a], key y ∈ seen ++ [key a] := by
        intro y hy
        rcases List.mem_append.mp hy with hy | hy
        · exact List.mem_append_left _ (hpast y hy)
        · rw [List.mem_singleton.mp hy]
          exact List.mem_append_right _ List.mem_cons_self
      have htarget' : key target ∉ seen ++ [key a] := by
        simp only [List.mem_append, List.mem_singleton, not_or]
        exact ⟨htarget, fun heq => hend (hkey heq).symm⟩
      have hpt : target ∉ past ++ [a] := fun hmem => htarget' (hpast' target hmem)
      have hlength : (past ++ [a]).length + n = past.length + (n + 1) := by
        rw [List.length_append, List.length_singleton]
        omega
      rw [hsucc]
      rcases hfirst : (tryEach (dive succ key target n) bs (seen ++ [key a])).1 with _ | _
      · -- the branches before that of the trail were in vain
        have hvain := vain_tryEach (fun b seen hpast hno => vain_dive hkey hpt hpast hno) hpast' hfirst
        rw [hlength] at hvain
        rw [tryEach_append hfirst, tryEach]
        have hyes : (dive succ key target n b (tryEach (dive succ key target n) bs (seen ++ [key a])).2).1 = true := by
          refine ih hnodup' (fun y hy => hvain.kept _ (hpast' y hy)) hb hlast (fun ht => ?_) (fun x hx hmark hnot => ?_) ?_
          · exact (hvain.spent target ht htarget').1 rfl
          · by_cases hold : key x ∈ seen ++ [key a]
            · have hseen : key x ∈ seen := by
                rcases List.mem_append.mp hold with hold | hold
                · exact hold
                · exact absurd (List.mem_append_right past (List.mem_singleton.mpr (hkey (List.mem_singleton.mp hold)))) hnot
              intro c hc
              exact hvain.kept _ (List.mem_append_left _
                (hclosed x hx hseen (fun hmem => hnot (List.mem_append_left _ hmem)) c hc))
            · obtain ⟨-, hdone | ⟨p, hp, hfull, hclear', hend'⟩⟩ := hvain.spent x hmark hold
              · exact hdone
              · have hbefore : p ∈ (past ++ [a]) :: (bs.flatMap (trails succ n (past ++ [a])) ++ before'') :=
                  List.mem_cons_of_mem _ (List.mem_append_left _ hp)
                exact absurd hend' (hclear p hbefore hfull hclear' x hx)
          · intro p hp hfull
            rw [hlength] at hfull
            exact hclear p (List.mem_cons_of_mem _ (List.mem_append_right _ hp)) hfull
        rcases hgo : dive succ key target n b (tryEach (dive succ key target n) bs (seen ++ [key a])).2 with ⟨found, seen'⟩
        rw [hgo] at hyes
        obtain rfl : found = true := hyes
        rfl
      · exact tryEach_of_prefix hfirst

/-- **The search finds the target where a trail is clear.** Kind: P -/
theorem dive_complete (hkey : Function.Injective key) {depth : ℕ} {start : α} (h : Clear succ depth start target) :
    (dive succ key target (depth + 1) start []).1 = true := by
  obtain ⟨before, w, after, htrails, hlast, hclear⟩ := h
  refine dive_along hkey List.nodup_nil (fun y hy => absurd hy List.not_mem_nil) htrails hlast List.not_mem_nil
    (fun x _ hx => absurd hx List.not_mem_nil) ?_
  rw [List.length_nil, Nat.zero_add]
  exact hclear

end KarsaSec.Found
