import KarsaSec.Found.Sorting
import Mathlib.Data.List.Dedup
import Mathlib.Data.List.Perm.Basic

/-!
# Readings that the order does not matter to

When a value that is read off a list is the same for every order of the list.

* `OrderFree` says so of one list. For the first element that a choice takes something from, or the last one, it holds
  exactly when the choices agree (`orderFree_first_iff`, `orderFree_last_iff`), and for a sorted list exactly when no two elements share a key
  (`orderFree_sortBy_iff`).
* `firstOf` looks through a second list where the first gives nothing; `firstOf_free_iff` is about both orders.
-/

namespace KarsaSec.Found

variable {α β γ : Type*}

/-- A reading of a list is the same for every order of it. Kind: D -/
def OrderFree (F : List α → β) (l : List α) : Prop := ∀ l', l'.Perm l → F l' = F l

/-- All elements that give something give the same. Kind: D -/
def Agree (f : α → Option β) (l : List α) : Prop := ∀ a ∈ l, ∀ b ∈ l, ∀ x ∈ f a, ∀ y ∈ f b, x = y

/-- What the first list gives first, else what the second gives first. Kind: D -/
def firstOf (f : α → Option γ) (g : β → Option γ) (l : List α) (m : List β) : Option γ :=
  (l.findSome? f).or (m.findSome? g)

/-! ## The first choice -/

section first

variable {f : α → Option γ} {g : β → Option γ} {l l' : List α} {m m' : List β} {a : α} {x : γ}

theorem agree_perm (hp : l'.Perm l) : Agree f l' ↔ Agree f l := by
  unfold Agree
  simp only [hp.mem_iff]

theorem Agree.findSome?_eq (h : Agree f l) (ha : a ∈ l) (hx : f a = some x) : l.findSome? f = some x := by
  rcases hfound : l.findSome? f with _ | y
  · simp_all
  · obtain ⟨b, hb, hy⟩ := List.exists_of_findSome?_eq_some hfound
    rw [h a ha b hb x hx y hy]

theorem exists_perm_cons (ha : a ∈ l) : ∃ rest, (a :: rest).Perm l := by
  obtain ⟨s, t, rfl⟩ := List.append_of_mem ha
  exact ⟨s ++ t, List.perm_middle.symm⟩

theorem findSome?_isSome_perm (hp : l'.Perm l) : (l'.findSome? f).isSome = (l.findSome? f).isSome := by
  rw [Bool.eq_iff_iff, Option.isSome_iff_ne_none, Option.isSome_iff_ne_none, ne_eq, ne_eq, List.findSome?_eq_none_iff,
    List.findSome?_eq_none_iff]
  exact not_congr ⟨fun h a ha => h a (hp.mem_iff.mpr ha), fun h a ha => h a (hp.mem_iff.mp ha)⟩

theorem Agree.findSome?_perm (h : Agree f l) (hp : l'.Perm l) : l'.findSome? f = l.findSome? f := by
  rcases hfound : l'.findSome? f with _ | x
  · grind
  · obtain ⟨a, ha, hx⟩ := List.exists_of_findSome?_eq_some hfound
    exact (h.findSome?_eq (hp.mem_iff.mp ha) hx).symm

/-- **The first choice, or a default where there is none, is the same in every order exactly when the choices agree.**
Kind: P -/
theorem orderFree_first_iff (d : γ) : OrderFree (fun l => (l.findSome? f).getD d) l ↔ Agree f l := by
  constructor
  · intro h
    -- any element may come first
    have hfirst : ∀ a ∈ l, ∀ x ∈ f a, x = (l.findSome? f).getD d := by
      intro a ha x hx
      obtain ⟨rest, hp⟩ := exists_perm_cons ha
      have heq : ((a :: rest).findSome? f).getD d = (l.findSome? f).getD d := h _ hp
      rw [← heq, List.findSome?_cons_of_isSome (hx ▸ rfl), hx, Option.getD_some]
    exact fun a ha b hb x hx y hy => (hfirst a ha x hx).trans (hfirst b hb y hy).symm
  · intro h l' hp
    dsimp only
    rw [h.findSome?_perm hp]

/-- A permutation of images is an image of a permutation. Kind: L -/
theorem exists_perm_of_perm_map {k : α → β} {m : List β} (h : m.Perm (l.map k)) : ∃ l' : List α, l'.Perm l ∧ l'.map k = m := by
  have hrel : List.Forall₂ (fun b a => b = k a) (l.map k) l := by simp
  obtain ⟨l', hl', hperm⟩ := List.perm_comp_forall₂ h hrel
  have heq : List.Forall₂ Eq m (l'.map k) := by
    rw [List.forall₂_map_right_iff]
    exact hl'
  rw [List.forall₂_eq_eq_eq] at heq
  exact ⟨l', hperm, heq.symm⟩

theorem orderFree_map_iff {F : List β → γ} {k : α → β} : OrderFree (fun l => F (l.map k)) l ↔ OrderFree F (l.map k) := by
  constructor
  · intro h m hp
    obtain ⟨l', hl', rfl⟩ := exists_perm_of_perm_map hp
    exact h l' hl'
  · exact fun h l' hp => h _ (hp.map k)

theorem orderFree_reverse_iff {F : List α → β} : OrderFree (fun l => F l.reverse) l ↔ OrderFree F l.reverse := by
  constructor
  · intro h l' hp
    have heq : F l'.reverse.reverse = F l.reverse := h l'.reverse ((l'.reverse_perm.trans hp).trans l.reverse_perm)
    rwa [l'.reverse_reverse] at heq
  · exact fun h l' hp => h _ ((l'.reverse_perm.trans hp).trans l.reverse_perm.symm)

/-- **The last choice, or a default where there is none, is the same in every order exactly when the choices agree.**
Kind: P -/
theorem orderFree_last_iff (d : γ) : OrderFree (fun l => (l.reverse.findSome? f).getD d) l ↔ Agree f l :=
  (orderFree_reverse_iff.trans (orderFree_first_iff d)).trans (agree_perm l.reverse_perm)

theorem firstOf_of_some (hx : l.findSome? f = some x) : firstOf f g l m = some x := by
  rw [firstOf, hx, Option.some_or]

theorem firstOf_of_none (h : ∀ a ∈ l, f a = none) : firstOf f g l m = m.findSome? g := by
  rw [firstOf, List.findSome?_eq_none_iff.mpr h, Option.none_or]

theorem firstOf_isSome_perm (hl : l'.Perm l) (hm : m'.Perm m) :
    (firstOf f g l' m').isSome = (firstOf f g l m).isSome := by
  unfold firstOf
  rw [Option.isSome_or, Option.isSome_or, findSome?_isSome_perm hl, findSome?_isSome_perm hm]

/-- **Neither order matters exactly when the choices of the first list agree and, where it gives nothing, those of the
second.** Kind: P -/
theorem firstOf_free_iff :
    (∀ l' m', l'.Perm l → m'.Perm m → firstOf f g l' m' = firstOf f g l m) ↔
      Agree f l ∧ ((∀ a ∈ l, f a = none) → Agree g m) := by
  constructor
  · intro h
    refine ⟨fun a ha b hb x hx y hy => ?_, fun hnone a ha b hb x hx y hy => ?_⟩
    · have hfirst : ∀ a ∈ l, ∀ x ∈ f a, firstOf f g l m = some x := by
        intro a ha x hx
        obtain ⟨rest, hp⟩ := exists_perm_cons ha
        rw [← h _ m hp (.refl m)]
        exact firstOf_of_some (by rw [List.findSome?_cons_of_isSome (hx ▸ rfl), hx])
      exact Option.some.inj ((hfirst a ha x hx).symm.trans (hfirst b hb y hy))
    · have hfirst : ∀ a ∈ m, ∀ x ∈ g a, firstOf f g l m = some x := by
        intro a ha x hx
        obtain ⟨rest, hp⟩ := exists_perm_cons ha
        rw [← h l _ (.refl l) hp, firstOf_of_none hnone, List.findSome?_cons_of_isSome (hx ▸ rfl), hx]
      exact Option.some.inj ((hfirst a ha x hx).symm.trans (hfirst b hb y hy))
  · rintro ⟨hl, hm⟩ l' m' hpl hpm
    unfold firstOf
    rw [hl.findSome?_perm hpl]
    rcases hfound : l.findSome? f with _ | x
    · rw [Option.none_or, Option.none_or, (hm (List.findSome?_eq_none_iff.mp hfound)).findSome?_perm hpm]
    · rw [Option.some_or, Option.some_or]

/-- A default adds nothing to what the orders decide. Kind: L -/
theorem firstOf_getD_free_iff (d : γ) :
    (∀ l' m', l'.Perm l → m'.Perm m → (firstOf f g l' m').getD d = (firstOf f g l m).getD d) ↔
      Agree f l ∧ ((∀ a ∈ l, f a = none) → Agree g m) := by
  rw [← firstOf_free_iff]
  constructor
  · intro h l' m' hl hm
    have hsome := firstOf_isSome_perm (f := f) (g := g) hl hm
    have heq := h l' m' hl hm
    rcases hnew : firstOf f g l' m' with _ | x
    · simp_all
    · grind [Option.isSome_iff_exists]
  · intro h l' m' hl hm
    rw [h l' m' hl hm]

/-- The first element with a property. Kind: L -/
theorem map_head?_filter (p : α → Prop) [DecidablePred p] (k : α → γ) :
    (l.filter (p ·)).head?.map k = l.findSome? fun a => if p a then some (k a) else none := by
  induction l with
  | nil => rfl
  | cons a l ih =>
    by_cases ha : p a
    · simp_all
    · simp_all

theorem agree_ite_iff (p : α → Prop) [DecidablePred p] (k : α → γ) :
    Agree (fun a => if p a then some (k a) else none) l ↔ ∀ a ∈ l, ∀ b ∈ l, p a → p b → k a = k b := by
  constructor
  · intro h a ha b hb hpa hpb
    exact h a ha b hb (k a) (if_pos hpa) (k b) (if_pos hpb)
  · intro h a ha b hb x hx y hy
    obtain ⟨hpa, hxa⟩ := Option.ite_none_right_eq_some.mp hx
    obtain ⟨hpb, hyb⟩ := Option.ite_none_right_eq_some.mp hy
    rw [← Option.some.inj hxa, ← Option.some.inj hyb]
    exact h a ha b hb hpa hpb

/-- Overwriting along a list leaves the last choice. Kind: L -/
theorem foldl_getD (d : γ) : l.foldl (fun acc a => (f a).getD acc) d = (l.reverse.findSome? f).getD d := by
  induction l generalizing d with
  | nil => rfl
  | cons a l ih =>
    rw [List.foldl_cons, ih, List.reverse_cons, List.findSome?_append]
    rcases l.reverse.findSome? f with _ | y
    · simp
    · rfl

end first

/-! ## Sorting -/

section sorting

variable [LinearOrder γ] {key : α → γ} {l : List α}

theorem filter_orderedInsert (a : α) (k : γ) (l : List α) :
    (l.orderedInsert (fun a b => key a ≤ key b) a).filter (key · = k) = (a :: l).filter (key · = k) := by
  induction l with
  | nil => rfl
  | cons b l ih =>
    rw [List.orderedInsert_cons]
    by_cases hle : key a ≤ key b
    · rw [if_pos hle]
    · rw [if_neg hle, List.filter_cons, ih]
      -- `b` stays before `a`, and the two have different keys
      by_cases ha : key a = k
      · grind
      · simp [List.filter_cons, ha]

/-- Sorting is stable. Kind: L -/
theorem filter_sortBy (k : γ) (l : List α) : (sortBy key l).filter (key · = k) = l.filter (key · = k) := by
  induction l with
  | nil => rfl
  | cons a l ih =>
    have hstep : sortBy key (a :: l) = (sortBy key l).orderedInsert (fun a b => key a ≤ key b) a := rfl
    rw [hstep, filter_orderedInsert, List.filter_cons, List.filter_cons, ih]

/-- **Sorting forgets every order exactly when elements with one key are the same.** Kind: P -/
theorem orderFree_sortBy_iff : OrderFree (sortBy key) l ↔ ∀ a ∈ l, ∀ b ∈ l, key a = key b → a = b := by
  constructor
  · intro h a ha b hb hkey
    -- either of the two may be the first with its key
    have hfirst : ∀ c ∈ l, ((sortBy key l).filter (key · = key c)).head? = some c := by
      intro c hc
      obtain ⟨rest, hp⟩ := exists_perm_cons hc
      rw [← h _ hp, filter_sortBy, List.filter_cons, if_pos (decide_eq_true rfl), List.head?_cons]
    have hfa := hfirst a ha
    rw [hkey, hfirst b hb] at hfa
    exact (Option.some.inj hfa).symm
  · intro h l' hp
    have hperm : (sortBy key l').Perm (sortBy key l) := ((sortBy_perm key l').trans hp).trans (sortBy_perm key l).symm
    refine List.Perm.eq_of_pairwise (fun a b ha hb hab hba => ?_) (pairwise_sortBy key l') (pairwise_sortBy key l) hperm
    have hin : ∀ c, c ∈ sortBy key l → c ∈ l := fun c hc => (sortBy_perm key l).mem_iff.mp hc
    exact h a (hin a (hperm.mem_iff.mp ha)) b (hin b hb) (le_antisymm hab hba)

/-- A sorted set. Kind: L -/
theorem sortBy_dedup_congr [DecidableEq α] (hinj : Function.Injective key) {l' : List α} (h : ∀ a, a ∈ l' ↔ a ∈ l) :
    sortBy key l'.dedup = sortBy key l.dedup := by
  refine orderFree_sortBy_iff.mpr (fun a _ b _ heq => hinj heq) _ ?_
  refine (List.perm_ext_iff_of_nodup l'.nodup_dedup l.nodup_dedup).mpr fun a => ?_
  rw [List.mem_dedup, List.mem_dedup]
  exact h a

end sorting

end KarsaSec.Found
