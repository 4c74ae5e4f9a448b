import Mathlib.Data.List.Pairwise
import Mathlib.Order.Bounds.Basic

/-!
# Placement on a circle

Positions of a linear order on a circle, some of them owned. A point is placed with the owner of the next position
after it, and after the last position the first one is next.

* `IsNext` is the next position; there is at most one.
* `Places.mono`: a placement survives every change that keeps the position it is at and adds none. So an owner that
  goes leaves the placements of the others, and an owner that comes takes placements for itself only.
* `bisectRight` is the search of a sorted list by halves; `isNext_bisectRight`: with the wrap at the end it finds
  the next position.
-/

namespace KarsaSec.Found

variable {α : Type*} [LinearOrder α]

/-! ## The next position -/

/-- The first position after a point, or the first of all where none is after it. Kind: D -/
def IsNext (S : Set α) (x p : α) : Prop :=
  p ∈ S ∧ ((x < p ∧ ∀ q ∈ S, x < q → p ≤ q) ∨ ((∀ q ∈ S, q ≤ x) ∧ ∀ q ∈ S, p ≤ q))

theorem IsNext.unique {S : Set α} {x p q : α} (hp : IsNext S x p) (hq : IsNext S x q) : p = q := by
  obtain ⟨hpmem, hp⟩ := hp
  obtain ⟨hqmem, hq⟩ := hq
  rcases hp with ⟨hxp, hpleast⟩ | ⟨hall, hpleast⟩
  · grind
  · grind

/-- Without other positions, a next position stays next. Kind: L -/
theorem IsNext.mono {S T : Set α} {x p : α} (h : IsNext T x p) (hsub : S ⊆ T) (hp : p ∈ S) : IsNext S x p := by
  obtain ⟨_, ⟨hxp, hleast⟩ | ⟨hall, hleast⟩⟩ := h
  · exact ⟨hp, Or.inl ⟨hxp, fun q hq hxq => hleast q (hsub hq) hxq⟩⟩
  · exact ⟨hp, Or.inr ⟨fun q hq => hall q (hsub hq), fun q hq => hleast q (hsub hq)⟩⟩

/-! ## Owned positions -/

variable {ι : Type*}

/-- A point is placed with the owner of the next owned position. Kind: D -/
def Places (owner : α → Option ι) (x : α) (w : ι) : Prop :=
  ∃ p, IsNext {q | (owner q).isSome} x p ∧ owner p = some w

theorem Places.unique {owner : α → Option ι} {x : α} {v w : ι} (hv : Places owner x v) (hw : Places owner x w) :
    v = w := by
  obtain ⟨p, hp, hpv⟩ := hv
  obtain ⟨q, hq, hqw⟩ := hw
  obtain rfl := hp.unique hq
  exact Option.some.inj (hpv.symm.trans hqw)

/-- What an owner holds still places with it when the others have no more than before. Kind: P -/
theorem Places.mono {owner owner' : α → Option ι} {x : α} {w : ι} (h : Places owner x w)
    (hless : ∀ p, (owner' p).isSome → (owner p).isSome) (hkeep : ∀ p, owner p = some w → owner' p = some w) :
    Places owner' x w := by
  obtain ⟨p, hp, hw⟩ := h
  have hw' := hkeep p hw
  have hmem : p ∈ {q | (owner' q).isSome} := by
    show (owner' p).isSome
    rw [hw']
    rfl
  exact ⟨p, hp.mono (fun q hq => hless q hq) hmem, hw'⟩

/-! ## The search by halves -/

theorem add_div_two_lt {lo hi : ℕ} (h : lo < hi) : (lo + hi) / 2 < hi := by omega

/-- The loop of the search: everything before `lo` is at most `x`, everything from `hi` on above it. Kind: D -/
def bisectLoop (l : List α) (x : α) (lo hi : ℕ) (hhi : hi ≤ l.length) : ℕ :=
  if h : lo < hi then
    if x < l.get ⟨(lo + hi) / 2, (add_div_two_lt h).trans_le hhi⟩ then
      bisectLoop l x lo ((lo + hi) / 2) ((add_div_two_lt h).le.trans hhi)
    else bisectLoop l x ((lo + hi) / 2 + 1) hi hhi
  else lo
termination_by hi - lo

/-- `bisect_right(l, x)`. Kind: D -/
def bisectRight (l : List α) (x : α) : ℕ := bisectLoop l x 0 l.length le_rfl

/-- An index cuts a list at a point. Kind: D -/
structure CutsAt (l : List α) (x : α) (r : ℕ) : Prop where
  bound : r ≤ l.length
  before : ∀ i : Fin l.length, i.1 < r → l.get i ≤ x
  after : ∀ i : Fin l.length, r ≤ i.1 → x < l.get i

theorem get_le_get {l : List α} (hl : l.Pairwise (· ≤ ·)) {i j : Fin l.length} (hij : i ≤ j) : l.get i ≤ l.get j := by
  grind [List.pairwise_iff_get]

theorem bisectLoop_cutsAt {l : List α} (hl : l.Pairwise (· ≤ ·)) {x : α} {lo hi : ℕ} (hhi : hi ≤ l.length)
    (hle : lo ≤ hi) (hbefore : ∀ i : Fin l.length, i.1 < lo → l.get i ≤ x)
    (hafter : ∀ i : Fin l.length, hi ≤ i.1 → x < l.get i) : CutsAt l x (bisectLoop l x lo hi hhi) := by
  fun_induction bisectLoop l x lo hi hhi with
  | case1 lo hi hhi hlt hx ih =>
    refine ih (by omega) hbefore fun i hi => ?_
    exact lt_of_lt_of_le hx (get_le_get hl hi)
  | case2 lo hi hhi hlt hx ih =>
    refine ih (by omega) (fun i hi => ?_) hafter
    exact (get_le_get hl (Nat.lt_succ_iff.mp hi)).trans (not_lt.mp hx)
  | case3 lo hi hhi hstop =>
    obtain rfl : lo = hi := by omega
    exact ⟨hhi, hbefore, hafter⟩

theorem bisectRight_cutsAt {l : List α} (hl : l.Pairwise (· ≤ ·)) (x : α) : CutsAt l x (bisectRight l x) :=
  bisectLoop_cutsAt hl le_rfl (Nat.zero_le _) (fun _ hi => absurd hi (Nat.not_lt_zero _))
    fun i hi => absurd i.2 (not_lt.mpr hi)

/-- The index after the last one wraps to the first. Kind: D -/
def wrap (n index : ℕ) : ℕ := if index = n then 0 else index

/-- The search by halves finds the next position. Kind: P -/
theorem isNext_bisectRight {l : List α} (hl : l.Pairwise (· ≤ ·)) (hne : l ≠ []) (x : α) :
    ∃ p, l[wrap l.length (bisectRight l x)]? = some p ∧ IsNext {q | q ∈ l} x p := by
  obtain ⟨hbound, hbefore, hafter⟩ := bisectRight_cutsAt hl x
  have hpos : 0 < l.length := List.length_pos_iff.mpr hne
  by_cases hend : bisectRight l x = l.length
  · refine ⟨l.get ⟨0, hpos⟩, ?_, List.get_mem _ _, Or.inr ⟨fun q hq => ?_, fun q hq => ?_⟩⟩
    · rw [wrap, if_pos hend]
      exact List.getElem?_eq_getElem hpos
    · grind [List.get_of_mem]
    · obtain ⟨i, rfl⟩ := List.get_of_mem hq
      exact get_le_get hl (Nat.zero_le _)
  · have hlt : bisectRight l x < l.length := lt_of_le_of_ne hbound hend
    refine ⟨l.get ⟨_, hlt⟩, ?_, List.get_mem _ _, Or.inl ⟨hafter ⟨_, hlt⟩ le_rfl, fun q hq hxq => ?_⟩⟩
    · rw [wrap, if_neg hend]
      exact List.getElem?_eq_getElem hlt
    · obtain ⟨i, rfl⟩ := List.get_of_mem hq
      refine get_le_get hl ?_
      by_contra hi
      exact absurd hxq (not_lt.mpr (hbefore i (not_le.mp hi)))

end KarsaSec.Found
