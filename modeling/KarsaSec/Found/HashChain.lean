import Mathlib.Data.List.Infix
import Mathlib.Order.Lattice

/-!
# Chains of marks

The items of a chain name the mark of the item before them. `link` is the mark that an item names, `mark` its
own one; `Sealed` says that the mark of an item is made of what it holds, the link included.

* `Linked prev l`: the items of `l` follow each other, the first one after the mark `prev`.
* `Deep n m`: the mark `m` ends a chain of `n` sealed items. Where sealed items of the same mark have the
  same link, `n` is determined (`Deep.unique`).
* `Linked.kept`: a chain whose marks are marks of another chain is a beginning of it.
* `Linked.deeper`: along a chain that is sorted by some place, the places and the depths agree.
-/

namespace KarsaSec.Found

variable {α μ : Type*} (link : α → Option μ) (mark : α → μ) (Sealed : α → Prop)

/-- The items follow each other, the first one after the given mark. Kind: D -/
def Linked : Option μ → List α → Prop
  | _, [] => True
  | prev, a :: rest => link a = prev ∧ Sealed a ∧ Linked (some (mark a)) rest

/-- The mark of the last item, or else the given one. Kind: D -/
def lastMark : Option μ → List α → Option μ
  | prev, [] => prev
  | _, a :: rest => lastMark (some (mark a)) rest

/-- The mark ends a chain of so many sealed items. Kind: D -/
inductive Deep : ℕ → Option μ → Prop
  | start : Deep 0 none
  | next {n : ℕ} {a : α} (hsealed : Sealed a) (hlink : Deep n (link a)) : Deep (n + 1) (some (mark a))

variable {link mark Sealed}

theorem lastMark_none (l : List α) : lastMark mark none l = l.getLast?.map mark := by
  have hany : ∀ (l : List α) (a : α), lastMark mark (some (mark a)) l = some (mark (l.getLast?.getD a)) := by
    intro l
    induction l with
    | nil => exact fun a => rfl
    | cons b rest ih =>
      intro a
      show lastMark mark (some (mark b)) rest = _
      rw [ih b]
      cases rest with
      | nil => rfl
      | cons c rest => simp [List.getLast?_cons]
  cases l with
  | nil => rfl
  | cons a rest =>
    show lastMark mark (some (mark a)) rest = _
    rw [hany rest a, List.getLast?_cons]
    rfl

theorem linked_concat {prev : Option μ} {l : List α} {a : α} :
    Linked link mark Sealed prev (l ++ [a]) ↔
      Linked link mark Sealed prev l ∧ link a = lastMark mark prev l ∧ Sealed a := by
  induction l generalizing prev with
  | nil => simp [Linked, lastMark]
  | cons b rest ih =>
    simp only [List.cons_append, Linked, lastMark, ih]
    tauto

theorem Linked.beginning {prev : Option μ} {l l' : List α} (h : Linked link mark Sealed prev l)
    (hl : l' <+: l) : Linked link mark Sealed prev l' := by
  induction l' generalizing prev l with
  | nil => trivial
  | cons a rest ih =>
    obtain ⟨rest', rfl⟩ := hl
    obtain ⟨hlink, hsealed, hrest⟩ := h
    exact ⟨hlink, hsealed, ih hrest (List.prefix_append _ _)⟩

/-! ## Depth -/

section

variable (hseal : ∀ a b, Sealed a → Sealed b → mark a = mark b → link a = link b)
include hseal

/-- A mark is at one depth only. Kind: L -/
theorem Deep.unique {m n : ℕ} {h : Option μ} (hm : Deep link mark Sealed m h)
    (hn : Deep link mark Sealed n h) : m = n := by
  induction hm generalizing n with
  | start => cases hn; rfl
  | @next m a hsealed _ ih =>
    generalize hmark : some (mark a) = end' at hn
    cases hn with
    | start => cases hmark
    | @next n b hsealed' hlink' =>
      rw [← hseal a b hsealed hsealed' (Option.some.inj hmark)] at hlink'
      rw [ih hlink']

omit hseal in
theorem Linked.deep {prev : Option μ} {l : List α} {n : ℕ} (h : Linked link mark Sealed prev l)
    (hprev : Deep link mark Sealed n prev) :
    ∀ a ∈ l, Sealed a ∧ ∃ i, n ≤ i ∧ Deep link mark Sealed i (link a) := by
  induction l generalizing prev n with
  | nil => exact fun a ha => absurd ha List.not_mem_nil
  | cons b rest ih =>
    obtain ⟨hlink, hsealed, hrest⟩ := h
    intro a ha
    rcases List.mem_cons.mp ha with rfl | ha
    · exact ⟨hsealed, n, le_rfl, by rw [hlink]; exact hprev⟩
    · have hnext : Deep link mark Sealed (n + 1) (some (mark b)) :=
        .next hsealed (by rw [hlink]; exact hprev)
      obtain ⟨hsealed', i, hi, hdeep⟩ := ih hrest hnext a ha
      exact ⟨hsealed', i, by omega, hdeep⟩

/-- A chain whose marks are marks of another chain is a beginning of it. Kind: L -/
theorem Linked.kept {prev : Option μ} {l l' : List α} {n : ℕ} (h : Linked link mark Sealed prev l)
    (h' : Linked link mark Sealed prev l') (hprev : Deep link mark Sealed n prev)
    (hmarks : ∀ a ∈ l', ∃ b ∈ l, mark b = mark a) :
    ∃ kept, kept <+: l ∧ List.Forall₂ (fun b a => Sealed b ∧ Sealed a ∧ mark b = mark a) kept l' := by
  induction l' generalizing prev l n with
  | nil => exact ⟨[], List.nil_prefix, List.Forall₂.nil⟩
  | cons a rest' ih =>
    obtain ⟨hlink', hsealed', hrest'⟩ := h'
    have hnext' : Deep link mark Sealed (n + 1) (some (mark a)) :=
      .next hsealed' (by rw [hlink']; exact hprev)
    obtain ⟨b, hb, hmark⟩ := hmarks a List.mem_cons_self
    rcases l with _ | ⟨first, rest⟩
    · exact absurd hb List.not_mem_nil
    obtain ⟨hlink, hsealed, hrest⟩ := h
    have hnext : Deep link mark Sealed (n + 1) (some (mark first)) :=
      .next hsealed (by rw [hlink]; exact hprev)
    -- the item with the mark of `a` comes after the same mark as `a`, so it is the first one
    have hfirst : mark first = mark a := by
      rcases List.mem_cons.mp hb with rfl | hb
      · exact hmark
      · obtain ⟨hsealedb, i, hi, hdeep⟩ := hrest.deep hnext b hb
        rw [hseal b a hsealedb hsealed' hmark, hlink'] at hdeep
        exact absurd (hdeep.unique hseal hprev) (by omega)
    have hothers : ∀ c ∈ rest', ∃ b ∈ rest, mark b = mark c := by
      intro c hc
      obtain ⟨b, hb, hmarkc⟩ := hmarks c (List.mem_cons_of_mem _ hc)
      rcases List.mem_cons.mp hb with rfl | hb
      · obtain ⟨hsealedc, i, hi, hdeep⟩ := hrest'.deep hnext' c hc
        rw [← hseal b c hsealed hsealedc hmarkc, hlink] at hdeep
        exact absurd (hdeep.unique hseal hprev) (by omega)
      · exact ⟨b, hb, hmarkc⟩
    rw [hfirst] at hrest hnext
    obtain ⟨kept, hkept, hsame⟩ := ih hrest hrest' hnext hothers
    exact ⟨first :: kept, List.cons_prefix_cons.mpr ⟨rfl, hkept⟩,
      List.Forall₂.cons ⟨hsealed, hsealed', hfirst⟩ hsame⟩

/-- Along a chain that is sorted by some place, a later place means a greater depth. Kind: L -/
theorem Linked.deeper {γ : Type*} [LinearOrder γ] {place : α → γ} {prev : Option μ} {l : List α} {n : ℕ}
    (h : Linked link mark Sealed prev l) (hprev : Deep link mark Sealed n prev)
    (hsorted : l.Pairwise fun a b => place a ≤ place b) {a b : α} (ha : a ∈ l) (hb : b ∈ l)
    (hplace : place a < place b) {i j : ℕ} (hi : Deep link mark Sealed i (link a))
    (hj : Deep link mark Sealed j (link b)) : i < j := by
  induction l generalizing prev n with
  | nil => exact absurd ha List.not_mem_nil
  | cons first rest ih =>
    obtain ⟨hlink, hsealed, hrest⟩ := h
    obtain ⟨hfirst, hsorted⟩ := List.pairwise_cons.mp hsorted
    have hnext : Deep link mark Sealed (n + 1) (some (mark first)) :=
      .next hsealed (by rw [hlink]; exact hprev)
    rcases List.mem_cons.mp hb with rfl | hb'
    · grind
    · rcases List.mem_cons.mp ha with rfl | ha
      · obtain ⟨_, j', hj', hdeep⟩ := hrest.deep hnext b hb'
        rw [hlink] at hi
        rw [hi.unique hseal hprev, hj.unique hseal hdeep]
        omega
      · exact ih hrest hnext hsorted ha hb'

end

end KarsaSec.Found
