import KarsaSec.Found.Text
import Mathlib.Algebra.BigOperators.Group.List.Basic
import Mathlib.Algebra.Ring.Int.Defs
import Mathlib.Data.List.Perm.Basic

/-!
# Edits of a text

Parts of a text that are replaced: all at once, and one after the other by searching for them.

* `OccursAt`, `OccursOnce`: occurrences, overlapping ones included.
* `Replaces s l s'`: `s'` is `s` with all the edits of `l` made side by side.
* `InPlace`: edits that are made in turn, each at the first place where its old text is found, are made where the given text has it.
  `inPlace_iff`: exactly when the places do not overlap, and no text in front of the place to which one has moved looks like it.
-/

namespace KarsaSec.Found

variable {α : Type*}

/-! ## Occurrences -/

/-- `sub` stands in `s` behind `i` characters. Kind: D -/
def OccursAt (sub s : List α) (i : ℕ) : Prop := ∃ a b, s = a ++ sub ++ b ∧ a.length = i

/-- `sub` stands in `s` at one place only; places may overlap. Kind: D -/
def OccursOnce (sub s : List α) : Prop := ∃! i, OccursAt sub s i

section occurrences

variable {sub s s' a b : List α} {i j : ℕ}

theorem occursAt_length (a sub b : List α) : OccursAt sub (a ++ sub ++ b) a.length := ⟨a, b, rfl, rfl⟩

theorem OccursAt.append_right (h : OccursAt sub s i) (t : List α) : OccursAt sub (s ++ t) i := by
  obtain ⟨a, b, rfl, rfl⟩ := h
  exact ⟨a, b ++ t, List.append_assoc _ _ _, rfl⟩

theorem OccursAt.append_left (h : OccursAt sub s i) (t : List α) : OccursAt sub (t ++ s) (t.length + i) := by
  obtain ⟨a, b, rfl, rfl⟩ := h
  exact ⟨t ++ a, b, by rw [List.append_assoc, List.append_assoc, List.append_assoc], List.length_append⟩

theorem OccursAt.le (h : OccursAt sub s i) : i + sub.length ≤ s.length := by
  obtain ⟨a, b, rfl, rfl⟩ := h
  rw [List.length_append, List.length_append]
  exact Nat.le_add_right _ _

/-- The empty text stands once in the empty text only. Kind: L -/
theorem OccursOnce.nil (h : OccursOnce [] s) : s = [] := by
  have hlast : OccursAt [] s s.length := ⟨s, [], by rw [List.append_nil, List.append_nil], rfl⟩
  exact List.length_eq_zero_iff.mp (h.unique hlast ⟨[], s, rfl, rfl⟩)

theorem OccursOnce.eq_nil (h : OccursOnce sub []) : sub = [] := by
  obtain ⟨i, hi, -⟩ := h
  exact List.length_eq_zero_iff.mp (Nat.le_zero.mp ((Nat.le_add_left _ _).trans hi.le))

variable [DecidableEq α]

/-- The search stops at the first occurrence. Kind: P -/
theorem splitFirst_eq_some_iff :
    splitFirst sub s = some (a, b) ↔ s = a ++ sub ++ b ∧ ∀ j < a.length, ¬OccursAt sub s j := by
  constructor
  · intro h
    refine ⟨eq_of_splitFirst h, fun j hj hocc => ?_⟩
    obtain ⟨x, y, rfl, rfl⟩ := hocc
    obtain ⟨a', b', h', hle⟩ := splitFirst_append sub y x
    rw [h] at h'
    cases h'
    exact absurd hj (Nat.not_lt.mpr hle)
  · rintro ⟨rfl, hfirst⟩
    obtain ⟨a', b', h, hle⟩ := splitFirst_append sub b a
    have heq := eq_of_splitFirst h
    have hocc : OccursAt sub (a ++ sub ++ b) a'.length := ⟨a', b', heq, rfl⟩
    have hlen : a'.length = a.length := by grind
    rw [List.append_assoc, List.append_assoc] at heq
    obtain ⟨rfl, htail⟩ := List.append_inj heq hlen.symm
    rw [h, List.append_cancel_left htail]

/-- The place where the search finds a text. Kind: D -/
def firstPlace (sub s : List α) : ℕ := ((splitFirst sub s).map fun p => p.1.length).getD 0

theorem OccursOnce.occursAt_iff (h : OccursOnce sub s) : OccursAt sub s i ↔ i = firstPlace sub s := by
  have hfirst : OccursAt sub s (firstPlace sub s) := by
    obtain ⟨i, ⟨a, b, rfl, -⟩, -⟩ := h
    obtain ⟨a', b', hsplit, -⟩ := splitFirst_append sub b a
    rw [firstPlace, hsplit]
    exact ⟨a', b', eq_of_splitFirst hsplit, rfl⟩
  exact ⟨fun hi => h.unique hi hfirst, fun hi => hi ▸ hfirst⟩

end occurrences

/-! ## Edits side by side -/

/-- A part of a text, and what comes in its place. Kind: D -/
structure Edit (α : Type*) where
  old : List α
  new : List α

/-- What an edit adds to the length. Kind: D -/
def Edit.gain (e : Edit α) : ℤ := e.new.length - e.old.length

/-- The second text is the first with the edits made, each at a place of its own. Kind: D -/
inductive Replaces : List α → List (Edit α) → List α → Prop
  | done (s : List α) : Replaces s [] s
  | step {rest rest' : List α} {edits all : List (Edit α)} (gap : List α) (e : Edit α) (h : Replaces rest edits rest')
      (hall : all.Perm (e :: edits)) : Replaces (gap ++ e.old ++ rest) all (gap ++ e.new ++ rest')

namespace Replaces

variable {s s' t t' a b o : List α} {l l' m : List (Edit α)} {e : Edit α}

theorem perm (h : Replaces s l s') (hp : l'.Perm l) : Replaces s l' s' := by
  cases h with
  | done => rw [hp.eq_nil]; exact done s
  | step gap e h hall => exact step gap e h (hp.trans hall)

theorem prepend (h : Replaces s l s') (t : List α) : Replaces (t ++ s) l (t ++ s') := by
  cases h with
  | done => exact done _
  | step gap e h hall =>
    have hstep := step (t ++ gap) e h hall
    simp only [List.append_assoc] at hstep ⊢
    exact hstep

theorem append (h : Replaces s l s') (ht : Replaces t m t') : Replaces (s ++ t) (l ++ m) (s' ++ t') := by
  induction h with
  | done s => exact ht.prepend s
  | step gap e h hall ih =>
    have hstep := step gap e ih (hall.append_right m)
    simp only [List.append_assoc] at hstep ⊢
    exact hstep

/-- One more edit, between the others. Kind: L -/
theorem insert (ha : Replaces a l s) (e : Edit α) (hb : Replaces b m t) :
    Replaces (a ++ e.old ++ b) (l ++ e :: m) (s ++ e.new ++ t) := by
  have hmid : Replaces (e.old ++ b) (e :: m) (e.new ++ t) := step [] e hb (.refl _)
  rw [List.append_assoc, List.append_assoc]
  exact ha.append hmid

theorem length_eq (h : Replaces s l s') : (s'.length : ℤ) = s.length + (l.map Edit.gain).sum := by
  induction h with
  | done s => exact (Int.add_zero _).symm
  | step gap e h hall ih =>
    rw [(hall.map Edit.gain).sum_eq, List.map_cons, List.sum_cons, Edit.gain]
    simp only [List.length_append]
    omega

theorem occursAt (h : Replaces s l s') (he : e ∈ l) : ∃ i, OccursAt e.old s i := by
  induction h with
  | done => exact absurd he List.not_mem_nil
  | step gap e' h hall ih =>
    rcases List.mem_cons.mp (hall.mem_iff.mp he) with rfl | hrest
    · exact ⟨_, occursAt_length _ _ _⟩
    · obtain ⟨i, hi⟩ := ih hrest
      exact ⟨_, hi.append_left _⟩

/-- A part that none of the edits touches stays, between the edits in front of it and those behind it. Kind: P -/
theorem split (h : Replaces s l s') (hs : s = a ++ o ++ b)
    (hclear : ∀ e ∈ l, ∀ j, OccursAt e.old s j → j + e.old.length ≤ a.length ∨ a.length + o.length ≤ j) :
    ∃ l₁ l₂ a' b', l.Perm (l₁ ++ l₂) ∧ Replaces a l₁ a' ∧ Replaces b l₂ b' ∧ s' = a' ++ o ++ b' := by
  induction h generalizing a with
  | done s => exact ⟨[], [], a, b, .refl _, done a, done b, hs⟩
  | @step rest rest' edits all gap e h hall ih =>
    have hocc := hclear e (hall.mem_iff.mpr List.mem_cons_self) _ (occursAt_length gap e.old rest)
    rcases hocc with hbefore | hafter
    · -- the edit lies in front: it is made there, and the rest is cut further on
      obtain ⟨a₂, rfl⟩ : gap ++ e.old <+: a := by grind [List.prefix_of_prefix_length_le]
      rw [List.append_assoc (gap ++ e.old), List.append_assoc (gap ++ e.old)] at hs
      have hrest : rest = a₂ ++ o ++ b := by rw [List.append_cancel_left hs, List.append_assoc]
      obtain ⟨l₁, l₂, a', b', hperm, ha', hb', rfl⟩ := ih hrest fun e' he' j hj => by
        have hj' := hclear e' (hall.mem_iff.mpr (List.mem_cons_of_mem _ he')) _ (hj.append_left (gap ++ e.old))
        rw [@List.length_append _ (gap ++ e.old)] at hj'
        omega
      refine ⟨e :: l₁, l₂, gap ++ e.new ++ a', b', hall.trans (hperm.cons e), step gap e ha' (.refl _), hb', ?_⟩
      simp only [List.append_assoc]
    · obtain ⟨gap₂, rfl⟩ : a ++ o <+: gap := by grind [List.prefix_of_prefix_length_le]
      simp only [List.append_assoc] at hs
      have hb : b = gap₂ ++ e.old ++ rest := by grind [List.append_cancel_left]
      refine ⟨[], all, a, gap₂ ++ e.new ++ rest', .refl _, done a, ?_, by simp only [List.append_assoc]⟩
      rw [hb]
      exact step gap₂ e h hall

end Replaces

/-! ## Edits in turn -/

section inTurn

variable [DecidableEq α]

/-- The place of an edit in a text. Kind: D -/
def Edit.place (s : List α) (e : Edit α) : ℕ := firstPlace e.old s

/-- Where the place of an edit has moved to, after the edits in front of it. Kind: D -/
def Edit.moved (s : List α) (earlier : List (Edit α)) (e : Edit α) : ℤ :=
  e.place s + ((earlier.filter fun e' => e'.place s < e.place s).map Edit.gain).sum

/-- The places of two edits do not overlap. Kind: D -/
def Edit.Apart (s : List α) (e' e : Edit α) : Prop :=
  e'.place s + e'.old.length ≤ e.place s ∨ e.place s + e.old.length ≤ e'.place s

/-- The search for an edit in `x`, which is `s` with the earlier edits, comes upon the old text as `s` has it: around it are the
two sides of `s`, each with its share of the earlier edits. Kind: D -/
def MadeInPlace (s : List α) (earlier : List (Edit α)) (x : List α) (e : Edit α) : Prop :=
  ∃ a b a' b' l₁ l₂, s = a ++ e.old ++ b ∧ splitFirst e.old x = some (a', b') ∧ earlier.Perm (l₁ ++ l₂) ∧
    Replaces a l₁ a' ∧ Replaces b l₂ b'

/-- Edits made in turn are each made in place. Kind: D -/
def InPlace (s : List α) : List (Edit α) → List α → List (Edit α) → Prop
  | _, _, [] => True
  | earlier, x, e :: rest =>
    MadeInPlace s earlier x e ∧ InPlace s (earlier ++ [e]) (replaceFirst e.old e.new x) rest

/-- No edit overlaps an earlier one, and in the text that the earlier ones leave, nothing in front of the place to which it has
moved looks like its old text. Kind: D -/
def Undisturbed (s : List α) : List (Edit α) → List α → List (Edit α) → Prop
  | _, _, [] => True
  | earlier, x, e :: rest =>
    ((∀ e' ∈ earlier, e'.Apart s e) ∧ ∀ j : ℕ, j < e.moved s earlier → ¬OccursAt e.old x j) ∧
      Undisturbed s (earlier ++ [e]) (replaceFirst e.old e.new x) rest

/-- The edits made in turn. Kind: D -/
def editInTurn : List (Edit α) → List α → List α
  | [], x => x
  | e :: rest, x => editInTurn rest (replaceFirst e.old e.new x)

variable {s x a b a' b' : List α} {earlier rest l₁ l₂ : List (Edit α)} {e : Edit α}

theorem MadeInPlace.replaces (h : MadeInPlace s earlier x e) :
    Replaces s (earlier ++ [e]) (replaceFirst e.old e.new x) := by
  obtain ⟨a, b, a', b', l₁, l₂, rfl, hsplit, hperm, ha, hb⟩ := h
  have hnew : replaceFirst e.old e.new x = a' ++ e.new ++ b' := by rw [replaceFirst, hsplit]
  rw [hnew]
  refine (ha.insert e hb).perm ((hperm.append_right [e]).trans ?_)
  exact (List.perm_append_singleton e _).trans List.perm_middle.symm

/-- Edits that are made in place come to what they come to side by side. Kind: P -/
theorem InPlace.replaces : {rest : List (Edit α)} → {earlier : List (Edit α)} → {x : List α} → Replaces s earlier x →
    InPlace s earlier x rest → Replaces s (earlier ++ rest) (editInTurn rest x)
  | [], earlier, x, hx, _ => by
    rw [List.append_nil]
    exact hx
  | e :: rest, earlier, x, _, h => by
    have hstep := InPlace.replaces h.1.replaces h.2
    rw [List.append_assoc] at hstep
    exact hstep

/-- Where the old text of an edit stands, in a part of the text. Kind: L -/
theorem place_of_occursAt {i : ℕ} (hone : OccursOnce e.old s) (h : OccursAt e.old s i) : e.place s = i :=
  (hone.occursAt_iff.mp h).symm

theorem place_lt_of_replaces {e' : Edit α} (hs : s = a ++ b) (hone : OccursOnce e'.old s) (ha : Replaces a l₁ a')
    (h : e' ∈ l₁) : e'.place s + e'.old.length ≤ a.length := by
  obtain ⟨i, hi⟩ := ha.occursAt h
  rw [place_of_occursAt hone (hs ▸ hi.append_right b)]
  exact hi.le

theorem le_place_of_replaces {e' : Edit α} (hs : s = a ++ b) (hone : OccursOnce e'.old s) (hb : Replaces b l₂ b')
    (h : e' ∈ l₂) : a.length ≤ e'.place s := by
  obtain ⟨i, hi⟩ := hb.occursAt h
  rw [place_of_occursAt hone (hs ▸ hi.append_left a)]
  exact Nat.le_add_right _ _

/-- The edits in front of `a` are those placed there. Kind: L -/
theorem moved_eq (hs : s = a ++ e.old ++ b) (hplace : e.place s = a.length)
    (hone : ∀ e' ∈ l₁ ++ l₂, OccursOnce e'.old s ∧ e'.old ≠ []) (ha : Replaces a l₁ a') (hb : Replaces b l₂ b')
    (hperm : earlier.Perm (l₁ ++ l₂)) : e.moved s earlier = a'.length := by
  have hfront : l₁.filter (fun e' => e'.place s < e.place s) = l₁ := by
    refine List.filter_eq_self.mpr fun e' he' => decide_eq_true ?_
    obtain ⟨honce, hne⟩ := hone e' (List.mem_append_left _ he')
    have hle := place_lt_of_replaces (hs.trans (List.append_assoc _ _ _)) honce ha he'
    have hpos := List.length_pos_iff.mpr hne
    omega
  have hbehind : l₂.filter (fun e' => e'.place s < e.place s) = [] := by
    refine List.filter_eq_nil_iff.mpr fun e' he' => ?_
    have hle := le_place_of_replaces hs (hone e' (List.mem_append_right _ he')).1 hb he'
    rw [List.length_append] at hle
    rw [decide_eq_true_eq]
    omega
  rw [Edit.moved, ((hperm.filter _).map Edit.gain).sum_eq, List.filter_append, hfront, hbehind, List.append_nil, hplace,
    ha.length_eq]

/-- **An edit is made in place exactly when it overlaps no earlier one and nothing in front looks like its old text.** Kind: P -/
theorem madeInPlace_iff (hone : ∀ e' ∈ earlier, OccursOnce e'.old s) (he : OccursOnce e.old s) (hx : Replaces s earlier x) :
    MadeInPlace s earlier x e ↔
      (∀ e' ∈ earlier, e'.Apart s e) ∧ ∀ j : ℕ, j < e.moved s earlier → ¬OccursAt e.old x j := by
  by_cases hnil : s = []
  · -- in the empty text, all places are its start
    subst hnil
    have hplace : ∀ e' : Edit α, e'.old = [] → e'.place [] = 0 := fun e' h' => by rw [Edit.place, h']; rfl
    have hold := he.eq_nil
    constructor
    · intro _
      have hfilter : earlier.filter (fun e' => e'.place [] < e.place []) = [] := by simp_all
      refine ⟨fun e' he' => Or.inl ?_, fun j hj => ?_⟩
      · rw [hplace e hold, hplace e' (hone e' he').eq_nil, (hone e' he').eq_nil]
        exact le_rfl
      · grind [Edit.moved]
    · intro _
      have hsplit : splitFirst e.old x = some ([], x) := by simp_all [splitFirst_eq_some_iff]
      exact ⟨[], [], [], x, [], earlier, by rw [hold]; rfl, hsplit, .refl _, .done [], hx⟩
  · have hne : ∀ e' : Edit α, OccursOnce e'.old s → e'.old ≠ [] := fun e' h' hold => hnil (OccursOnce.nil (hold ▸ h'))
    constructor
    · rintro ⟨a, b, a', b', l₁, l₂, hs, hsplit, hperm, ha, hb⟩
      have hplace : e.place s = a.length := place_of_occursAt he (hs ▸ occursAt_length a e.old b)
      have hboth : ∀ e' ∈ l₁ ++ l₂, OccursOnce e'.old s ∧ e'.old ≠ [] := fun e' he' =>
        ⟨hone e' (hperm.mem_iff.mpr he'), hne e' (hone e' (hperm.mem_iff.mpr he'))⟩
      constructor
      · intro e' he'
        rcases List.mem_append.mp (hperm.mem_iff.mp he') with h₁ | h₂
        · have hle := place_lt_of_replaces (hs.trans (List.append_assoc _ _ _)) (hone e' he') ha h₁
          exact Or.inl (hplace ▸ hle)
        · have hle := le_place_of_replaces hs (hone e' he') hb h₂
          rw [List.length_append, ← hplace] at hle
          exact Or.inr hle
      · grind [moved_eq, splitFirst_eq_some_iff]
    · rintro ⟨hapart, hfirst⟩
      obtain ⟨i, ⟨a, b, hs, rfl⟩, -⟩ := id he
      have hplace : e.place s = a.length := place_of_occursAt he (hs ▸ occursAt_length a e.old b)
      obtain ⟨l₁, l₂, a', b', hperm, ha, hb, rfl⟩ := hx.split hs fun e' he' j hj => by
        have hj' := place_of_occursAt (hone e' he') hj
        have h' := hapart e' he'
        rw [Edit.Apart, hj', hplace] at h'
        exact h'
      refine ⟨a, b, a', b', l₁, l₂, hs, splitFirst_eq_some_iff.mpr ⟨rfl, fun j hj => hfirst j ?_⟩, hperm, ha, hb⟩
      rw [moved_eq hs hplace (fun e' he' => ⟨hone e' (hperm.mem_iff.mpr he'), hne e' (hone e' (hperm.mem_iff.mpr he'))⟩)
        ha hb hperm]
      omega

/-- **Edits in turn are all made in place exactly when they are undisturbed.** Kind: P -/
theorem inPlace_iff : {rest : List (Edit α)} → {earlier : List (Edit α)} → {x : List α} →
    (∀ e ∈ earlier ++ rest, OccursOnce e.old s) → Replaces s earlier x →
      (InPlace s earlier x rest ↔ Undisturbed s earlier x rest)
  | [], _, _, _, _ => Iff.rfl
  | e :: rest, earlier, x, hone, hx => by
    have hhead := madeInPlace_iff (fun e' he' => hone e' (List.mem_append_left _ he'))
      (hone e (List.mem_append_right _ List.mem_cons_self)) hx
    have hone' : ∀ e' ∈ earlier ++ [e] ++ rest, OccursOnce e'.old s := by
      rw [List.append_assoc]
      exact hone
    rw [InPlace, Undisturbed, ← hhead]
    exact and_congr_right fun hmade => inPlace_iff hone' hmade.replaces

end inTurn

end KarsaSec.Found
