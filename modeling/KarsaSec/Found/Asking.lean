import Mathlib.Data.List.Basic

/-!
# Filters whose question may fail

A question about the elements of a list that answers yes or no or fails; `none` is the failure.

* `keep p` is the sublist with the answer yes, if no answer fails.
* `andThen p q` asks `p` and, after a yes, `q`. Filtering twice asks the inner question first (`keep_keep`).
* `inTurn` asks the questions of a list one after a yes to the other.
* `keep_flatMap`: a filter may be put behind a map to lists if its answer at an element is its answer at every element
  the map makes of it, failures included.
-/

namespace KarsaSec.Found

variable {α β : Type*}

/-- The elements with the answer yes, unless an answer fails. Kind: D -/
def keep (p : α → Option Bool) : List α → Option (List α)
  | [] => some []
  | a :: l =>
    match p a with
    | some true => (keep p l).map (a :: ·)
    | some false => keep p l
    | none => none

theorem keep_cons (p : α → Option Bool) (a : α) (l : List α) :
    keep p (a :: l) = match p a with
      | some true => (keep p l).map (a :: ·)
      | some false => keep p l
      | none => none := rfl

/-- The second question is asked after a yes. Kind: D -/
def andThen (p q : α → Option Bool) (a : α) : Option Bool :=
  match p a with
  | some true => q a
  | r => r

/-- The answer at an element is the answer at everything that is made of it. Kind: D -/
def AgreesAlong (p : α → Option Bool) (q : β → Option Bool) (f : α → List β) (a : α) : Prop :=
  match p a with
  | some answer => ∀ b ∈ f a, q b = some answer
  | none => ∃ b ∈ f a, q b = none

theorem keep_congr {p q : α → Option Bool} {l : List α} (h : ∀ a ∈ l, p a = q a) : keep p l = keep q l := by
  induction l with
  | nil => rfl
  | cons a l ih =>
    rw [keep_cons, keep_cons, h a List.mem_cons_self, ih fun b hb => h b (List.mem_cons_of_mem _ hb)]

theorem subset_of_keep {p : α → Option Bool} {l r : List α} (h : keep p l = some r) : r ⊆ l := by
  induction l generalizing r with
  | nil =>
    cases h
    exact List.Subset.refl _
  | cons a l ih =>
    rw [keep_cons] at h
    split at h
    · grind [Option.map_eq_some_iff]
    · exact List.subset_cons_of_subset a (ih h)
    · cases h

theorem keep_append (p : α → Option Bool) (l m : List α) :
    keep p (l ++ m) = (keep p l).bind fun x => (keep p m).map (x ++ ·) := by
  induction l with
  | nil =>
    rw [List.nil_append]
    cases keep p m <;> rfl
  | cons a l ih =>
    rw [List.cons_append, keep_cons, keep_cons, ih]
    split
    · cases keep p l with
      | none => rfl
      | some x => cases keep p m <;> rfl
    · rfl
    · rfl

/-- Two filters ask the inner question first. Kind: P -/
theorem keep_keep (p q : α → Option Bool) (l : List α) : (keep q l).bind (keep p) = keep (andThen q p) l := by
  induction l with
  | nil => rfl
  | cons a l ih =>
    rw [keep_cons, keep_cons, ← ih]
    unfold andThen
    split
    · rename_i hq
      rw [hq]
      dsimp only
      cases keep q l with
      | none =>
        cases p a with
        | none => rfl
        | some b => cases b <;> rfl
      | some r => rfl
    · rename_i hq
      rw [hq]
    · rename_i hq
      rw [hq]
      rfl

/-- Without failures it is the filter of the answers. Kind: L -/
theorem keep_eq_filter {p : α → Option Bool} {answer : α → Bool} {l : List α} (h : ∀ a ∈ l, p a = some (answer a)) :
    keep p l = some (l.filter answer) := by
  induction l with
  | nil => rfl
  | cons a l ih =>
    rw [keep_cons, h a List.mem_cons_self, ih fun b hb => h b (List.mem_cons_of_mem _ hb)]
    cases hanswer : answer a with
    | true => simp [hanswer]
    | false => simp [hanswer]

/-- Where every answer is given, the elements with the answer yes. Kind: L -/
theorem keep_answered {p : α → Option Bool} {l : List α} (h : ∀ a ∈ l, p a ≠ none) :
    keep p l = some (l.filter fun a => p a = some true) := by
  apply keep_eq_filter
  intro a ha
  cases hp : p a with
  | none => exact absurd hp (h a ha)
  | some answer => simp

theorem keep_yes {p : α → Option Bool} {l : List α} (h : ∀ a ∈ l, p a = some true) : keep p l = some l := by
  rw [keep_eq_filter h, List.filter_true]

theorem keep_no {p : α → Option Bool} {l : List α} (h : ∀ a ∈ l, p a = some false) : keep p l = some [] := by
  rw [keep_eq_filter h, List.filter_false]

theorem keep_eq_none {p : α → Option Bool} {l : List α} {a : α} (ha : a ∈ l) (h : p a = none) : keep p l = none := by
  induction l with
  | nil => cases ha
  | cons b l ih =>
    rw [keep_cons]
    rcases List.mem_cons.mp ha with rfl | ha
    · rw [h]
    · grind

/-- A filter goes behind a map to lists along which its answers agree. Kind: P -/
theorem keep_flatMap {p : α → Option Bool} {q : β → Option Bool} {f : α → List β} {l : List α}
    (h : ∀ a ∈ l, AgreesAlong p q f a) : keep q (l.flatMap f) = (keep p l).map fun r => r.flatMap f := by
  induction l with
  | nil => rfl
  | cons a l ih =>
    have ha := h a List.mem_cons_self
    rw [List.flatMap_cons, keep_append, ih fun b hb => h b (List.mem_cons_of_mem _ hb), keep_cons]
    unfold AgreesAlong at ha
    cases hp : p a with
    | none =>
      rw [hp] at ha
      obtain ⟨b, hb, hq⟩ := ha
      rw [keep_eq_none hb hq]
      rfl
    | some answer =>
      rw [hp] at ha
      cases answer with
      | true =>
        rw [keep_yes ha]
        cases keep p l <;> rfl
      | false =>
        rw [keep_no ha]
        cases keep p l <;> rfl

/-! ## Questions in turn -/

/-- The answers to the questions of a list, each asked after a yes to those before it. Kind: D -/
def inTurn : List (Option Bool) → Option Bool
  | [] => some true
  | some true :: rest => inTurn rest
  | some false :: _ => some false
  | none :: _ => none

theorem inTurn_eq_yes {answers : List (Option Bool)} : inTurn answers = some true ↔ ∀ r ∈ answers, r = some true := by
  induction answers with
  | nil => simp [inTurn]
  | cons r rest ih =>
    rw [List.forall_mem_cons, ← ih]
    rcases r with _ | _ | _
    · simp [inTurn]
    · simp [inTurn]
    · simp [inTurn]

/-- The questions fail at the first that fails, if those before it are answered yes. Kind: L -/
theorem inTurn_eq_none {answers : List (Option Bool)} :
    inTurn answers = none ↔ ∃ before after, answers = before ++ none :: after ∧ ∀ r ∈ before, r = some true := by
  induction answers with
  | nil => simp [inTurn]
  | cons r rest ih =>
    constructor
    · intro h
      rcases r with _ | _ | _
      · exact ⟨[], rest, rfl, List.forall_mem_nil _⟩
      · cases h
      · obtain ⟨before, after, rfl, hbefore⟩ := ih.mp h
        exact ⟨some true :: before, after, rfl, List.forall_mem_cons.mpr ⟨rfl, hbefore⟩⟩
    · rintro ⟨before, after, heq, hbefore⟩
      rcases before with _ | ⟨r', before⟩
      · obtain ⟨rfl, -⟩ := List.cons.inj heq
        rfl
      · obtain ⟨rfl, rfl⟩ := List.cons.inj heq
        rw [List.forall_mem_cons] at hbefore
        rw [hbefore.1, inTurn]
        exact ih.mpr ⟨before, after, rfl, hbefore.2⟩

end KarsaSec.Found
