import Mathlib.Data.List.Basic

/-!
# Runs of a step function

A system is a step function on a type of states; a run is the fold of a list of events.

* `reached` lists the states of a run, `Along` says that a relation holds at each of its steps.
* `Along.invariant`: what every step keeps holds in every state of the run.
* `forall_reached_iff`: where a step keeps a property exactly under a condition, the property holds in
  every state of a run exactly when every step of the run meets the condition.
-/

namespace KarsaSec.Found

variable {σ α : Type*} (step : σ → α → σ)

/-- The states of a run, the first one included. Kind: D -/
def reached : σ → List α → List σ
  | s, [] => [s]
  | s, a :: l => s :: reached (step s a) l

/-- A relation between state and event holds at each step of a run. Kind: D -/
def Along (P : σ → α → Prop) : σ → List α → Prop
  | _, [] => True
  | s, a :: l => P s a ∧ Along P (step s a) l

variable {step}

theorem mem_reached_head (s : σ) (l : List α) : s ∈ reached step s l := by
  cases l <;> simp [reached]

theorem foldl_mem_reached (s : σ) (l : List α) : l.foldl step s ∈ reached step s l := by
  induction l generalizing s with
  | nil => exact List.mem_singleton.mpr rfl
  | cons a l ih => exact List.mem_cons_of_mem _ (ih (step s a))

theorem Along.mono {P Q : σ → α → Prop} (h : ∀ s a, P s a → Q s a) {s : σ} {l : List α}
    (hl : Along step P s l) : Along step Q s l := by
  induction l generalizing s with
  | nil => trivial
  | cons a l ih => exact ⟨h s a hl.1, ih hl.2⟩

theorem along_append {P : σ → α → Prop} {s : σ} {l l' : List α} :
    Along step P s (l ++ l') ↔ Along step P s l ∧ Along step P (l.foldl step s) l' := by
  induction l generalizing s with
  | nil => exact ⟨fun h => ⟨trivial, h⟩, fun h => h.2⟩
  | cons a l ih =>
    rw [List.cons_append]
    constructor
    · rintro ⟨ha, hl⟩
      exact ⟨⟨ha, (ih.mp hl).1⟩, (ih.mp hl).2⟩
    · rintro ⟨⟨ha, hl⟩, hl'⟩
      exact ⟨ha, ih.mpr ⟨hl, hl'⟩⟩

theorem along_and {P Q : σ → α → Prop} {s : σ} {l : List α} :
    Along step (fun s a => P s a ∧ Q s a) s l ↔ Along step P s l ∧ Along step Q s l := by
  induction l generalizing s with
  | nil => exact ⟨fun _ => ⟨trivial, trivial⟩, fun _ => trivial⟩
  | cons a l ih =>
    constructor
    · rintro ⟨⟨hP, hQ⟩, hl⟩
      obtain ⟨hPl, hQl⟩ := ih.mp hl
      exact ⟨⟨hP, hPl⟩, hQ, hQl⟩
    · rintro ⟨⟨hP, hPl⟩, hQ, hQl⟩
      exact ⟨⟨hP, hQ⟩, ih.mpr ⟨hPl, hQl⟩⟩

theorem along_congr {P Q : σ → α → Prop} (h : ∀ s a, P s a ↔ Q s a) {s : σ} {l : List α} :
    Along step P s l ↔ Along step Q s l :=
  ⟨Along.mono fun s a => (h s a).mp, Along.mono fun s a => (h s a).mpr⟩

theorem along_of_reached {P : σ → α → Prop} {s : σ} {l : List α}
    (h : ∀ s' ∈ reached step s l, ∀ a, P s' a) : Along step P s l := by
  induction l generalizing s with
  | nil => trivial
  | cons a l ih =>
    exact ⟨h s (mem_reached_head s _) a, ih fun s' hs' => h s' (List.mem_cons_of_mem _ hs')⟩

/-- What each step of a run keeps, every state of the run has. Kind: L -/
theorem Along.invariant {P : σ → α → Prop} {I : σ → Prop}
    (hstep : ∀ s a, I s → P s a → I (step s a)) {s : σ} {l : List α} (hs : I s)
    (hl : Along step P s l) : ∀ s' ∈ reached step s l, I s' := by
  induction l generalizing s with
  | nil =>
    intro s' hs'
    rw [List.mem_singleton.mp hs']
    exact hs
  | cons a l ih =>
    intro s' hs'
    rcases List.mem_cons.mp hs' with rfl | hs'
    · exact hs
    · exact ih (hstep s a hs hl.1) hl.2 s' hs'

/-- A relation that follows at a state with what each step keeps holds at each step of the run. Kind: L -/
theorem Along.imp {P Q : σ → α → Prop} {I : σ → Prop} (hstep : ∀ s a, I s → P s a → I (step s a))
    (h : ∀ s a, I s → P s a → Q s a) {s : σ} {l : List α} (hs : I s) (hl : Along step P s l) :
    Along step Q s l := by
  induction l generalizing s with
  | nil => trivial
  | cons a l ih => exact ⟨h s a hs hl.1, ih (hstep s a hs hl.1) hl.2⟩

/-- What every step keeps, every state of a run has. Kind: L -/
theorem invariant_reached {I : σ → Prop} (hstep : ∀ s a, I s → I (step s a)) {s : σ} (l : List α)
    (hs : I s) : ∀ s' ∈ reached step s l, I s' := by
  induction l generalizing s with
  | nil =>
    intro s' hs'
    rw [List.mem_singleton.mp hs']
    exact hs
  | cons a l ih =>
    intro s' hs'
    rcases List.mem_cons.mp hs' with rfl | hs'
    · exact hs
    · exact ih (hstep s a hs) s' hs'

/-- Where no step leaves a relation that composes, the first state of a run has it to each state of the run, and
each state to the last. Kind: L -/
theorem reached_related {R : σ → σ → Prop} (hrefl : ∀ s, R s s) (htrans : ∀ {r s t}, R r s → R s t → R r t)
    (hstep : ∀ s a, R s (step s a)) {s : σ} (l : List α) :
    ∀ s' ∈ reached step s l, R s s' ∧ R s' (l.foldl step s) := by
  induction l generalizing s with
  | nil =>
    intro s' hs'
    rw [List.mem_singleton.mp hs']
    exact ⟨hrefl s, hrefl s⟩
  | cons a l ih =>
    intro s' hs'
    rcases List.mem_cons.mp hs' with rfl | hs'
    · grind [mem_reached_head]
    · grind

/-- A symmetric relation between a state with the invariant and each later one holds between any two states of the
run. Kind: L -/
theorem Along.pairwise {P : σ → α → Prop} {I : σ → Prop} {R : σ → σ → Prop} (hsymm : ∀ {s t}, R s t → R t s)
    (hstep : ∀ s a, I s → P s a → I (step s a))
    (hlater : ∀ s l, I s → Along step P s l → ∀ t ∈ reached step s l, R s t) {s : σ} {l : List α} (hs : I s)
    (hl : Along step P s l) : ∀ r ∈ reached step s l, ∀ t ∈ reached step s l, R r t := by
  induction l generalizing s with
  | nil =>
    intro r hr t ht
    rw [List.mem_singleton.mp hr]
    exact hlater s [] hs hl t ht
  | cons a l ih =>
    intro r hr t ht
    rcases List.mem_cons.mp hr with rfl | hr'
    · exact hlater r (a :: l) hs hl t ht
    rcases List.mem_cons.mp ht with rfl | ht'
    · exact hsymm (hlater t (a :: l) hs hl r hr)
    · exact ih (hstep s a hs hl.1) hl.2 r hr' t ht'

/-- Where a step from a state with `I` and `J` keeps `J` exactly under `P`, and always keeps `I`, a run
has `J` in every state exactly when each of its steps meets `P`. Kind: L -/
theorem forall_reached_iff {I J : σ → Prop} {P : σ → α → Prop}
    (hkeep : ∀ s a, I s → I (step s a)) (hstep : ∀ s a, I s → J s → (J (step s a) ↔ P s a))
    {s : σ} (hI : I s) (hJ : J s) (l : List α) :
    (∀ s' ∈ reached step s l, J s') ↔ Along step P s l := by
  induction l generalizing s with
  | nil => simpa [reached, Along] using hJ
  | cons a l ih =>
    have hhead : step s a ∈ reached step s (a :: l) :=
      List.mem_cons_of_mem _ (mem_reached_head _ _)
    constructor
    · intro h
      have hJ' := h _ hhead
      refine ⟨(hstep s a hI hJ).mp hJ', (ih (hkeep s a hI) hJ').mp fun s' hs' => ?_⟩
      exact h s' (List.mem_cons_of_mem _ hs')
    · rintro ⟨hP, hl⟩ s' hs'
      have hJ' := (hstep s a hI hJ).mpr hP
      rcases List.mem_cons.mp hs' with rfl | hs'
      · exact hJ
      · exact (ih (hkeep s a hI) hJ').mpr hl s' hs'

/-- The same where events of the run are known to meet a condition of their own. Kind: L -/
theorem forall_reached_iff_of_along {I J : σ → Prop} {D P : σ → α → Prop}
    (hkeep : ∀ s a, I s → D s a → I (step s a)) (hstep : ∀ s a, I s → J s → D s a → (J (step s a) ↔ P s a))
    {s : σ} (hI : I s) (hJ : J s) {l : List α} (hD : Along step D s l) :
    (∀ s' ∈ reached step s l, J s') ↔ Along step P s l := by
  induction l generalizing s with
  | nil =>
    refine ⟨fun _ => trivial, fun _ s' hs' => ?_⟩
    rw [List.mem_singleton.mp hs']
    exact hJ
  | cons a l ih =>
    obtain ⟨ha, hl⟩ := hD
    have htail : J (step s a) → ((∀ s' ∈ reached step (step s a) l, J s') ↔ Along step P (step s a) l) :=
      fun hJ' => ih (hkeep s a hI ha) hJ' hl
    constructor
    · intro h
      have hJ' := h _ (List.mem_cons_of_mem _ (mem_reached_head _ _))
      exact ⟨(hstep s a hI hJ ha).mp hJ', (htail hJ').mp fun s' hs' => h s' (List.mem_cons_of_mem _ hs')⟩
    · rintro ⟨hP, hl⟩ s' hs'
      rcases List.mem_cons.mp hs' with rfl | hs'
      · exact hJ
      · exact (htail ((hstep s a hI hJ ha).mpr hP)).mpr hl s' hs'

end KarsaSec.Found
