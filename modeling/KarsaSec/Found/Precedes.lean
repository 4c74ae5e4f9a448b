import KarsaSec.Found.Dict
import Mathlib.Data.List.Infix

/-!
# Which stands first

`Precedes l a b`: a list has `a` before it has `b` for the first time. The order is kept where a list becomes the keys of a
dictionary (`precedes_keys_ofList_iff`); in a list without repetitions it says what stands where
(`precedes_append_cons_iff`, `mem_between_iff`).
-/

namespace KarsaSec.Found

variable {α : Type*} {l : List α} {a b c : α}

/-- An initial part of a list has one element but not the other. Kind: D -/
def Precedes (l : List α) (a b : α) : Prop := ∃ start, start <+: l ∧ a ∈ start ∧ b ∉ start

theorem Precedes.mem (h : Precedes l a b) : a ∈ l := by
  obtain ⟨start, hstart, ha, -⟩ := h
  exact hstart.subset ha

theorem Precedes.asymm (h : Precedes l a b) : ¬Precedes l b a := by
  obtain ⟨start, hstart, ha, hb⟩ := h
  rintro ⟨start', hstart', hb', ha'⟩
  rcases List.prefix_or_prefix_of_prefix hstart hstart' with hle | hle
  · exact ha' (hle.subset ha)
  · exact hb (hle.subset hb')

theorem Precedes.ne (h : Precedes l a b) : a ≠ b := by
  rintro rfl
  exact h.asymm h

theorem Precedes.trans (h : Precedes l a b) (h' : Precedes l b c) : Precedes l a c := by
  obtain ⟨start, hstart, ha, hb⟩ := h
  obtain ⟨start', hstart', hb', hc⟩ := h'
  rcases List.prefix_or_prefix_of_prefix hstart hstart' with hle | hle
  · exact ⟨start', hstart', hle.subset ha, hc⟩
  · exact absurd (hle.subset hb') hb

/-- Of two elements one is the first. Kind: L -/
theorem precedes_or (ha : a ∈ l) (hb : b ∈ l) (hne : a ≠ b) : Precedes l a b ∨ Precedes l b a := by
  induction l with
  | nil => cases ha
  | cons x l ih =>
    by_cases hxa : x = a
    · exact .inl ⟨[x], ⟨l, rfl⟩, by rw [hxa]; exact List.mem_singleton.mpr rfl, fun h =>
        hne (hxa.symm.trans (List.mem_singleton.mp h).symm)⟩
    · by_cases hxb : x = b
      · exact .inr ⟨[x], ⟨l, rfl⟩, by rw [hxb]; exact List.mem_singleton.mpr rfl, fun h =>
          hxa (List.mem_singleton.mp h).symm⟩
      · have hstep : ∀ {a b : α}, x ≠ b → Precedes l a b → Precedes (x :: l) a b := by
          rintro a b hx ⟨start, ⟨rest, rfl⟩, ha, hb⟩
          refine ⟨x :: start, ⟨rest, rfl⟩, List.mem_cons_of_mem _ ha, fun h => ?_⟩
          exact (List.mem_cons.mp h).elim (fun heq => hx heq.symm) hb
        have ha := (List.mem_cons.mp ha).resolve_left (Ne.symm hxa)
        have hb := (List.mem_cons.mp hb).resolve_left (Ne.symm hxb)
        exact (ih ha hb).imp (hstep hxb) (hstep hxa)

/-- Where the elements are in the order of a relation, the first of two is the lesser. Kind: L -/
theorem precedes_iff_of_pairwise {r : α → α → Prop} (hl : l.Pairwise r) (hr : ∀ {a b : α}, r a b → ¬r b a) (ha : a ∈ l)
    (hb : b ∈ l) : Precedes l a b ↔ r a b := by
  have hforward : ∀ {a b : α}, b ∈ l → Precedes l a b → r a b := by
    rintro a b hb ⟨start, ⟨rest, rfl⟩, ha, hnot⟩
    exact (List.pairwise_append.mp hl).2.2 a ha b ((List.mem_append.mp hb).resolve_left hnot)
  refine ⟨hforward hb, fun h => ?_⟩
  have hne : a ≠ b := by
    rintro rfl
    exact hr h h
  exact (precedes_or ha hb hne).resolve_right fun hback => hr h (hforward ha hback)

section nodup

variable {s m t : List α}

/-- Without repetitions, what precedes an element is what stands before it. Kind: L -/
theorem precedes_append_cons_iff (h : (s ++ a :: t).Nodup) : Precedes (s ++ a :: t) b a ↔ b ∈ s := by
  have ha : a ∉ s := fun hs => (List.nodup_append.mp h).2.2 a hs a List.mem_cons_self rfl
  refine ⟨?_, fun hb => ⟨s, List.prefix_append s _, hb, ha⟩⟩
  rintro ⟨start, hstart, hb, hnot⟩
  have hhead : s ++ [a] <+: s ++ a :: t := ⟨t, List.append_assoc s [a] t⟩
  rcases List.prefix_or_prefix_of_prefix hstart hhead with hle | hle
  · grind
  · exact absurd (hle.subset (List.mem_append_right _ (List.mem_singleton.mpr rfl))) hnot

/-- Without repetitions, every element precedes what stands behind it. Kind: L -/
theorem pairwise_precedes (h : l.Nodup) : l.Pairwise (Precedes l) := by
  refine List.pairwise_iff_getElem.mpr fun i j hi hj hij => ?_
  have hsplit : l = l.take j ++ l[j] :: l.drop (j + 1) := by rw [List.getElem_cons_drop, List.take_append_drop]
  rw [hsplit] at h
  have hmem : l[i] ∈ l.take j := List.mem_take_iff_getElem.mpr ⟨i, lt_min hij hi, rfl⟩
  have hbefore := (precedes_append_cons_iff h).mpr hmem
  rwa [← hsplit] at hbefore

/-- What stands between two elements is behind the one and before the other. Kind: L -/
theorem mem_between_iff (h : (s ++ a :: (m ++ b :: t)).Nodup) :
    c ∈ m ↔ Precedes (s ++ a :: (m ++ b :: t)) a c ∧ Precedes (s ++ a :: (m ++ b :: t)) c b := by
  have hsplit : s ++ a :: (m ++ b :: t) = (s ++ a :: m) ++ b :: t := by rw [List.append_assoc, List.cons_append]
  have hbefore : ∀ {x : α}, Precedes (s ++ a :: (m ++ b :: t)) x b ↔ x ∈ s ++ a :: m := by grind [precedes_append_cons_iff]
  rw [hbefore]
  constructor
  · intro hc
    refine ⟨?_, List.mem_append_right _ (List.mem_cons_of_mem _ hc)⟩
    obtain ⟨m₁, m₂, rfl⟩ := List.append_of_mem hc
    have hat : s ++ a :: (m₁ ++ c :: m₂ ++ b :: t) = (s ++ a :: m₁) ++ c :: (m₂ ++ b :: t) := by simp
    rw [hat] at h ⊢
    exact (precedes_append_cons_iff h).mpr (List.mem_append_right _ List.mem_cons_self)
  · rintro ⟨hac, hc⟩
    rcases List.mem_append.mp hc with hs | hs
    · exact absurd ((precedes_append_cons_iff h).mpr hs) hac.asymm
    · exact (List.mem_cons.mp hs).resolve_left fun heq => hac.ne heq.symm

end nodup

/-- A dictionary lists its keys in the order in which they were first assigned. Kind: L -/
theorem precedes_keys_ofList_iff {κ ν : Type*} [DecidableEq κ] {l : List (κ × ν)} {a b : κ} :
    Precedes (Dict.ofList l).keys a b ↔ Precedes (l.map Prod.fst) a b := by
  have hprefix : ∀ s t : List (κ × ν), (Dict.ofList s).keys <+: (Dict.ofList (s ++ t)).keys := by
    intro s t
    induction t using List.reverseRecOn with
    | nil => rw [List.append_nil]
    | append_singleton t p ih =>
      rw [← List.append_assoc, Dict.ofList_snoc, Dict.keys_set]
      split_ifs
      · exact ih
      · exact ih.trans (List.prefix_append _ _)
  have hback : ∀ {a b : κ}, Precedes (l.map Prod.fst) a b → Precedes (Dict.ofList l).keys a b := by
    rintro a b ⟨start, ⟨rest, hl⟩, ha, hb⟩
    obtain ⟨s, t, rfl, rfl, rfl⟩ := List.map_eq_append_iff.mp hl.symm
    exact ⟨_, hprefix s t, Dict.mem_keys_ofList.mpr ha, fun h => hb (Dict.mem_keys_ofList.mp h)⟩
  refine ⟨fun h => ?_, hback⟩
  have ha := Dict.mem_keys_ofList.mp h.mem
  by_cases hb : b ∈ l.map Prod.fst
  · exact (precedes_or ha hb h.ne).resolve_right fun hba => h.asymm (hback hba)
  · exact ⟨_, List.prefix_refl _, ha, hb⟩

end KarsaSec.Found
