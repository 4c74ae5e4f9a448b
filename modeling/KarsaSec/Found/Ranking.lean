import KarsaSec.Found.Dict
import Mathlib.Data.List.Sort

/-!
# Ranked groups

Sorting by a rank, strongest first, and the strongest member of each group of a list.

* `sortDesc rank l` is `sorted(l, key=rank, reverse=True)`: descending, ties in their old order.
* `pickMax rank l` is its first element; `primariesBy key rank l` are the first elements of the groups
  of `l` under `key`, in order of first appearance.
* `sortDesc_eq_of_perm` and `primariesBy_perm`: where ties are between equal elements, neither depends
  on the order of the list.
-/

namespace KarsaSec.Found

variable {α ρ κ : Type*} [LinearOrder ρ] (rank : α → ρ)

/-! ## Sorting -/

/-- `sorted(l, key=rank, reverse=True)`. Kind: D -/
def sortDesc (l : List α) : List α := l.insertionSort fun a b => rank b ≤ rank a

/-- The strongest element of a list, the first one on a tie. Kind: D -/
def pickMax (l : List α) : Option α := (sortDesc rank l).head?

theorem sortDesc_perm (l : List α) : (sortDesc rank l).Perm l := List.perm_insertionSort _ l

@[simp] theorem mem_sortDesc {l : List α} {a : α} : a ∈ sortDesc rank l ↔ a ∈ l :=
  (sortDesc_perm rank l).mem_iff

theorem pairwise_sortDesc (l : List α) :
    (sortDesc rank l).Pairwise fun a b => rank b ≤ rank a := by
  have htotal : Std.Total fun a b : α => rank b ≤ rank a := ⟨fun a b => le_total (rank b) (rank a)⟩
  have htrans : IsTrans α fun a b : α => rank b ≤ rank a := ⟨fun _ _ _ h h' => le_trans h' h⟩
  exact List.pairwise_insertionSort _ l

/-- Where elements that tie are equal, sorting forgets the old order. Kind: L -/
theorem sortDesc_eq_of_perm {l l' : List α} (hp : l.Perm l')
    (hties : ∀ a ∈ l, ∀ b ∈ l, rank a = rank b → a = b) : sortDesc rank l = sortDesc rank l' := by
  have hperm : (sortDesc rank l).Perm (sortDesc rank l') :=
    (sortDesc_perm rank l).trans (hp.trans (sortDesc_perm rank l').symm)
  refine hperm.eq_of_pairwise ?_ (pairwise_sortDesc rank l) (pairwise_sortDesc rank l')
  intro a b ha hb hba hab
  rw [mem_sortDesc] at ha hb
  exact hties a ha b (hp.mem_iff.mpr hb) (le_antisymm hab hba)

/-- Some element is the strongest of a list that has any. Kind: L -/
theorem exists_pickMax {l : List α} (h : l ≠ []) : ∃ a, pickMax rank l = some a := by
  unfold pickMax
  rcases hs : sortDesc rank l with _ | ⟨a, rest⟩
  · have hp := sortDesc_perm rank l
    rw [hs] at hp
    exact absurd hp.symm.eq_nil h
  · exact ⟨a, rfl⟩

/-- What is picked is in the list, and nothing in the list is stronger. Kind: L -/
theorem pickMax_spec {l : List α} {a : α} (h : pickMax rank l = some a) :
    a ∈ l ∧ ∀ b ∈ l, rank b ≤ rank a := by
  unfold pickMax at h
  rcases hs : sortDesc rank l with _ | ⟨c, rest⟩
  · rw [hs] at h
    cases h
  · rw [hs] at h
    cases h
    refine ⟨(mem_sortDesc rank).mp (by rw [hs]; exact List.mem_cons_self), fun b hb => ?_⟩
    have hb' := (mem_sortDesc rank).mpr hb
    rw [hs] at hb'
    rcases List.mem_cons.mp hb' with rfl | hrest
    · exact le_rfl
    · grind [pairwise_sortDesc, List.pairwise_cons]

/-- Where the strongest element is the only one of its rank, the pick does not depend on the order.
Kind: L -/
theorem pickMax_eq_of_perm {l l' : List α} (hp : l.Perm l')
    (hties : ∀ a ∈ l, ∀ b ∈ l, (∀ c ∈ l, rank c ≤ rank a) → (∀ c ∈ l, rank c ≤ rank b) → a = b) :
    pickMax rank l = pickMax rank l' := by
  by_cases hnil : l = []
  · subst hnil
    rw [hp.nil_eq]
  · obtain ⟨a, ha⟩ := exists_pickMax rank hnil
    obtain ⟨b, hb⟩ := exists_pickMax rank (l := l') fun h => hnil (h ▸ hp).eq_nil
    obtain ⟨hmem, hmax⟩ := pickMax_spec rank ha
    obtain ⟨hmem', hmax'⟩ := pickMax_spec rank hb
    have hab := hties a hmem b (hp.mem_iff.mpr hmem') hmax fun c hc => hmax' c (hp.mem_iff.mp hc)
    rw [ha, hb, hab]

/-! ## The strongest member of each group -/

section primaries

variable [DecidableEq κ] (key : α → κ)

/-- The strongest members of the groups under `key`. Kind: D -/
def primariesBy (l : List α) : List α := (Dict.groupBy key l).values.filterMap (pickMax rank)

/-- The members of `l` in the group of `a`. Kind: D -/
def groupOf (l : List α) (a : α) : List α := l.filter fun b => key b = key a

theorem mem_groupOf {l : List α} {a b : α} : b ∈ groupOf key l a ↔ b ∈ l ∧ key b = key a := by
  simp [groupOf]

/-- A primary is the pick of the group of some element. Kind: L -/
theorem mem_primariesBy {l : List α} {p : α} :
    p ∈ primariesBy rank key l ↔ ∃ a ∈ l, pickMax rank (groupOf key l a) = some p := by
  unfold primariesBy
  simp only [List.mem_filterMap, Dict.values, List.mem_map, Prod.exists, exists_eq_right]
  constructor
  · rintro ⟨g, ⟨k, hg⟩, hp⟩
    obtain ⟨⟨a, ha, rfl⟩, rfl⟩ := Dict.mem_entries_groupBy.mp hg
    exact ⟨a, ha, hp⟩
  · rintro ⟨a, ha, hp⟩
    exact ⟨_, ⟨key a, Dict.mem_entries_groupBy.mpr ⟨⟨a, ha, rfl⟩, rfl⟩⟩, hp⟩

/-- Every element has a primary, in the list and in its group. Kind: L -/
theorem exists_primary {l : List α} {a : α} (ha : a ∈ l) :
    ∃ p ∈ primariesBy rank key l, pickMax rank (groupOf key l a) = some p ∧ p ∈ l ∧
      key p = key a := by
  have hne : groupOf key l a ≠ [] :=
    List.ne_nil_of_mem ((mem_groupOf key).mpr ⟨ha, rfl⟩)
  obtain ⟨p, hp⟩ := exists_pickMax rank hne
  obtain ⟨hmem, hkey⟩ := (mem_groupOf key).mp (pickMax_spec rank hp).1
  exact ⟨p, (mem_primariesBy rank key).mpr ⟨a, ha, hp⟩, hp, hmem, hkey⟩

/-- A primary is the pick of its own group. Kind: L -/
theorem pickMax_of_mem_primariesBy {l : List α} {p : α} (h : p ∈ primariesBy rank key l) :
    p ∈ l ∧ pickMax rank (groupOf key l p) = some p := by
  obtain ⟨a, -, hp⟩ := (mem_primariesBy rank key).mp h
  obtain ⟨hmem, hkey⟩ := (mem_groupOf key).mp (pickMax_spec rank hp).1
  refine ⟨hmem, ?_⟩
  have hsame : groupOf key l p = groupOf key l a := by
    unfold groupOf
    rw [hkey]
  rw [hsame, hp]

/-- Different primaries have different keys. Kind: L -/
theorem primariesBy_key_inj {l : List α} {p q : α} (hp : p ∈ primariesBy rank key l)
    (hq : q ∈ primariesBy rank key l) (h : key p = key q) : p = q := by
  have h1 := (pickMax_of_mem_primariesBy rank key hp).2
  have h2 := (pickMax_of_mem_primariesBy rank key hq).2
  have hsame : groupOf key l p = groupOf key l q := by
    unfold groupOf
    rw [h]
  rw [hsame, h2] at h1
  exact (Option.some_injective _ h1).symm

/-- No primary is listed twice. Kind: L -/
theorem nodup_primariesBy (l : List α) : (primariesBy rank key l).Nodup := by
  have hpick : ∀ e ∈ (Dict.groupBy key l).entries, ∀ p, pickMax rank e.2 = some p → key p = e.1 := by
    rintro ⟨k, g⟩ he p hp
    obtain ⟨-, rfl⟩ := Dict.mem_entries_groupBy.mp he
    simpa using (List.mem_filter.mp (pickMax_spec rank hp).1).2
  have hmap : ∀ es : List (κ × List α), (es.map Prod.fst).Nodup →
      (∀ e ∈ es, ∀ p, pickMax rank e.2 = some p → key p = e.1) →
      ((es.map Prod.snd).filterMap (pickMax rank)).Nodup := by
    intro es hnd hkeys
    induction es with
    | nil => exact List.nodup_nil
    | cons e rest ih =>
      obtain ⟨hfresh, hrest⟩ := List.nodup_cons.mp hnd
      have hih := ih hrest fun e' he' => hkeys e' (List.mem_cons_of_mem _ he')
      rw [List.map_cons, List.filterMap_cons]
      rcases hp : pickMax rank e.2 with _ | p
      · exact hih
      · refine List.nodup_cons.mpr ⟨fun hmem => ?_, hih⟩
        obtain ⟨g, hg, hgp⟩ := List.mem_filterMap.mp hmem
        obtain ⟨e', he', rfl⟩ := List.mem_map.mp hg
        have h1 := hkeys e List.mem_cons_self p hp
        have h2 := hkeys e' (List.mem_cons_of_mem _ he') p hgp
        exact hfresh (List.mem_map.mpr ⟨e', he', h2.symm.trans h1⟩)
  exact hmap _ (Dict.groupBy key l).nodup hpick

/-- Where the strongest element of every group is the only one of its rank there, the pick of a group
does not depend on the order of the list. Kind: L -/
theorem pickMax_groupOf_perm {l l' : List α} (hp : l.Perm l')
    (hties : ∀ a ∈ l, ∀ b ∈ l, key a = key b → (∀ c ∈ l, key c = key a → rank c ≤ rank a) →
      (∀ c ∈ l, key c = key a → rank c ≤ rank b) → a = b) (a : α) :
    pickMax rank (groupOf key l a) = pickMax rank (groupOf key l' a) := by
  refine pickMax_eq_of_perm rank (hp.filter _) fun b hb c hc hbmax hcmax => ?_
  obtain ⟨hb, hkb⟩ := (mem_groupOf key).mp hb
  obtain ⟨hc, hkc⟩ := (mem_groupOf key).mp hc
  have hgroup : ∀ d ∈ l, key d = key b → d ∈ groupOf key l a := fun d hd hkd =>
    (mem_groupOf key).mpr ⟨hd, hkd.trans hkb⟩
  exact hties b hb c hc (hkb.trans hkc.symm) (fun d hd hkd => hbmax d (hgroup d hd hkd))
    fun d hd hkd => hcmax d (hgroup d hd hkd)

/-- Where the strongest element of every group is the only one of its rank there, the primaries do not
depend on the order of the list, up to their own order. Kind: L -/
theorem primariesBy_perm {l l' : List α} (hp : l.Perm l')
    (hties : ∀ a ∈ l, ∀ b ∈ l, key a = key b → (∀ c ∈ l, key c = key a → rank c ≤ rank a) →
      (∀ c ∈ l, key c = key a → rank c ≤ rank b) → a = b) :
    (primariesBy rank key l).Perm (primariesBy rank key l') := by
  refine (List.perm_ext_iff_of_nodup (nodup_primariesBy rank key l)
    (nodup_primariesBy rank key l')).mpr fun p => ?_
  rw [mem_primariesBy, mem_primariesBy]
  simp only [pickMax_groupOf_perm rank key hp hties, hp.mem_iff]

end primaries

end KarsaSec.Found
