import KarsaSec.Found.Dict
import Mathlib.Data.List.Flatten
import Mathlib.Data.List.Perm.Subperm

/-!
# What overwriting loses

Values hold elements, and a list of assignments to keys becomes a dictionary. What an earlier assignment to a key held is lost:
`flatMap_ofList_subperm`, and `flatMap_ofList_perm_iff`: nothing is lost if and only if only the last assignment to each key
holds something (`LastHolds`).
-/

namespace KarsaSec.Found

variable {κ ν γ : Type*}

/-- Of the assignments to a key only the last holds something. Kind: D -/
def LastHolds (g : ν → List γ) (l : List (κ × ν)) : Prop := l.Pairwise fun s t => s.1 = t.1 → g s.2 = []

theorem flatMap_sublist {α : Type*} {part whole : α → List γ} (hpart : ∀ a, (part a).Sublist (whole a)) (l : List α) :
    (l.flatMap part).Sublist (l.flatMap whole) := by
  induction l with
  | nil => exact List.Sublist.refl _
  | cons a l ih => exact (hpart a).append ih

/-- Parts that are nowhere longer and as long together are the wholes. Kind: L -/
theorem eq_of_length_flatMap_le {α : Type*} {part whole : α → List γ} (hpart : ∀ a, (part a).Sublist (whole a)) {l : List α}
    (h : (l.flatMap whole).length ≤ (l.flatMap part).length) : ∀ a ∈ l, part a = whole a := by
  induction l with
  | nil => exact fun a ha => absurd ha List.not_mem_nil
  | cons a l ih =>
    rw [List.flatMap_cons, List.flatMap_cons, List.length_append, List.length_append] at h
    have hhead := (hpart a).length_le
    have htail := (flatMap_sublist hpart l).length_le
    rw [List.forall_mem_cons]
    exact ⟨(hpart a).eq_of_length_le (by omega), ih (by omega)⟩

namespace Dict

variable [DecidableEq κ]

theorem mapValues_set {μ : Type*} (f : ν → μ) (d : Dict κ ν) (k : κ) (v : ν) :
    (d.set k v).mapValues f = (d.mapValues f).set k (f v) := by
  refine Dict.ext ?_
  show (insertEntry k v d.entries).map (fun p => (p.1, f p.2)) = insertEntry k (f v) (d.entries.map fun p => (p.1, f p.2))
  induction d.entries with
  | nil => rfl
  | cons p l ih =>
    rw [List.map_cons, insertEntry, insertEntry]
    split_ifs
    · rfl
    · rw [List.map_cons, ih]

/-- One store replaces what the key held. Kind: L -/
theorem flatMap_set_perm (g : ν → List γ) (d : Dict κ ν) (k : κ) (v : ν) :
    ((d.set k v).entries.flatMap (fun e => g e.2) ++ (d.get? k).elim [] g).Perm
      (d.entries.flatMap (fun e => g e.2) ++ g v) := by
  show ((insertEntry k v d.entries).flatMap (fun e => g e.2) ++ (lookup k d.entries).elim [] g).Perm _
  induction d.entries with
  | nil =>
    rw [insertEntry, lookup, List.flatMap_singleton, List.flatMap_nil, Option.elim_none, List.append_nil, List.nil_append]
  | cons p l ih =>
    rw [insertEntry, lookup]
    split_ifs
    · rw [List.flatMap_cons, List.flatMap_cons, Option.elim_some, List.append_assoc (g p.2)]
      have hswap : (g v ++ l.flatMap fun e => g e.2).Perm ((l.flatMap fun e => g e.2) ++ g v) := List.perm_append_comm
      exact List.perm_append_comm.trans (hswap.append_left (g p.2))
    · rw [List.flatMap_cons, List.flatMap_cons, List.append_assoc, List.append_assoc]
      exact ih.append_left _

/-- Nothing is held that was not assigned. Kind: L -/
theorem flatMap_ofList_subperm (g : ν → List γ) (l : List (κ × ν)) :
    ((ofList l).entries.flatMap fun e => g e.2).Subperm (l.flatMap fun e => g e.2) := by
  induction l using List.reverseRecOn with
  | nil => exact List.nil_subperm
  | append_singleton l p ih =>
    rw [ofList_snoc, List.flatMap_append, List.flatMap_singleton]
    have hset := (flatMap_set_perm g (ofList l) p.1 p.2).subperm
    exact ((List.sublist_append_left _ _).subperm.trans hset).trans (ih.append (List.Subperm.refl _))

theorem get?_ofList_of_lastHolds {g : ν → List γ} {l : List (κ × ν)} (h : LastHolds g l) {s : κ × ν} (hs : s ∈ l)
    (hheld : g s.2 ≠ []) : (ofList l).get? s.1 = some s.2 := by
  induction l using List.reverseRecOn with
  | nil => cases hs
  | append_singleton l p ih =>
    obtain ⟨hl, -, hp⟩ := List.pairwise_append.mp h
    rw [ofList_snoc, get?_set]
    rcases List.mem_append.mp hs with hs | hs
    · rw [if_neg fun heq => hheld (hp s hs p (List.mem_singleton.mpr rfl) heq)]
      exact ih hl hs
    · rw [List.mem_singleton.mp hs, if_pos rfl]

/-- **Nothing is lost exactly when only the last assignment to each key holds something.** Kind: P -/
theorem flatMap_ofList_perm_iff (g : ν → List γ) (l : List (κ × ν)) :
    ((ofList l).entries.flatMap fun e => g e.2).Perm (l.flatMap fun e => g e.2) ↔ LastHolds g l := by
  induction l using List.reverseRecOn with
  | nil => exact ⟨fun _ => List.Pairwise.nil, fun _ => List.Perm.refl _⟩
  | append_singleton l p ih =>
    have hset := flatMap_set_perm g (ofList l) p.1 p.2
    have hle := (flatMap_ofList_subperm g l).length_le
    rw [ofList_snoc, List.flatMap_append, List.flatMap_singleton]
    constructor
    · intro hperm
      -- the lengths leave no room for what the key held before
      have hlengths := hset.length_eq
      have hlength := hperm.length_eq
      rw [List.length_append, List.length_append] at hlengths
      rw [List.length_append] at hlength
      have hsub := flatMap_ofList_subperm g l
      have hl : LastHolds g l := ih.mp (hsub.perm_of_length_le (by omega))
      refine List.pairwise_append.mpr ⟨hl, List.pairwise_singleton _ _, fun s hs t ht heq => ?_⟩
      rw [List.mem_singleton.mp ht] at heq
      by_contra hheld
      have hget := get?_ofList_of_lastHolds hl hs hheld
      rw [heq] at hget
      rw [hget] at hlengths
      have hpos := List.length_pos_iff.mpr hheld
      have helim : ((some s.2 : Option ν).elim [] g).length = (g s.2).length := rfl
      omega
    · intro h
      obtain ⟨hl, -, hp⟩ := List.pairwise_append.mp h
      have hnone : ((ofList l).get? p.1).elim [] g = [] := by
        rcases hget : (ofList l).get? p.1 with _ | v
        · rfl
        · exact hp _ (mem_of_get?_ofList hget) p (List.mem_singleton.mpr rfl) rfl
      rw [hnone, List.append_nil] at hset
      exact hset.trans ((ih.mpr hl).append_right _)

/-- As many keys as assignments: no key was assigned twice. Kind: L -/
theorem length_keys_ofList_iff (l : List (κ × ν)) : (ofList l).keys.length = l.length ↔ (l.map Prod.fst).Nodup := by
  constructor
  · intro h
    have hsub : (ofList l).keys.Subperm (l.map Prod.fst) :=
      (nodup_keys _).subperm fun k hk => mem_keys_ofList.mp hk
    have hle : (l.map Prod.fst).length ≤ (ofList l).keys.length := Nat.le_of_eq (by rw [List.length_map, h])
    have hperm := hsub.perm_of_length_le hle
    exact hperm.nodup_iff.mp (nodup_keys _)
  · intro h
    rw [keys, entries_ofList h, List.length_map]

end Dict

end KarsaSec.Found
