import KarsaSec.Found.Text

/-!
# Joined parts

What a text of parts with a separator between them says about the parts.

* `splitOn_intercalate_parts`: cut at every separator, the text gives the pieces of all parts.
* `parts_of_intercalate`: parts without a separator are the only parts, of their number, that give their text.
* `parts_around_separator` is the one case of a separator inside a part that does no harm.
* `eq_singleton_of_joinStr`: a text without a separator is joined from itself alone.
* `joinStr_shift`: a separator inside a part may as well be the one behind it.
-/

namespace KarsaSec.Found

variable {α : Type} [DecidableEq α] {x : α}

/-- A text of parts is cut into the pieces of the parts. Kind: L -/
theorem splitOn_intercalate_parts {parts : List (List α)} (h : parts ≠ []) :
    ([x].intercalate parts).splitOn x = parts.flatMap (List.splitOn x) := by
  induction parts with
  | nil => exact absurd rfl h
  | cons p rest ih =>
    rcases rest with _ | ⟨q, rest⟩
    · simp
    · rw [List.intercalate_cons_cons, List.flatMap_cons, ← ih (by simp), List.append_assoc,
        List.singleton_append]
      exact List.splitOnP_append_cons p _ (by simp)

theorem splitOn_eq_singleton {p : List α} (h : x ∉ p) : p.splitOn x = [p] :=
  List.splitOnP_eq_singleton fun y hy => by
    rw [beq_eq_false_iff_ne]
    exact fun heq => h (heq ▸ hy)

theorem pieces_of_clean {parts : List (List α)} (h : ∀ p ∈ parts, x ∉ p) :
    parts.flatMap (List.splitOn x) = parts := by
  induction parts with
  | nil => rfl
  | cons p rest ih =>
    rw [List.flatMap_cons, splitOn_eq_singleton (h p List.mem_cons_self),
      ih fun q hq => h q (List.mem_cons_of_mem _ hq)]
    rfl

/-- Every part gives a piece at least. Kind: L -/
theorem length_le_pieces (parts : List (List α)) : parts.length ≤ (parts.flatMap (List.splitOn x)).length := by
  induction parts with
  | nil => rfl
  | cons p rest ih =>
    have hne := List.length_pos_iff.mpr (List.splitOn_ne_nil x p)
    rw [List.flatMap_cons, List.length_append, List.length_cons]
    omega

/-- As many parts as there are pieces: each part is one piece. Kind: L -/
theorem parts_of_pieces {parts parts' : List (List α)} (hlength : parts'.length = parts.length)
    (h : parts'.flatMap (List.splitOn x) = parts) : parts' = parts := by
  induction parts' generalizing parts with
  | nil => exact (List.length_eq_zero_iff.mp hlength.symm).symm
  | cons p' rest' ih =>
    obtain ⟨q, qs, hsplit⟩ := List.exists_cons_of_ne_nil (List.splitOn_ne_nil x p')
    have hle := length_le_pieces (x := x) rest'
    rw [List.flatMap_cons, hsplit] at h
    have hqs : qs = [] := by
      have hcount := congrArg List.length h
      simp only [List.length_append, List.length_cons] at hcount hlength
      exact List.length_eq_zero_iff.mp (by omega)
    rw [hqs, List.singleton_append] at h
    have hp' : p' = q := by
      rw [← @List.intercalate_splitOn _ p' _ _ x, hsplit, hqs, List.intercalate_singleton]
    have hrest : rest'.length = (rest'.flatMap (List.splitOn x)).length := by grind
    rw [← h, hp', ← ih hrest rfl]

/-- Parts without a separator are found again in their text, by their number. Kind: L -/
theorem parts_of_intercalate {parts parts' : List (List α)} (hlength : parts'.length = parts.length)
    (hclean : ∀ p ∈ parts, x ∉ p) (h : [x].intercalate parts' = [x].intercalate parts) :
    parts' = parts := by
  rcases parts with _ | ⟨p, rest⟩
  · exact List.length_eq_zero_iff.mp hlength
  · have hne' : parts' ≠ [] := by
      rintro rfl
      cases hlength
    have hsplit := congrArg (List.splitOn x) h
    rw [splitOn_intercalate_parts hne', splitOn_intercalate_parts (by simp), pieces_of_clean hclean] at hsplit
    exact parts_of_pieces hlength hsplit

/-- A separator that is a whole part, before the last one, stays there if no part is empty in its place: its
neighbours cannot take it.
Kind: L -/
theorem parts_around_separator {front front' : List (List α)} {last last' p : List α}
    (hlength : front'.length = front.length) (hclean : ∀ q ∈ front, x ∉ q) (hlast : x ∉ last)
    (hp : p ≠ []) (h : [x].intercalate (front' ++ [p, last']) = [x].intercalate (front ++ [[x], last])) :
    front' = front ∧ p = [x] ∧ last' = last := by
  have hsplit := congrArg (List.splitOn x) h
  have hx : [x].splitOn x = [[], []] := by simp [List.splitOn_eq_splitOnP, List.splitOnP_cons_eq_if_modifyHead]
  rw [splitOn_intercalate_parts (by simp), splitOn_intercalate_parts (by simp)] at hsplit
  simp only [List.flatMap_append, List.flatMap_cons, List.flatMap_nil, List.append_nil, hx,
    pieces_of_clean hclean, splitOn_eq_singleton hlast] at hsplit
  have hle := length_le_pieces (x := x) front'
  have hpieces : ∀ u, p.splitOn x = [u] → u ≠ [] := by grind [List.intercalate_splitOn, List.intercalate_singleton]
  obtain ⟨u, us, hu⟩ := List.exists_cons_of_ne_nil (List.splitOn_ne_nil x p)
  obtain ⟨v, vs, hv⟩ := List.exists_cons_of_ne_nil (List.splitOn_ne_nil x last')
  have hcount := congrArg List.length hsplit
  simp only [hu, hv, List.length_append, List.length_cons, List.length_nil] at hcount
  rcases Nat.lt_or_ge front.length (front'.flatMap (List.splitOn x)).length with hlt | hge
  · -- one piece more in front leaves the empty one to the part that is not empty
    exfalso
    have hshift : front'.flatMap (List.splitOn x) ++ (p.splitOn x ++ last'.splitOn x) =
        (front ++ [[]]) ++ ([] :: [last]) := by
      rw [hsplit]
      simp
    obtain ⟨-, hrest⟩ := List.append_inj hshift (by
      rw [List.length_append, List.length_singleton]
      omega)
    rw [hu, hv, List.cons_append] at hrest
    obtain ⟨rfl, -⟩ := List.cons.inj hrest
    have hus : us = [] := List.length_eq_zero_iff.mp (by omega)
    exact hpieces [] (hus ▸ hu) rfl
  · obtain ⟨hfront, hrest⟩ := List.append_inj hsplit (by omega)
    rw [hu, hv] at hrest
    rcases us with _ | ⟨u', us⟩
    · simp_all
    · simp only [List.cons_append, List.cons.injEq] at hrest
      obtain ⟨rfl, rfl, hrest⟩ := hrest
      simp only [List.length_cons] at hcount
      have hus : us = [] := List.length_eq_zero_iff.mp (by omega)
      have hvs : vs = [] := List.length_eq_zero_iff.mp (by omega)
      rw [hus, hvs, List.nil_append] at hrest
      refine ⟨parts_of_pieces hlength hfront, ?_, ?_⟩
      · rw [← @List.intercalate_splitOn _ p _ _ x, hu, hus]
        rfl
      · grind [List.intercalate_splitOn, List.intercalate_singleton]

/-! ## Strings -/

/-- The characters of joined strings. Kind: L -/
theorem toList_joinStr {sep : String} {c : Char} (hsep : sep.toList = [c]) (l : List String) :
    (joinStr sep l).toList = [c].intercalate (l.map String.toList) := by
  induction l with
  | nil => rfl
  | cons s rest ih =>
    rcases rest with _ | ⟨t, rest⟩
    · simp [joinStr]
    · simp_all [joinStr]

/-- Strings without a separator are found again in their text, by their number. Kind: L -/
theorem parts_of_joinStr {sep : String} {c : Char} (hsep : sep.toList = [c]) {l l' : List String}
    (hlength : l'.length = l.length) (hclean : ∀ s ∈ l, c ∉ s.toList)
    (h : joinStr sep l' = joinStr sep l) : l' = l := by
  have hchars := congrArg String.toList h
  rw [toList_joinStr hsep, toList_joinStr hsep] at hchars
  refine List.map_injective_iff.mpr (fun _ _ => String.toList_injective) (parts_of_intercalate ?_ ?_ hchars)
  · rw [List.length_map, List.length_map, hlength]
  · simp_all

/-- A text that has no separator and is not empty is joined from itself alone. Kind: L -/
theorem eq_singleton_of_joinStr {sep : String} {c : Char} (hsep : sep.toList = [c]) {l : List String}
    {s : String} (hclean : c ∉ s.toList) (hne : s ≠ "") (h : joinStr sep l = s) : l = [s] := by
  rcases l with _ | ⟨a, rest⟩
  · exact absurd h.symm hne
  · rcases rest with _ | ⟨b, rest⟩
    · rw [← h]
      rfl
    · grind [joinStr, String.toList_append]

/-- A text with a separator, cut there. Kind: L -/
theorem exists_cut {sep s : String} {c : Char} (hsep : sep.toList = [c]) (h : c ∈ s.toList) :
    ∃ a b, s = a ++ sep ++ b := by
  obtain ⟨a, b, hab⟩ := List.append_of_mem h
  refine ⟨String.ofList a, String.ofList b, String.toList_injective ?_⟩
  simp [hab, hsep]

/-- What stands behind a separator inside a part may as well stand at the start of the next part. Kind: L -/
theorem joinStr_shift (sep : String) (front : List String) (a b c : String) (back : List String) :
    joinStr sep (front ++ (a ++ sep ++ b) :: c :: back) = joinStr sep (front ++ a :: (b ++ sep ++ c) :: back) := by
  induction front with
  | nil =>
    rcases back with _ | ⟨d, back⟩
    · simp [joinStr, String.append_assoc]
    · simp [joinStr, String.append_assoc]
  | cons s rest ih =>
    rw [List.cons_append, List.cons_append, joinStr, joinStr, ih]
    · exact fun heq => by simp at heq
    · exact fun heq => by simp at heq

end KarsaSec.Found
