import Mathlib.Data.List.Basic
import Mathlib.Data.List.DropRight
import Mathlib.Data.List.Infix
import Mathlib.Data.List.Sort
import Mathlib.Data.String.Basic

/-!
# Texts as lists of characters

The string operations of the modelled language on lists of characters: substring search,
non-overlapping counting, replacement of the first occurrence, newline translation, and the byte
encoding of a text.

* `splitFirst sub s` cuts `s` at the first occurrence of `sub`; `hasSub`, `replaceFirst` are
  `sub in s` and `s.replace(sub, new, 1)`.
* `countSub sub s` is `s.count(sub)`: occurrences taken from the left without overlap.
* `universalNewlines` is the translation a text mode read makes.
* `encodeUtf8`, `decodeUtf8` are `s.encode("utf-8")` and `b.decode("utf-8")`, mutually inverse
  where the second succeeds.
-/

namespace KarsaSec.Found

/-! ## Occurrences -/

section occurrences

variable {α : Type*} [DecidableEq α]

/-- Cut at the first occurrence of `sub`: the part before it and the part after it. Kind: D -/
def splitFirst (sub : List α) : List α → Option (List α × List α)
  | [] => if sub = [] then some ([], []) else none
  | c :: cs =>
    if sub.isPrefixOf (c :: cs) then some ([], (c :: cs).drop sub.length)
    else (splitFirst sub cs).map fun p => (c :: p.1, p.2)

/-- `sub in s`. Kind: D -/
def hasSub (sub s : List α) : Bool := (splitFirst sub s).isSome

/-- `s.replace(sub, new, 1)`. Kind: D -/
def replaceFirst (sub new s : List α) : List α :=
  match splitFirst sub s with
  | some (a, b) => a ++ new ++ b
  | none => s

/-- The counting loop: `skip` characters of the last occurrence are still to be passed. Kind: D -/
def countSubFrom (sub : List α) : ℕ → List α → ℕ
  | _, [] => 0
  | skip + 1, _ :: cs => countSubFrom sub skip cs
  | 0, c :: cs =>
    if sub.isPrefixOf (c :: cs) then 1 + countSubFrom sub (sub.length - 1) cs
    else countSubFrom sub 0 cs

/-- `s.count(sub)`: non-overlapping occurrences from the left; the empty text occurs before every
character and at the end. Kind: D -/
def countSub (sub s : List α) : ℕ :=
  if sub = [] then s.length + 1 else countSubFrom sub 0 s

/-- The two parts around the first occurrence. Kind: L -/
theorem eq_of_splitFirst {sub : List α} : {s a b : List α} →
    splitFirst sub s = some (a, b) → s = a ++ sub ++ b
  | [], a, b, h => by
    simp only [splitFirst] at h
    split at h
    · next hs => cases h; simp [hs]
    · cases h
  | c :: cs, a, b, h => by
    simp only [splitFirst] at h
    split at h
    · simp_all [List.prefix_iff_eq_append]
    · cases hr : splitFirst sub cs with
      | none => simp [hr] at h
      | some p =>
        obtain ⟨a', b'⟩ := p
        simp only [hr, Option.map_some, Option.some.injEq, Prod.mk.injEq] at h
        obtain ⟨rfl, rfl⟩ := h
        simp [eq_of_splitFirst hr]

/-- The search finds an occurrence at least as early as any given one. Kind: L -/
theorem splitFirst_append (sub b : List α) : (a : List α) →
    ∃ a' b', splitFirst sub (a ++ sub ++ b) = some (a', b') ∧ a'.length ≤ a.length
  | [] => by
    cases hs : sub ++ b with
    | nil =>
      obtain ⟨h1, h2⟩ := List.append_eq_nil_iff.mp hs
      subst h1; subst h2
      exact ⟨[], [], by simp [splitFirst], le_rfl⟩
    | cons c cs =>
      refine ⟨[], (c :: cs).drop sub.length, ?_, le_rfl⟩
      have : sub.isPrefixOf (c :: cs) := by grind
      rw [List.nil_append, hs, splitFirst, if_pos this]
  | c :: a => by
    obtain ⟨a', b', h, hle⟩ := splitFirst_append sub b a
    simp only [List.append_assoc] at h
    simp only [List.cons_append, splitFirst]
    split
    · exact ⟨[], _, rfl, by simp⟩
    · exact ⟨c :: a', b', by simp [h], by simpa using hle⟩

/-- `sub in s` says that `sub` is an infix. Kind: L -/
theorem hasSub_iff {sub s : List α} : hasSub sub s = true ↔ sub <:+: s := by
  constructor
  · intro h
    obtain ⟨⟨a, b⟩, hs⟩ := Option.isSome_iff_exists.mp h
    exact ⟨a, b, (eq_of_splitFirst hs).symm⟩
  · rintro ⟨a, b, rfl⟩
    obtain ⟨a', b', h, -⟩ := splitFirst_append sub b a
    rw [hasSub, h]
    rfl

/-- Passing the rest of an occurrence. Kind: L -/
theorem countSubFrom_skip (sub : List α) : (n : ℕ) → (s : List α) →
    countSubFrom sub n s = countSubFrom sub 0 (s.drop n)
  | 0, s => by simp
  | n + 1, [] => by simp [countSubFrom]
  | n + 1, c :: cs => by simp [countSubFrom, countSubFrom_skip sub n cs]

/-- Counting goes on after the first occurrence. Kind: L -/
theorem countSubFrom_of_splitFirst {sub : List α} (hsub : sub ≠ []) : {s a b : List α} →
    splitFirst sub s = some (a, b) → countSubFrom sub 0 s = 1 + countSubFrom sub 0 b
  | [], a, b, h => by simp [splitFirst, hsub] at h
  | c :: cs, a, b, h => by
    simp only [splitFirst] at h
    split at h
    · next hp =>
        cases h
        obtain ⟨n, hn⟩ : ∃ n, sub.length = n + 1 :=
          Nat.exists_eq_succ_of_ne_zero (by simpa using hsub)
        rw [countSubFrom, if_pos hp, countSubFrom_skip, hn]
        simp
    · next hp =>
        cases hr : splitFirst sub cs with
        | none => simp [hr] at h
        | some p =>
          obtain ⟨a', b'⟩ := p
          simp only [hr, Option.map_some, Option.some.injEq, Prod.mk.injEq] at h
          obtain ⟨-, rfl⟩ := h
          rw [countSubFrom, if_neg hp, countSubFrom_of_splitFirst hsub hr]

theorem countSubFrom_eq_zero {sub : List α} : {s : List α} →
    splitFirst sub s = none → countSubFrom sub 0 s = 0
  | [], _ => rfl
  | c :: cs, h => by
    simp only [splitFirst] at h
    split at h
    · cases h
    · next hp => rw [countSubFrom, if_neg hp, countSubFrom_eq_zero (by simpa using h)]

/-- A text counts as absent exactly when it is no infix. Kind: L -/
theorem countSub_eq_zero {sub s : List α} : countSub sub s = 0 ↔ ¬ sub <:+: s := by
  rw [← hasSub_iff, countSub]
  by_cases hs : sub = []
  · subst hs; cases s <;> simp [hasSub, splitFirst]
  · simp only [if_neg hs, hasSub, Option.isSome_iff_exists, Prod.exists, not_exists]
    constructor
    · grind [countSubFrom_of_splitFirst]
    · intro h
      cases hr : splitFirst sub s with
      | none => exact countSubFrom_eq_zero hr
      | some p => exact absurd hr (h p.1 p.2)

end occurrences

/-! ## Newlines -/

/-- The translation of a text mode read: `\r\n` and `\r` become `\n`. Kind: D -/
def universalNewlines : List Char → List Char
  | [] => []
  | '\r' :: '\n' :: cs => '\n' :: universalNewlines cs
  | '\r' :: cs => '\n' :: universalNewlines cs
  | c :: cs => c :: universalNewlines cs

theorem cr_not_mem_universalNewlines (s : List Char) : '\r' ∉ universalNewlines s := by
  fun_induction universalNewlines s with
  | case1 => exact List.not_mem_nil
  | case2 cs ih => simpa using ih
  | case3 cs _ ih => simpa using ih
  | case4 c cs _ hc ih => simpa using ⟨Ne.symm hc, ih⟩

theorem universalNewlines_eq_self {s : List Char} (h : '\r' ∉ s) : universalNewlines s = s := by
  fun_induction universalNewlines s with
  | case1 => rfl
  | case2 => simp at h
  | case3 => simp at h
  | case4 c cs _ _ ih => rw [ih (fun hcs => h (List.mem_cons_of_mem c hcs))]

/-! ## Bytes -/

/-- `s.encode("utf-8")`. Kind: D -/
def encodeUtf8 (s : List Char) : ByteArray := (String.ofList s).toByteArray

/-- `b.decode("utf-8")`; `none` is the `UnicodeDecodeError`. Kind: D -/
def decodeUtf8 (b : ByteArray) : Option (List Char) := b.utf8Decode?.map Array.toList

@[simp] theorem decodeUtf8_encodeUtf8 (s : List Char) : decodeUtf8 (encodeUtf8 s) = some s := by
  simp [decodeUtf8, encodeUtf8, List.utf8Decode?_utf8Encode]

/-- Bytes that decode are the encoding of what they decode to. Kind: L -/
theorem encodeUtf8_of_decodeUtf8 {b : ByteArray} {s : List Char} (h : decodeUtf8 b = some s) :
    encodeUtf8 s = b := by
  obtain ⟨a, ha, rfl⟩ := Option.map_eq_some_iff.mp h
  have hs : b.utf8Decode?.isSome := by simp [ha]
  have := ByteArray.utf8Encode_get_utf8Decode? (b := b) (h := hs)
  simpa [encodeUtf8, ha] using this

theorem encodeUtf8_injective : Function.Injective encodeUtf8 := fun s t h => by
  have := congrArg decodeUtf8 h
  simpa using this

/-! ## Strings

The `str` methods that the model uses on identifiers, paths and snippets, through their lists of
characters. -/

/-- The whitespace of `str.strip` and of the class `\s`. Kind: D -/
def isSpace (c : Char) : Bool :=
  (9 ≤ c.toNat && c.toNat ≤ 13) || (28 ≤ c.toNat && c.toNat ≤ 32) ||
    c.toNat ∈ [0x85, 0xA0, 0x1680, 0x2028, 0x2029, 0x202F, 0x205F, 0x3000] ||
    (0x2000 ≤ c.toNat && c.toNat ≤ 0x200A)

/-- `s.strip()` on characters. Kind: D -/
def stripList (s : List Char) : List Char :=
  ((s.dropWhile isSpace).reverse.dropWhile isSpace).reverse

/-- `s.strip()`. Kind: D -/
def strip (s : String) : String := String.ofList (stripList s.toList)

/-- `not s or not s.strip()`. Kind: D -/
def isBlank (s : String) : Bool := strip s = ""

/-- `given or default`, where the empty string counts as none. Kind: D -/
def orDefault (given : Option String) (default : String) : String :=
  if given.getD "" = "" then default else given.getD ""

/-- `s.lower()`. Kind: D -/
def lower (s : String) : String := String.ofList (s.toList.map Char.toLower)

/-- `s.upper()`. Kind: D -/
def upper (s : String) : String := String.ofList (s.toList.map Char.toUpper)

/-- `s.startswith(p)`. Kind: D -/
def startsWith (p s : String) : Bool := p.toList.isPrefixOf s.toList

/-- `sub in s`. Kind: D -/
def inStr (sub s : String) : Bool := hasSub sub.toList s.toList

/-- `s.replace("\\", "/")`. Kind: D -/
def normSlashes (s : String) : String :=
  String.ofList (s.toList.map fun c => if c = '\\' then '/' else c)

/-- `s.rstrip(c)` for one character. Kind: D -/
def rstripChar (c : Char) (s : String) : String :=
  String.ofList ((s.toList.reverse.dropWhile (· = c)).reverse)

/-- `sep.join(parts)`. Kind: D -/
def joinStr (sep : String) : List String → String
  | [] => ""
  | [s] => s
  | s :: rest => s ++ sep ++ joinStr sep rest

/-- A number is written in digits. Kind: L -/
theorem isDigit_of_mem_toString {n : ℕ} {c : Char} (h : c ∈ (toString n).toList) :
    c.isDigit = true := by
  rw [Nat.toString_eq_repr, Nat.toList_repr] at h
  exact Nat.isDigit_of_mem_toDigits (by decide) (by decide) h

/-- Different numbers are written differently. Kind: L -/
theorem toString_nat_inj {m n : ℕ} (h : toString m = toString n) : m = n := by
  have hdigits := congrArg String.toList h
  rw [Nat.toString_eq_repr, Nat.toString_eq_repr, Nat.toList_repr, Nat.toList_repr] at hdigits
  have hvalue := congrArg (fun ds => Nat.ofDigitChars 10 ds 0) hdigits
  simpa using hvalue

/-- An integer is written in digits, behind a minus sign if it is negative. Kind: L -/
theorem toList_toString_int (a : ℤ) :
    (toString a).toList = if 0 ≤ a then (toString a.toNat).toList
      else '-' :: (toString (-a).toNat).toList := by
  rw [Int.toString_eq_repr, Int.repr_eq_if]
  split
  · rfl
  · simp

theorem toString_int_inj {a b : ℤ} (h : toString a = toString b) : a = b := by
  have hchars := congrArg String.toList h
  rw [toList_toString_int, toList_toString_int] at hchars
  have hminus : ∀ {n : ℕ} {cs : List Char}, (toString n).toList ≠ '-' :: cs := fun {n cs} hn =>
    absurd (isDigit_of_mem_toString (n := n) (hn ▸ List.mem_cons_self)) (by decide)
  split at hchars
  · split at hchars
    · have := toString_nat_inj (String.toList_injective hchars)
      omega
    · exact absurd hchars hminus
  · split at hchars
    · exact absurd hchars.symm hminus
    · have := toString_nat_inj (String.toList_injective (List.cons.inj hchars).2)
      omega

/-! ## Columns -/

/-- A column `Text` holds the text: it has no NUL. Kind: D -/
def fitsText (s : String) : Bool := Char.ofNat 0 ∉ s.toList

/-- A column `String(n)` holds the text. Kind: D -/
def fitsString (n : ℕ) (s : String) : Bool := s.length ≤ n && fitsText s

/-- A column `Integer`, of 32 bits, holds the number. Kind: D -/
def fitsInteger (v : ℤ) : Bool := -2147483648 ≤ v ∧ v < 2147483648

/-! ## Stripping -/

/-- Nothing is to be stripped. Kind: L -/
theorem stripList_eq_self {s : List Char} (hhead : ∀ h : s ≠ [], isSpace (s.head h) = false)
    (hlast : ∀ h : s ≠ [], isSpace (s.getLast h) = false) : stripList s = s := by
  have hdrop : s.dropWhile isSpace = s := by
    cases s with
    | nil => rfl
    | cons c rest => exact List.dropWhile_cons_of_neg (by simpa using hhead (List.cons_ne_nil _ _))
  change (s.dropWhile isSpace).rdropWhile isSpace = s
  rw [hdrop]
  exact List.rdropWhile_eq_self_iff.mpr fun h => by simpa using hlast h

theorem head_stripList {s : List Char} (h : stripList s ≠ []) : isSpace ((stripList s).head h) = false := by
  have hpre : stripList s <+: s.dropWhile isSpace := List.rdropWhile_prefix isSpace _
  rw [hpre.head h]
  exact List.head_dropWhile_not isSpace _

theorem getLast_stripList {s : List Char} (h : stripList s ≠ []) : isSpace ((stripList s).getLast h) = false :=
  Bool.eq_false_iff.mpr (List.rdropWhile_last_not isSpace _ h)

/-- `s.strip().strip()`. Kind: L -/
theorem strip_strip (s : String) : strip (strip s) = strip s := by
  rw [strip, strip, String.toList_ofList, stripList_eq_self head_stripList getLast_stripList]

/-- What is stripped is whitespace on both sides. Kind: L -/
theorem exists_stripList (s : List Char) : ∃ a b, s = a ++ stripList s ++ b ∧ (∀ c ∈ a, isSpace c = true) ∧
    ∀ c ∈ b, isSpace c = true := by
  refine ⟨s.takeWhile isSpace, (s.dropWhile isSpace).rtakeWhile isSpace, ?_, fun c h => List.mem_takeWhile_imp h,
    fun c h => List.mem_rtakeWhile_imp h⟩
  change s = s.takeWhile isSpace ++ (s.dropWhile isSpace).rdropWhile isSpace ++ _
  rw [List.append_assoc, List.rdropWhile_append_rtakeWhile, List.takeWhile_append_dropWhile]

/-! ## Separators -/

theorem colon_not_mem_nat (n : ℕ) : ':' ∉ (toString n).toList := fun h =>
  absurd (isDigit_of_mem_toString h) (by decide)

theorem colon_not_mem_int (a : ℤ) : ':' ∉ (toString a).toList := by
  rw [toList_toString_int]
  split_ifs
  · exact colon_not_mem_nat _
  · grind [colon_not_mem_nat]

/-- Two texts cut at the first separator. Kind: L -/
theorem append_sep_inj {s : Char} {a b x y : List Char} (ha : s ∉ a) (hb : s ∉ b)
    (h : a ++ s :: x = b ++ s :: y) : a = b ∧ x = y := by
  induction a generalizing b with
  | nil =>
    rcases b with _ | ⟨d, b⟩
    · exact ⟨rfl, (List.cons.inj h).2⟩
    · simp_all
  | cons c a ih =>
    rcases b with _ | ⟨d, b⟩
    · grind
    · grind

/-- Two texts cut at the last separator. Kind: L -/
theorem append_last_sep_inj {s : Char} {a b x y : List Char} (hx : s ∉ x) (hy : s ∉ y)
    (h : a ++ s :: x = b ++ s :: y) : a = b ∧ x = y := by
  have hrev := congrArg List.reverse h
  simp only [List.reverse_append, List.reverse_cons, List.append_assoc, List.singleton_append]
    at hrev
  have hx' : s ∉ x.reverse := by simpa using hx
  have hy' : s ∉ y.reverse := by simpa using hy
  obtain ⟨h1, h2⟩ := append_sep_inj hx' hy' hrev
  exact ⟨List.reverse_injective h2, List.reverse_injective h1⟩

/-- A text is cut before its last part. Kind: L -/
theorem append_colon_inj {s t x y : String} (hx : ':' ∉ x.toList) (hy : ':' ∉ y.toList)
    (h : s ++ ":" ++ x = t ++ ":" ++ y) : s = t ∧ x = y := by
  have hchars := congrArg String.toList h
  have hsep : ":".toList = [':'] := rfl
  simp only [String.toList_append, List.append_assoc, hsep] at hchars
  obtain ⟨hst, hxy⟩ := append_last_sep_inj hx hy hchars
  exact ⟨String.toList_injective hst, String.toList_injective hxy⟩

/-- `sorted(strings)`. Kind: D -/
def sortStrings (l : List String) : List String := l.insertionSort (· ≤ ·)

/-- `a <= b` on pairs of strings. Kind: D -/
def pairLe (a b : String × String) : Prop := a.1 < b.1 ∨ a.1 = b.1 ∧ a.2 ≤ b.2

instance : DecidableRel pairLe := fun a b =>
  inferInstanceAs (Decidable (a.1 < b.1 ∨ a.1 = b.1 ∧ a.2 ≤ b.2))

/-- `sorted(pairs)`. Kind: D -/
def sortPairs (l : List (String × String)) : List (String × String) := l.insertionSort pairLe

theorem sortStrings_eq_of_perm {l l' : List String} (h : l.Perm l') :
    sortStrings l = sortStrings l' := by
  have hperm : (sortStrings l).Perm (sortStrings l') :=
    (List.perm_insertionSort _ l).trans (h.trans (List.perm_insertionSort _ l').symm)
  exact hperm.eq_of_pairwise' (List.pairwise_insertionSort _ l) (List.pairwise_insertionSort _ l')

theorem sortPairs_perm (l : List (String × String)) : (sortPairs l).Perm l :=
  List.perm_insertionSort pairLe l

/-- Pairs whose keys ascend are sorted already. Kind: L -/
theorem sortPairs_of_ascending {l : List (String × String)} (h : l.Pairwise fun a b => a.1 < b.1) :
    sortPairs l = l :=
  List.Pairwise.insertionSort_eq (h.imp fun hlt => Or.inl hlt)

/-- Sorted pairs stand in order. Kind: L -/
theorem sortPairs_sorted (l : List (String × String)) : (sortPairs l).Pairwise pairLe := by
  have htotal : ∀ a b : String × String, pairLe a b ∨ pairLe b a := by
    intro a b
    unfold pairLe
    rcases lt_trichotomy a.1 b.1 with h1 | h1 | h1
    · exact Or.inl (Or.inl h1)
    · grind
    · exact Or.inr (Or.inl h1)
  have htrans : ∀ a b c : String × String, pairLe a b → pairLe b c → pairLe a c := by grind [pairLe]
  have : Std.Total pairLe := ⟨htotal⟩
  have : IsTrans (String × String) pairLe := ⟨htrans⟩
  exact List.pairwise_insertionSort pairLe l

/-- Pairs with distinct keys are sorted by their keys. Kind: L -/
theorem ascending_sortPairs {l : List (String × String)} (h : (l.map Prod.fst).Nodup) :
    (sortPairs l).Pairwise fun a b => a.1 < b.1 := by
  have hnodup : ((sortPairs l).map Prod.fst).Nodup := ((sortPairs_perm l).map Prod.fst).nodup_iff.mpr h
  refine ((sortPairs_sorted l).and (List.pairwise_map.mp hnodup)).imp fun hab => ?_
  rcases hab.1 with hlt | ⟨heq, -⟩
  · exact hlt
  · exact absurd heq hab.2

end KarsaSec.Found
