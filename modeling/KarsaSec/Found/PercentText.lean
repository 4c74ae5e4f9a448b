import KarsaSec.Found.JsonText
import KarsaSec.Found.Text
import Mathlib.Tactic.GCongr
import Mathlib.Tactic.NormNum
import Mathlib.Tactic.Ring

/-!
# Percent-encoded texts

* `unquote` undoes percent-encoding: `percentPieces` reads the escapes, `decodeFrom` reads runs of bytes as UTF-8 and
  puts a replacement character for what is no character.
* `unquote_append` cuts a text where a character stands that belongs to no escape.
* `length_unquote_lt`: a text with an escape gets shorter.
* `head_unquote` says which texts come to start with a given ASCII character.
-/

namespace KarsaSec.Found

/-! ## Escapes -/

/-- The byte that three characters stand for. Kind: D -/
def escapeByte (c a b : Char) : Option ℕ :=
  if c = '%' then (hexValue a).bind fun x => (hexValue b).map fun y => 16 * x + y else none

/-- What a percent-encoded text is made of. Kind: D -/
inductive Piece
  | byte (n : ℕ)
  | char (c : Char)
  deriving DecidableEq, Repr

/-- The text as pieces, escapes taken from the left. Kind: D -/
def percentPieces : List Char → List Piece
  | c :: a :: b :: cs =>
    match escapeByte c a b with
    | some n => .byte n :: percentPieces cs
    | none => .char c :: percentPieces (a :: b :: cs)
  | cs => cs.map .char

/-- Whether a percent sign stands before two hexadecimal digits. Kind: D -/
def hasEscape : List Char → Bool
  | c :: a :: b :: cs => (escapeByte c a b).isSome || hasEscape (a :: b :: cs)
  | _ => false

theorem escapeByte_of_ne {c : Char} (h : c ≠ '%') (a b : Char) : escapeByte c a b = none := if_neg h

/-- The text ends, or goes on with a character that belongs to no escape. Kind: D -/
def Breaks (s : List Char) : Prop := ∀ c ∈ s.head?, c ≠ '%' ∧ hexValue c = none

theorem escapeByte_second {a : Char} (h : hexValue a = none) (c b : Char) : escapeByte c a b = none := by
  simp [escapeByte, h]

theorem escapeByte_third {b : Char} (h : hexValue b = none) (c a : Char) : escapeByte c a b = none := by
  cases hexValue a <;> simp [escapeByte, h]

/-- A character that starts no escape is read as it is. Kind: L -/
theorem percentPieces_cons {c : Char} (h : c ≠ '%') (cs : List Char) :
    percentPieces (c :: cs) = .char c :: percentPieces cs := by
  match cs with
  | [] => rfl
  | [_] => rfl
  | a :: b :: cs => simp [percentPieces, escapeByte_of_ne h]

theorem percentPieces_append (xs : List Char) {ys : List Char} (h : Breaks ys) :
    percentPieces (xs ++ ys) = percentPieces xs ++ percentPieces ys := by
  cases ys with
  | nil => simp [percentPieces]
  | cons y ys =>
    obtain ⟨-, hy⟩ := h y rfl
    fun_induction percentPieces xs with
    | case1 c a b cs n hn ih => simp [percentPieces, hn, ih]
    | case2 c a b cs hn ih => simpa [percentPieces, hn] using ih
    | case3 cs hcs =>
      -- fewer than three characters: an escape would reach over the cut
      match cs, hcs with
      | [], _ => simp
      | [c], _ =>
        cases ys with
        | nil => simp [percentPieces]
        | cons z zs => simp [percentPieces, escapeByte_second hy]
      | [c, a], _ =>
        cases ys with
        | nil => simp [percentPieces, escapeByte_third hy]
        | cons z zs => simp [percentPieces, escapeByte_third hy, escapeByte_second hy]
      | c :: a :: b :: cs, hcs => exact absurd rfl (hcs c a b cs)

/-- There are fewer pieces than characters where there is an escape. Kind: L -/
theorem length_percentPieces (s : List Char) :
    (percentPieces s).length + (if hasEscape s then 1 else 0) ≤ s.length := by
  fun_induction percentPieces s with
  | case1 c a b cs n hn ih =>
    have : (if hasEscape (c :: a :: b :: cs) = true then 1 else 0) ≤ 1 := by split <;> omega
    simp only [List.length_cons]
    omega
  | case2 c a b cs hn ih =>
    have hrest : hasEscape (c :: a :: b :: cs) = hasEscape (a :: b :: cs) := by simp [hasEscape, hn]
    rw [hrest]
    simp only [List.length_cons] at ih ⊢
    omega
  | case3 cs hcs =>
    match cs, hcs with
    | [], _ => simp [hasEscape]
    | [c], _ => simp [hasEscape]
    | [c, a], _ => simp [hasEscape]
    | c :: a :: b :: cs, hcs => exact absurd rfl (hcs c a b cs)

theorem percentPieces_of_plain {s : List Char} (h : hasEscape s = false) : percentPieces s = s.map .char := by
  fun_induction percentPieces s with
  | case1 c a b cs n hn ih => simp [hasEscape, hn] at h
  | case2 c a b cs hn ih =>
    simp only [hasEscape, hn, Option.isSome_none, Bool.false_or] at h
    simp [ih h]
  | case3 cs _ => rfl

/-- What has no part in an escape may be renamed. Kind: L -/
theorem hasEscape_map {f : Char → Char} (hf : ∀ c, f c = c ∨ hexValue c = none ∧ hexValue (f c) = none ∧
    c ≠ '%' ∧ f c ≠ '%') (s : List Char) : hasEscape (s.map f) = hasEscape s := by
  have hbyte (c a b : Char) : (escapeByte (f c) (f a) (f b)).isSome = (escapeByte c a b).isSome := by
    rcases hf c with hc | ⟨-, -, hc, hc'⟩
    · grind [escapeByte_third, escapeByte_second]
    · rw [escapeByte_of_ne hc, escapeByte_of_ne hc']
  fun_induction hasEscape s with
  | case1 c a b cs ih =>
    simp only [List.map_cons] at ih ⊢
    rw [hasEscape, hbyte, ih]
  | case2 cs hcs =>
    match cs, hcs with
    | [], _ => rfl
    | [c], _ => rfl
    | [c, a], _ => rfl
    | c :: a :: b :: cs, hcs => exact absurd rfl (hcs c a b cs)

/-! ## Bytes -/

/-- A character begun: how many bytes are missing, what the ones read come to, and between which bounds the next one
has to be. Kind: D -/
structure Pending where
  missing : ℕ
  value : ℕ
  low : ℕ
  high : ℕ

/-- The replacement character. Kind: D -/
def replacement : Char := '\ufffd'

/-- A byte at the beginning of a character. Kind: D -/
def leadByte (b : ℕ) : List Char × Option Pending :=
  if b < 0x80 then ([Char.ofNat b], none)
  else if 0xC2 ≤ b ∧ b ≤ 0xDF then ([], some ⟨1, b - 0xC0, 0x80, 0xBF⟩)
  else if b = 0xE0 then ([], some ⟨2, 0, 0xA0, 0xBF⟩)
  else if b = 0xED then ([], some ⟨2, 0xD, 0x80, 0x9F⟩)
  else if 0xE1 ≤ b ∧ b ≤ 0xEF then ([], some ⟨2, b - 0xE0, 0x80, 0xBF⟩)
  else if b = 0xF0 then ([], some ⟨3, 0, 0x90, 0xBF⟩)
  else if b = 0xF4 then ([], some ⟨3, 4, 0x80, 0x8F⟩)
  else if 0xF1 ≤ b ∧ b ≤ 0xF3 then ([], some ⟨3, b - 0xF0, 0x80, 0xBF⟩)
  else ([replacement], none)

/-- A byte after those of a character begun; one that does not continue it starts anew. Kind: D -/
def nextByte (p : Pending) (b : ℕ) : List Char × Option Pending :=
  if p.low ≤ b ∧ b ≤ p.high then
    if p.missing = 1 then ([Char.ofNat (64 * p.value + (b - 0x80))], none)
    else ([], some ⟨p.missing - 1, 64 * p.value + (b - 0x80), 0x80, 0xBF⟩)
  else (replacement :: (leadByte b).1, (leadByte b).2)

/-- A byte, after a character begun or not. Kind: D -/
def feedByte (p : Option Pending) (b : ℕ) : List Char × Option Pending := p.elim (leadByte b) fun p => nextByte p b

/-- A character begun and not ended. Kind: D -/
def flush (p : Option Pending) : List Char := p.elim [] fun _ => [replacement]

/-- The pieces as characters. Kind: D -/
def decodeFrom : Option Pending → List Piece → List Char
  | p, [] => flush p
  | p, .char c :: ps => flush p ++ c :: decodeFrom none ps
  | p, .byte b :: ps => (feedByte p b).1 ++ decodeFrom (feedByte p b).2 ps

/-- `urllib.parse.unquote(s)`. Kind: D -/
def unquote (s : List Char) : List Char := decodeFrom none (percentPieces s)

/-- A character begun counts for one. Kind: D -/
def owed (p : Option Pending) : ℕ := p.elim 0 fun _ => 1

@[simp] theorem length_flush (p : Option Pending) : (flush p).length = owed p := by cases p <;> rfl

theorem owed_leadByte (b : ℕ) : (leadByte b).1.length + owed (leadByte b).2 = 1 := by
  unfold leadByte
  split_ifs <;> rfl

theorem owed_feedByte (p : Option Pending) (b : ℕ) :
    (feedByte p b).1.length + owed (feedByte p b).2 ≤ owed p + 1 := by
  have hlead := owed_leadByte b
  cases p with
  | none => exact hlead.le.trans (Nat.le_add_left 1 _)
  | some p =>
    simp only [feedByte, Option.elim_some, nextByte]
    split_ifs
    · simp [owed]
    · simp [owed]
    · simp only [List.length_cons, owed, Option.elim_some] at hlead ⊢
      omega

theorem length_decodeFrom (p : Option Pending) (ps : List Piece) : (decodeFrom p ps).length ≤ owed p + ps.length := by
  fun_induction decodeFrom p ps with
  | case1 p => simp
  | case2 p c ps ih =>
    have hnone : owed none = 0 := rfl
    simp only [List.length_append, length_flush, List.length_cons]
    omega
  | case3 p b ps ih =>
    have := owed_feedByte p b
    simp only [List.length_append, List.length_cons]
    omega

theorem decodeFrom_append_char (p : Option Pending) (ps qs : List Piece) (c : Char) :
    decodeFrom p (ps ++ .char c :: qs) = decodeFrom p ps ++ c :: decodeFrom none qs := by
  fun_induction decodeFrom p ps with
  | case1 p => rfl
  | case2 p d ps ih => simp [decodeFrom, ih]
  | case3 p b ps ih => simp [decodeFrom, ih]

/-! ## Unquoting -/

@[simp] theorem unquote_nil : unquote [] = [] := rfl

/-- A character that starts no escape stays. Kind: L -/
theorem unquote_cons {c : Char} (h : c ≠ '%') (cs : List Char) : unquote (c :: cs) = c :: unquote cs := by
  rw [unquote, percentPieces_cons h]
  rfl

/-- A text is decoded in parts, cut before a character that belongs to no escape. Kind: L -/
theorem unquote_append (xs : List Char) {ys : List Char} (h : Breaks ys) :
    unquote (xs ++ ys) = unquote xs ++ unquote ys := by
  cases ys with
  | nil => simp
  | cons y ys =>
    obtain ⟨hy, -⟩ := h y rfl
    rw [unquote_cons hy, unquote, percentPieces_append xs h, percentPieces_cons hy]
    exact decodeFrom_append_char none _ _ y

/-- A text without an escape stays. Kind: L -/
theorem unquote_of_plain {s : List Char} (h : hasEscape s = false) : unquote s = s := by
  rw [unquote, percentPieces_of_plain h]
  clear h
  induction s with
  | nil => rfl
  | cons c cs ih => exact congrArg (c :: ·) ih

theorem length_unquote_le (s : List Char) : (unquote s).length ≤ s.length := by
  have hd := length_decodeFrom none (percentPieces s)
  have hp := length_percentPieces s
  have hnone : owed none = 0 := rfl
  rw [unquote]
  omega

/-- An escape gets shorter. Kind: L -/
theorem length_unquote_lt {s : List Char} (h : hasEscape s = true) : (unquote s).length < s.length := by
  have hd := length_decodeFrom none (percentPieces s)
  have hp := length_percentPieces s
  have hnone : owed none = 0 := rfl
  rw [if_pos h] at hp
  rw [unquote]
  omega

/-! ## The first character -/

/-- The text begins with the character or with an escape of it. Kind: D -/
def beginsWith (x : Char) : List Char → Bool
  | c :: a :: b :: _ => c = x || escapeByte c a b = some x.toNat
  | c :: _ => c = x
  | [] => false

namespace Pending

/-- The least value that the character can come to. Kind: D -/
def least (p : Pending) : ℕ := (64 * p.value + (p.low - 0x80)) * 64 ^ (p.missing - 1)

end Pending

theorem least_leadByte {b : ℕ} {p : Pending} (h : (leadByte b).2 = some p) : 128 ≤ p.least := by
  unfold leadByte at h
  split_ifs at h
  all_goals
    simp only [Option.some.injEq] at h
    subst h
    simp only [Pending.least]
    norm_num
  · omega
  · omega
  · omega

theorem least_nextByte {p q : Pending} {b : ℕ} (hp : 128 ≤ p.least) (hb : p.low ≤ b)
    (hq : q = ⟨p.missing - 1, 64 * p.value + (b - 0x80), 0x80, 0xBF⟩) : 128 ≤ q.least := by
  subst hq
  apply hp.trans
  simp only [Pending.least, Nat.sub_self, Nat.add_zero]
  rcases Nat.lt_or_ge (p.missing - 1) 1 with hlast | hmore
  · grind
  · obtain ⟨m, hm⟩ : ∃ m, p.missing - 1 = m + 1 := ⟨p.missing - 2, by omega⟩
    rw [hm, Nat.add_sub_cancel, pow_succ]
    calc (64 * p.value + (p.low - 0x80)) * (64 ^ m * 64)
        = 64 * (64 * p.value + (p.low - 0x80)) * 64 ^ m := by ring
      _ ≤ 64 * (64 * p.value + (b - 0x80)) * 64 ^ m := by gcongr

theorem toNat_ofNat {n : ℕ} (h : n.isValidChar) : (Char.ofNat n).toNat = n := by
  rw [Char.ofNat, dif_pos h]
  rfl

/-- No large number is the code of an ASCII character. Kind: L -/
theorem ofNat_ne_ascii {x : Char} (h0 : 0 < x.toNat) (hx : x.toNat < 128) {n : ℕ} (hn : 128 ≤ n) :
    Char.ofNat n ≠ x := by
  rintro rfl
  by_cases hvalid : n.isValidChar
  · rw [toNat_ofNat hvalid] at hx
    omega
  · rw [Char.ofNat, dif_neg hvalid] at h0
    exact absurd h0 (by decide)

theorem replacement_ne_ascii {x : Char} (hx : x.toNat < 128) : replacement ≠ x := by
  rintro rfl
  exact absurd hx (by decide)

/-- A character of several bytes is none of ASCII. Kind: L -/
theorem head_decodeFrom_some {x : Char} (h0 : 0 < x.toNat) (hx : x.toNat < 128) {p : Pending} (hp : 128 ≤ p.least)
    (ps : List Piece) : (decodeFrom (some p) ps).head? ≠ some x := by
  have hrep := replacement_ne_ascii hx
  induction ps generalizing p with
  | nil => simpa [decodeFrom, flush] using hrep
  | cons q ps ih =>
    cases q with
    | char c => simpa [decodeFrom, flush] using hrep
    | byte b =>
      simp only [decodeFrom, feedByte, Option.elim_some, nextByte]
      split_ifs with hb hone
      · grind [Pending.least, ofNat_ne_ascii]
      · exact ih (least_nextByte hp hb.1 rfl)
      · simpa using hrep

/-- What a byte comes to when no character is begun. Kind: L -/
theorem head_decodeFrom_byte {x : Char} (h0 : 0 < x.toNat) (hx : x.toNat < 128) (b : ℕ) (ps : List Piece) :
    (decodeFrom none (.byte b :: ps)).head? = some x ↔ b = x.toNat := by
  rw [decodeFrom]
  simp only [feedByte, Option.elim_none]
  rcases Nat.lt_or_ge b 0x80 with hb | hb
  · have hlead : leadByte b = ([Char.ofNat b], none) := by rw [leadByte, if_pos hb]
    rw [hlead]
    simp only [List.cons_append, List.head?_cons, Option.some.injEq]
    have hvalid : b.isValidChar := Or.inl (by omega)
    constructor
    · rintro rfl
      exact (toNat_ofNat hvalid).symm
    · rintro rfl
      exact Char.ofNat_toNat x
  · have hne : b ≠ x.toNat := by omega
    refine iff_of_false ?_ hne
    cases hp : (leadByte b).2 with
    | some p =>
      have howed := owed_leadByte b
      rw [hp] at howed
      have hnil : (leadByte b).1 = [] := List.length_eq_zero_iff.mp (by simpa [owed] using howed)
      rw [hnil]
      exact head_decodeFrom_some h0 hx (least_leadByte hp) ps
    | none =>
      have hrep : (leadByte b).1 = [replacement] := by grind [leadByte]
      rw [hrep]
      simpa using replacement_ne_ascii hx

/-- **The decoded text begins with an ASCII character exactly if the text begins with it or with its escape.**
Kind: P -/
theorem head_unquote {x : Char} (h0 : 0 < x.toNat) (hx : x.toNat < 128) (hpercent : x ≠ '%') (s : List Char) :
    (unquote s).head? = some x ↔ beginsWith x s = true := by
  rw [unquote]
  match s with
  | [] => simp [percentPieces, decodeFrom, flush, beginsWith]
  | [c] => simp [percentPieces, decodeFrom, flush, beginsWith]
  | [c, a] => simp [percentPieces, decodeFrom, flush, beginsWith]
  | c :: a :: b :: cs =>
    cases hn : escapeByte c a b with
    | none => simp [percentPieces, beginsWith, hn, decodeFrom, flush]
    | some n =>
      have hc : c = '%' := by
        by_contra hc
        simp [escapeByte_of_ne hc] at hn
      have hne : c ≠ x := hc ▸ hpercent.symm
      simp only [percentPieces, hn]
      rw [head_decodeFrom_byte h0 hx]
      simp [beginsWith, hn, hne]

end KarsaSec.Found
