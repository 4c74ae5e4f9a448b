import Mathlib.Data.List.Basic
import Mathlib.Data.List.TakeWhile
import Mathlib.Data.Int.Notation
import Mathlib.Tactic.Common

/-!
# Numbers in a text

* `Numeral` is a number as a document writes it: sign, whole part, fraction, exponent.
* `scan` reads the longest numeral at the start of a text. `scan_text` says that it finds a numeral again
  before a text that cannot go on with it.
* `ofInt` writes an integer, `toInt` reads it.
-/

namespace KarsaSec.Found

/-- The exponent of a numeral: the letter, the sign if there is one, and the digits. Kind: D -/
structure Exponent where
  letter : Char
  sign : List Char
  digits : List Char
  deriving DecidableEq

/-- A number as it is written. Kind: D -/
structure Numeral where
  negative : Bool
  whole : List Char
  fraction : Option (List Char)
  exponent : Option Exponent
  deriving DecidableEq

/-- Some digits, and nothing else. Kind: D -/
def Digits (ds : List Char) : Prop := ds ≠ [] ∧ ∀ d ∈ ds, d.isDigit = true

/-- A text that no numeral before it goes on into. Kind: D -/
def Stops (r : List Char) : Prop :=
  ∀ c ∈ r.head?, c.isDigit = false ∧ c ≠ '.' ∧ c ≠ 'e' ∧ c ≠ 'E'

/-- The exponents of the grammar. Kind: D -/
structure Exponent.WellFormed (e : Exponent) : Prop where
  letter : e.letter = 'e' ∨ e.letter = 'E'
  sign : e.sign = [] ∨ e.sign = ['+'] ∨ e.sign = ['-']
  digits : Digits e.digits

namespace Numeral

/-- The numerals of the grammar: no zero before another digit. Kind: D -/
structure WellFormed (n : Numeral) : Prop where
  whole : n.whole = ['0'] ∨ Digits n.whole ∧ n.whole.head? ≠ some '0'
  fraction : ∀ ds ∈ n.fraction, Digits ds
  exponent : ∀ e ∈ n.exponent, e.WellFormed

/-- A numeral with a fraction or an exponent is read as a float. Kind: D -/
def isFloat (n : Numeral) : Bool := n.fraction.isSome || n.exponent.isSome

/-! ## Writing -/

/-- The text of a fraction. Kind: D -/
def fractionText : Option (List Char) → List Char
  | none => []
  | some ds => '.' :: ds

/-- The text of an exponent. Kind: D -/
def exponentText : Option Exponent → List Char
  | none => []
  | some e => e.letter :: (e.sign ++ e.digits)

/-- The text of a numeral. Kind: D -/
def text (n : Numeral) : List Char :=
  (if n.negative then ['-'] else []) ++ (n.whole ++ (fractionText n.fraction ++ exponentText n.exponent))

/-! ## Reading -/

/-- The digits at the start of a text. Kind: D -/
def digits (t : List Char) : List Char × List Char := (t.takeWhile Char.isDigit, t.dropWhile Char.isDigit)

/-- `-?`. Kind: D -/
def scanMinus : List Char → Bool × List Char
  | '-' :: t => (true, t)
  | t => (false, t)

/-- `0|[1-9][0-9]*`. Kind: D -/
def scanWhole (t : List Char) : Option (List Char × List Char) :=
  match digits t with
  | ([], _) => none
  | ('0' :: ds, t) => some (['0'], ds ++ t)
  | (ds, t) => some (ds, t)

/-- `(\.[0-9]+)?`. Kind: D -/
def scanFraction (t : List Char) : Option (List Char) × List Char :=
  match t with
  | '.' :: u => if (digits u).1 = [] then (none, t) else (some (digits u).1, (digits u).2)
  | _ => (none, t)

/-- `[-+]?`. Kind: D -/
def scanSign : List Char → List Char × List Char
  | '+' :: t => (['+'], t)
  | '-' :: t => (['-'], t)
  | t => ([], t)

/-- `([eE][-+]?[0-9]+)?`. Kind: D -/
def scanExponent (t : List Char) : Option Exponent × List Char :=
  match t with
  | [] => (none, [])
  | c :: u =>
    let (sign, v) := scanSign u
    if (c = 'e' ∨ c = 'E') ∧ (digits v).1 ≠ [] then (some ⟨c, sign, (digits v).1⟩, (digits v).2)
    else (none, t)

/-- The longest numeral at the start of a text, and the rest.
Source: `json/scanner.py`, `NUMBER_RE`
Kind: D -/
def scan (t : List Char) : Option (Numeral × List Char) := do
  let (negative, t) := scanMinus t
  let (whole, t) ← scanWhole t
  let (fraction, t) := scanFraction t
  let (exponent, t) := scanExponent t
  return (⟨negative, whole, fraction, exponent⟩, t)

theorem digits_append {ds r : List Char} (hds : ∀ d ∈ ds, d.isDigit = true)
    (hr : ∀ c ∈ r.head?, c.isDigit = false) : digits (ds ++ r) = (ds, r) := by
  have hrest : r.takeWhile Char.isDigit = [] ∧ r.dropWhile Char.isDigit = r := by
    rcases r with _ | ⟨c, r⟩
    · exact ⟨rfl, rfl⟩
    · have hc := hr c rfl
      simp [hc]
  unfold digits
  rw [List.takeWhile_append_of_pos hds, List.dropWhile_append_of_pos hds, hrest.1, hrest.2,
    List.append_nil]

/-- What a fraction can start with, a numeral stops before or goes on with. Kind: L -/
theorem head?_fractionText_append {f : Option (List Char)} {r : List Char} {c : Char}
    (h : c ∈ (fractionText f ++ r).head?) : c = '.' ∨ f = none ∧ c ∈ r.head? := by
  rcases f with _ | ds
  · exact .inr ⟨rfl, h⟩
  · exact .inl (Option.some.inj h).symm

theorem head?_exponentText_append {e : Option Exponent} {r : List Char} (he : ∀ x ∈ e, x.WellFormed)
    {c : Char} (h : c ∈ (exponentText e ++ r).head?) : c = 'e' ∨ c = 'E' ∨ e = none ∧ c ∈ r.head? := by
  rcases e with _ | x
  · exact .inr (.inr ⟨rfl, h⟩)
  · obtain rfl := Option.some.inj h
    rcases (he x rfl).letter with hl | hl
    · exact .inl hl
    · exact .inr (.inl hl)

theorem scanExponent_append {e : Option Exponent} {r : List Char} (he : ∀ x ∈ e, x.WellFormed)
    (hr : Stops r) : scanExponent (exponentText e ++ r) = (e, r) := by
  rcases e with _ | x
  · rcases r with _ | ⟨c, r⟩
    · rfl
    · obtain ⟨-, -, he, hE⟩ := hr c rfl
      simp [exponentText, scanExponent, he, hE]
  · obtain ⟨hletter, hsign, hne, hds⟩ := he x rfl
    have hdigits := digits_append hds fun c hc => (hr c hc).1
    have hscan : scanSign (x.sign ++ (x.digits ++ r)) = (x.sign, x.digits ++ r) := by
      rcases hsign with hs | hs | hs
      · rw [hs]
        obtain ⟨d, ds, hcons⟩ := List.exists_cons_of_ne_nil hne
        have hd := hds d (hcons ▸ List.mem_cons_self)
        rw [hcons]
        unfold scanSign
        split
        · simp_all
        · simp_all
        · rfl
      · rw [hs]
        rfl
      · rw [hs]
        rfl
    simp [exponentText, scanExponent, hscan, hdigits, hletter, hne]

theorem scanFraction_append {f : Option (List Char)} {r : List Char} (hf : ∀ ds ∈ f, Digits ds)
    (hr : ∀ c ∈ r.head?, c.isDigit = false ∧ c ≠ '.') : scanFraction (fractionText f ++ r) = (f, r) := by
  rcases f with _ | ds
  · rcases r with _ | ⟨c, r⟩
    · rfl
    · obtain ⟨-, hdot⟩ := hr c rfl
      unfold scanFraction fractionText
      split
      · next h =>
          cases h
          exact absurd rfl hdot
      · rfl
  · obtain ⟨hne, hds⟩ := hf ds rfl
    have hdigits := digits_append hds fun c hc => (hr c hc).1
    simp [fractionText, scanFraction, hdigits, hne]

theorem scanWhole_append {w r : List Char} (hw : w = ['0'] ∨ Digits w ∧ w.head? ≠ some '0')
    (hr : ∀ c ∈ r.head?, c.isDigit = false) : scanWhole (w ++ r) = some (w, r) := by
  have hds : ∀ d ∈ w, d.isDigit = true := by
    rcases hw with rfl | ⟨⟨-, hds⟩, -⟩
    · simp
    · exact hds
  unfold scanWhole
  rw [digits_append hds hr]
  rcases hw with rfl | ⟨⟨hne, -⟩, hzero⟩
  · rfl
  · grind

theorem ne_of_isDigit {c d : Char} (hd : d.isDigit = true) (hc : c.isDigit = false) : c ≠ d := by
  rintro rfl
  exact absurd hd (by simp [hc])

theorem exists_digit {w : List Char} (hw : w = ['0'] ∨ Digits w ∧ w.head? ≠ some '0') :
    ∃ d ds, w = d :: ds ∧ d.isDigit = true := by
  rcases hw with rfl | ⟨⟨hne, hds⟩, -⟩
  · exact ⟨'0', [], rfl, by decide⟩
  · obtain ⟨d, ds, hcons⟩ := List.exists_cons_of_ne_nil hne
    exact ⟨d, ds, hcons, hds d (hcons ▸ List.mem_cons_self)⟩

theorem head_text {n : Numeral} (hn : n.WellFormed) :
    ∃ c t, n.text = c :: t ∧ (c = '-' ∨ c.isDigit = true) := by
  obtain ⟨d, ds, hcons, hd⟩ := exists_digit hn.whole
  rcases hneg : n.negative with _ | _
  · exact ⟨d, _, by simp [text, hneg, hcons]; rfl, .inr hd⟩
  · exact ⟨'-', _, by simp [text, hneg]; rfl, .inl rfl⟩

/-- A numeral is found again. Kind: P -/
theorem scan_text {n : Numeral} (hn : n.WellFormed) {r : List Char} (hr : Stops r) :
    scan (n.text ++ r) = some (n, r) := by
  have hexp := scanExponent_append hn.exponent hr
  have hfrac : scanFraction (fractionText n.fraction ++ (exponentText n.exponent ++ r)) =
      (n.fraction, exponentText n.exponent ++ r) := by
    refine scanFraction_append hn.fraction fun c hc => ?_
    rcases head?_exponentText_append hn.exponent hc with rfl | rfl | ⟨-, h⟩
    · decide
    · decide
    · exact ⟨(hr c h).1, (hr c h).2.1⟩
  have hwhole : scanWhole (n.whole ++ (fractionText n.fraction ++ (exponentText n.exponent ++ r))) =
      some (n.whole, fractionText n.fraction ++ (exponentText n.exponent ++ r)) := by
    refine scanWhole_append hn.whole fun c hc => ?_
    rcases head?_fractionText_append hc with rfl | ⟨-, hc⟩
    · decide
    rcases head?_exponentText_append hn.exponent hc with rfl | rfl | ⟨-, h⟩
    · decide
    · decide
    · exact (hr c h).1
  have hminus : scanMinus (n.text ++ r) = (n.negative,
      n.whole ++ (fractionText n.fraction ++ (exponentText n.exponent ++ r))) := by
    obtain ⟨d, ds, hcons, hd⟩ := exists_digit hn.whole
    rcases hneg : n.negative with _ | _
    · have hminus := ne_of_isDigit (c := '-') hd (by decide)
      simp [text, hneg, hcons, scanMinus, hminus.symm]
    · simp [text, hneg, scanMinus]
  unfold scan
  rw [hminus]
  simp only [hwhole, hfrac, hexp, Option.bind_eq_bind, Option.bind_some, Option.pure_def]

/-! ## Integers -/

/-- The numeral of an integer. Source: `int.__repr__`. Kind: D -/
def ofInt (n : ℤ) : Numeral := ⟨decide (n < 0), Nat.toDigits 10 n.natAbs, none, none⟩

/-- The integer that a sign and digits write. Source: `int(text)`. Kind: D -/
def toInt (n : Numeral) : ℤ :=
  if n.negative then -(Nat.ofDigitChars 10 n.whole 0 : ℤ) else Nat.ofDigitChars 10 n.whole 0

theorem toInt_ofInt (n : ℤ) : (ofInt n).toInt = n := by
  unfold toInt ofInt
  simp only [Nat.ofDigitChars_ten_toDigits, decide_eq_true_eq]
  split <;> omega

theorem digitChar_ne_zero : ∀ m < 10, 0 < m → m.digitChar ≠ '0' := by decide

/-- A positive number does not start with a zero. Kind: L -/
theorem head?_toDigits (m : ℕ) (hm : 0 < m) : (Nat.toDigits 10 m).head? ≠ some '0' := by
  induction m using Nat.strong_induction_on with
  | _ m ih =>
    rcases Nat.lt_or_ge m 10 with hlt | hge
    · grind [Nat.toDigits_of_lt_base, digitChar_ne_zero]
    · rw [Nat.toDigits_of_base_le (by decide) hge, List.head?_append_of_ne_nil _ Nat.toDigits_ne_nil]
      exact ih (m / 10) (by omega) (by omega)

theorem wellFormed_ofInt (n : ℤ) : (ofInt n).WellFormed where
  whole := by
    rcases Nat.eq_zero_or_pos n.natAbs with hzero | hpos
    · refine .inl ?_
      unfold ofInt
      rw [hzero]
      rfl
    · exact .inr ⟨⟨Nat.toDigits_ne_nil, fun d => Nat.isDigit_of_mem_toDigits (by decide) le_rfl⟩,
        head?_toDigits _ hpos⟩
  fraction := by simp [ofInt]
  exponent := by simp [ofInt]

end Numeral

end KarsaSec.Found
