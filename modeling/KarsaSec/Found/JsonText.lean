import KarsaSec.Found.Json
import KarsaSec.Found.Numeral

/-!
# The text of a document

* `Json.dumps` writes a value compactly, `Json.loads` reads a text.
* `Floats F` is what the language does with its floats: the numeral of a finite one, and the float of a numeral.
* `Json.Plain` values have finite floats only, and no key twice. `loads_dumps` says that these are read back,
  so `dumps_injective` that different ones have different texts.

Characters are scalar values here: the text of a lone surrogate is turned away.
-/

namespace KarsaSec.Found

/-! ## Strings -/

/-- A hexadecimal digit. Kind: D -/
def hexDigit (d : ℕ) : Char := if d < 10 then Char.ofNat (48 + d) else Char.ofNat (87 + d)

/-- The value of a hexadecimal digit. Kind: D -/
def hexValue (c : Char) : Option ℕ :=
  if '0' ≤ c ∧ c ≤ '9' then some (c.toNat - 48)
  else if 'a' ≤ c ∧ c ≤ 'f' then some (c.toNat - 87)
  else if 'A' ≤ c ∧ c ≤ 'F' then some (c.toNat - 55)
  else none

/-- The escapes with a letter of their own. Source: `json/encoder.py`, `ESCAPE_DCT`. Kind: D -/
def escapes : List (Char × Char) :=
  [('"', '"'), ('\\', '\\'), ('\n', 'n'), ('\r', 'r'), ('\t', 't'), ('\x0c', 'f'), ('\x08', 'b')]

/-- The escape of a character. Source: `json/encoder.py`, `py_encode_basestring`. Kind: D -/
def escape (c : Char) : List Char :=
  match escapes.find? fun e => e.1 = c with
  | some e => ['\\', e.2]
  | none =>
    if c.toNat < 32 then ['\\', 'u', '0', '0', hexDigit (c.toNat / 16), hexDigit (c.toNat % 16)] else [c]

/-- A text in quotes. Source: `json/encoder.py`, `py_encode_basestring`. Kind: D -/
def quote (s : List Char) : List Char := '"' :: (s.flatMap escape ++ ['"'])

/-- Four hexadecimal digits. Kind: D -/
def scanHex : List Char → Option (ℕ × List Char)
  | a :: b :: c :: d :: t => do
      let a ← hexValue a
      let b ← hexValue b
      let c ← hexValue c
      let d ← hexValue d
      return (4096 * a + 256 * b + 16 * c + d, t)
  | _ => none

/-- The character of an escape with four digits; a high surrogate needs the low one after it.
Source: `json/decoder.py`, `py_scanstring`
Kind: D -/
def scanUnicode (t : List Char) : Option (Char × List Char) := do
  let (high, t) ← scanHex t
  if 0xd800 ≤ high ∧ high ≤ 0xdbff then
    match t with
    | '\\' :: 'u' :: u =>
      let (low, u) ← scanHex u
      if 0xdc00 ≤ low ∧ low ≤ 0xdfff then
        return (Char.ofNat (0x10000 + (high - 0xd800) * 1024 + (low - 0xdc00)), u)
      else none
    | _ => none
  else if 0xdc00 ≤ high ∧ high ≤ 0xdfff then none
  else return (Char.ofNat high, t)

/-- The character after a backslash. Source: `json/decoder.py`, `BACKSLASH`. Kind: D -/
def scanEscape : List Char → Option (Char × List Char)
  | [] => none
  | 'u' :: t => scanUnicode t
  | '/' :: t => some ('/', t)
  | e :: t => (escapes.find? fun x => x.2 = e).map fun x => (x.1, t)

/-- The text up to the closing quote, and what follows it.
Source: `json/decoder.py`, `py_scanstring`
Kind: D -/
def scanString : ℕ → List Char → Option (List Char × List Char)
  | 0, _ => none
  | _ + 1, [] => none
  | n + 1, c :: t =>
    if c = '"' then some ([], t)
    else if c = '\\' then
      (scanEscape t).bind fun e => (scanString n e.2).map fun p => (e.1 :: p.1, p.2)
    else if c.toNat < 32 then none
    else (scanString n t).map fun p => (c :: p.1, p.2)

theorem hexValue_hexDigit : ∀ d < 16, hexValue (hexDigit d) = some d := by decide

theorem scanEscape_escapes : ∀ e ∈ escapes, ∀ t, scanEscape (e.2 :: t) = some (e.1, t) := by
  intro e he t
  simp only [escapes, List.mem_cons, List.not_mem_nil, or_false] at he
  rcases he with rfl | rfl | rfl | rfl | rfl | rfl | rfl <;> rfl

/-- The four digits of a control character. Kind: L -/
theorem scanEscape_control {c : Char} (hc : c.toNat < 32) (t : List Char) :
    scanEscape ('u' :: '0' :: '0' :: hexDigit (c.toNat / 16) :: hexDigit (c.toNat % 16) :: t) =
      some (c, t) := by
  have hhex : scanHex ('0' :: '0' :: hexDigit (c.toNat / 16) :: hexDigit (c.toNat % 16) :: t) =
      some (c.toNat, t) := by
    have h₁ := hexValue_hexDigit (c.toNat / 16) (by omega)
    have h₂ := hexValue_hexDigit (c.toNat % 16) (by omega)
    have hzero : hexValue '0' = some 0 := by decide
    have hsum : 16 * (c.toNat / 16) + c.toNat % 16 = c.toNat := by omega
    simp [scanHex, h₁, h₂, hzero, hsum]
  have hhigh : ¬(0xd800 ≤ c.toNat ∧ c.toNat ≤ 0xdbff) := by omega
  have hlow : ¬(0xdc00 ≤ c.toNat ∧ c.toNat ≤ 0xdfff) := by omega
  simp [scanEscape, scanUnicode, hhex, hhigh, hlow]

theorem scanString_backslash {n : ℕ} {c : Char} {u t : List Char} (h : scanEscape u = some (c, t)) :
    scanString (n + 1) ('\\' :: u) = (scanString n t).map fun p => (c :: p.1, p.2) := by
  conv_lhs => unfold scanString
  rw [if_neg (by decide), if_pos rfl, h, Option.bind_some]

/-- One character is read back from its escape. Kind: L -/
theorem scanString_escape (n : ℕ) (c : Char) (t : List Char) :
    scanString (n + 1) (escape c ++ t) = (scanString n t).map fun p => (c :: p.1, p.2) := by
  unfold escape
  rcases hfind : escapes.find? fun e => e.1 = c with _ | e
  · have hplain : ∀ e ∈ escapes, e.1 ≠ c := by simpa using hfind
    by_cases hcontrol : c.toNat < 32
    · simp only [hfind, hcontrol, if_true]
      exact scanString_backslash (scanEscape_control hcontrol t)
    · simp only [hfind, hcontrol, if_false, List.singleton_append]
      conv_lhs => unfold scanString
      rw [if_neg (Ne.symm (hplain ('"', '"') (by decide))),
        if_neg (Ne.symm (hplain ('\\', '\\') (by decide))), if_neg hcontrol]
  · grind [scanString_backslash, scanEscape_escapes]

theorem escape_ne_nil (c : Char) : escape c ≠ [] := by
  unfold escape
  split
  · simp
  · split <;> simp

/-- A quoted text is read back. Kind: L -/
theorem scanString_flatMap_escape (r : List Char) : (s : List Char) → {n : ℕ} → s.length < n →
    scanString n (s.flatMap escape ++ '"' :: r) = some (s, r)
  | _, 0, h => absurd h (Nat.not_lt_zero _)
  | [], n + 1, _ => rfl
  | c :: s, n + 1, h => by
    rw [List.flatMap_cons, List.append_assoc, scanString_escape,
      scanString_flatMap_escape r s (by simpa using h)]
    rfl

theorem length_le_flatMap_escape (s : List Char) : s.length ≤ (s.flatMap escape).length := by
  induction s with
  | nil => exact le_rfl
  | cons c s ih =>
    have hpos := List.length_pos_iff.mpr (escape_ne_nil c)
    rw [List.flatMap_cons, List.length_append, List.length_cons]
    omega

theorem scanString_quote (s r : List Char) :
    scanString ((s.flatMap escape ++ '"' :: r).length + 1) (s.flatMap escape ++ '"' :: r) = some (s, r) := by
  refine scanString_flatMap_escape r s ?_
  have hle := length_le_flatMap_escape s
  rw [List.length_append]
  omega

theorem quote_append (s r : List Char) : quote s ++ r = '"' :: (s.flatMap escape ++ '"' :: r) := by
  simp [quote]

/-! ## Floats -/

/-- The floats of the language. `numeral` is what a finite float is written as, `ofNumeral` what a numeral is
read as; the floats without a numeral are written by name.
Source: `float.__repr__`, `float(text)`
Kind: D -/
structure Floats (F : Type) where
  numeral : F → Option Numeral
  ofNumeral : Numeral → F
  name : F → List Char
  nan : F
  infinity : F
  negInfinity : F
  /-- A finite float is written with a fraction or an exponent. -/
  wellFormed : ∀ x, ∀ n ∈ numeral x, n.WellFormed ∧ n.isFloat = true
  /-- What is written for a finite float is read as this float. -/
  ofNumeral_numeral : ∀ x, ∀ n ∈ numeral x, ofNumeral n = x

namespace Json

variable {F : Type} (fl : Floats F)

/-! ## Writing -/

/-- The text of a float. Source: `json/encoder.py`, `floatstr`. Kind: D -/
def floatText (x : F) : List Char :=
  match fl.numeral x with
  | some n => n.text
  | none => fl.name x

mutual

/-- `json.dumps(v, separators=(",", ":"), ensure_ascii=False)`.
Source: `json/encoder.py`, `_iterencode`
Kind: D -/
def dumps : Json F → List Char
  | null => ['n', 'u', 'l', 'l']
  | bool true => ['t', 'r', 'u', 'e']
  | bool false => ['f', 'a', 'l', 's', 'e']
  | int n => (Numeral.ofInt n).text
  | float x => floatText fl x
  | str s => quote s.toList
  | arr [] => ['[', ']']
  | arr (v :: rest) => '[' :: (dumps v ++ dumpsItems rest)
  | obj [] => ['{', '}']
  | obj ((k, v) :: rest) => '{' :: (quote k.toList ++ ':' :: (dumps v ++ dumpsMembers rest))

/-- The items after the first. Source: `json/encoder.py`, `_iterencode_list`. Kind: D -/
def dumpsItems : List (Json F) → List Char
  | [] => [']']
  | v :: rest => ',' :: (dumps v ++ dumpsItems rest)

/-- The members after the first. Source: `json/encoder.py`, `_iterencode_dict`. Kind: D -/
def dumpsMembers : List (String × Json F) → List Char
  | [] => ['}']
  | (k, v) :: rest => ',' :: (quote k.toList ++ ':' :: (dumps v ++ dumpsMembers rest))

end

/-! ## Reading -/

/-- The text after the white space. Source: `json/decoder.py`, `WHITESPACE`. Kind: D -/
def skipSpace (t : List Char) : List Char := t.dropWhile fun c => c = ' ' || c = '\t' || c = '\n' || c = '\r'

/-- The values that are written as words. Source: `json/scanner.py`, `_scan_once`. Kind: D -/
def words : List (List Char × Json F) :=
  [(['n', 'u', 'l', 'l'], null), (['t', 'r', 'u', 'e'], bool true),
    (['f', 'a', 'l', 's', 'e'], bool false), (['N', 'a', 'N'], float fl.nan),
    (['I', 'n', 'f', 'i', 'n', 'i', 't', 'y'], float fl.infinity),
    (['-', 'I', 'n', 'f', 'i', 'n', 'i', 't', 'y'], float fl.negInfinity)]

/-- The value of a numeral. Source: `json/scanner.py`, `_scan_once`, `match_number`. Kind: D -/
def ofNumeral (n : Numeral) : Json F := if n.isFloat then float (fl.ofNumeral n) else int n.toInt

/-- A word or a number. Source: `json/scanner.py`, `_scan_once`. Kind: D -/
def scanScalar (t : List Char) : Option (Json F × List Char) :=
  match (words fl).find? fun w => w.1.isPrefixOf t with
  | some w => some (w.2, t.drop w.1.length)
  | none => (Numeral.scan t).map fun p => (ofNumeral fl p.1, p.2)

/-- A key, up to its closing quote, and the text after the colon.
Source: `json/decoder.py`, `JSONObject`
Kind: D -/
def scanKey (t : List Char) : Option (String × List Char) :=
  match t with
  | '"' :: t =>
    match scanString (t.length + 1) t with
    | some (k, t) =>
      match skipSpace t with
      | ':' :: t => some (String.ofList k, skipSpace t)
      | _ => none
    | none => none
  | _ => none

mutual

/-- The value at the start of a text, and the rest. Source: `json/scanner.py`, `_scan_once`. Kind: D -/
def scan : ℕ → List Char → Option (Json F × List Char)
  | 0, _ => none
  | _ + 1, [] => none
  | n + 1, c :: t =>
    if c = '"' then (scanString (t.length + 1) t).map fun p => (str (String.ofList p.1), p.2)
    else if c = '[' then scanArray n (skipSpace t)
    else if c = '{' then scanObject n (skipSpace t)
    else scanScalar fl (c :: t)

/-- A list after its bracket. Source: `json/decoder.py`, `JSONArray`. Kind: D -/
def scanArray : ℕ → List Char → Option (Json F × List Char)
  | 0, _ => none
  | _ + 1, ']' :: t => some (arr [], t)
  | n + 1, t =>
    (scan n t).bind fun p => (scanItems n (skipSpace p.2)).map fun q => (arr (p.1 :: q.1), q.2)

/-- The items after the first. Source: `json/decoder.py`, `JSONArray`, loop. Kind: D -/
def scanItems : ℕ → List Char → Option (List (Json F) × List Char)
  | 0, _ => none
  | _ + 1, ']' :: t => some ([], t)
  | n + 1, ',' :: t =>
    (scan n (skipSpace t)).bind fun p =>
      (scanItems n (skipSpace p.2)).map fun q => (p.1 :: q.1, q.2)
  | _ + 1, _ => none

/-- A mapping after its brace; of equal keys the last counts. Source: `json/decoder.py`, `JSONObject`. Kind: D -/
def scanObject : ℕ → List Char → Option (Json F × List Char)
  | 0, _ => none
  | _ + 1, '}' :: t => some (obj [], t)
  | n + 1, t =>
    (scanKey t).bind fun k => (scan n k.2).bind fun p =>
      (scanMembers n (skipSpace p.2)).map fun q => (obj (Dict.ofList ((k.1, p.1) :: q.1)).entries, q.2)

/-- The members after the first. Source: `json/decoder.py`, `JSONObject`, loop. Kind: D -/
def scanMembers : ℕ → List Char → Option (List (String × Json F) × List Char)
  | 0, _ => none
  | _ + 1, '}' :: t => some ([], t)
  | n + 1, ',' :: t =>
    (scanKey (skipSpace t)).bind fun k => (scan n k.2).bind fun p =>
      (scanMembers n (skipSpace p.2)).map fun q => ((k.1, p.1) :: q.1, q.2)
  | _ + 1, _ => none

end

/-- `json.loads(s)`; `none` is the `JSONDecodeError`. Source: `json/decoder.py`, `JSONDecoder.decode`. Kind: D -/
def loads (s : List Char) : Option (Json F) :=
  match scan fl (s.length + 1) (skipSpace s) with
  | some (v, t) => if skipSpace t = [] then some v else none
  | none => none

/-! ## Reading what was written -/

/-- Finite floats, and no key twice. Kind: D -/
def Plain (v : Json F) : Prop := Forall (fun x => (fl.numeral x).isSome = true) List.Nodup v

/-- Items that are plain. Kind: D -/
def PlainItems (items : List (Json F)) : Prop :=
  ForallItems (fun x => (fl.numeral x).isSome = true) List.Nodup items

/-- Members that are plain. Kind: D -/
def PlainMembers (members : List (String × Json F)) : Prop :=
  ForallMembers (fun x => (fl.numeral x).isSome = true) List.Nodup members

/-! ### Where items and members start -/

theorem skipSpace_dumpsItems (items : List (Json F)) (r : List Char) :
    skipSpace (dumpsItems fl items ++ r) = dumpsItems fl items ++ r := by
  rcases items with _ | ⟨v, rest⟩ <;> (unfold dumpsItems; rfl)

theorem skipSpace_dumpsMembers (members : List (String × Json F)) (r : List Char) :
    skipSpace (dumpsMembers fl members ++ r) = dumpsMembers fl members ++ r := by
  rcases members with _ | ⟨⟨k, v⟩, rest⟩ <;> (unfold dumpsMembers; rfl)

theorem stops_dumpsItems (items : List (Json F)) (r : List Char) : Stops (dumpsItems fl items ++ r) := by
  rcases items with _ | ⟨v, rest⟩ <;>
    (unfold dumpsItems; rintro c hc; obtain rfl := Option.some.inj hc; decide)

theorem stops_dumpsMembers (members : List (String × Json F)) (r : List Char) :
    Stops (dumpsMembers fl members ++ r) := by
  rcases members with _ | ⟨⟨k, v⟩, rest⟩ <;>
    (unfold dumpsMembers; rintro c hc; obtain rfl := Option.some.inj hc; decide)

theorem length_dumpsItems_pos (items : List (Json F)) : 0 < (dumpsItems fl items).length := by
  rcases items with _ | ⟨v, rest⟩ <;> simp [dumpsItems]

theorem length_dumpsMembers_pos (members : List (String × Json F)) :
    0 < (dumpsMembers fl members).length := by
  rcases members with _ | ⟨⟨k, v⟩, rest⟩ <;> simp [dumpsMembers]

theorem scanScalar_text {n : Numeral} (hn : n.WellFormed) {r : List Char} (hr : Stops r) :
    scanScalar fl (n.text ++ r) = some (ofNumeral fl n, r) := by
  have hwords : (words fl).find? (fun w => w.1.isPrefixOf (n.text ++ r)) = none := by
    obtain ⟨d, ds, hcons, hd⟩ := Numeral.exists_digit hn.whole
    have hne : ∀ c ∈ ['n', 't', 'f', 'N', 'I', '-'], c ≠ d := fun c hc =>
      Numeral.ne_of_isDigit hd ((by simp : ∀ c ∈ ['n', 't', 'f', 'N', 'I', '-'], c.isDigit = false) c hc)
    simp only [List.mem_cons, List.not_mem_nil, or_false, forall_eq_or_imp, forall_eq] at hne
    obtain ⟨h₁, h₂, h₃, h₄, h₅, h₆⟩ := hne
    rcases hneg : n.negative with _ | _ <;>
      simp [words, Numeral.text, hneg, hcons, h₁, h₂, h₃, h₄, h₅, h₆]
  unfold scanScalar
  rw [hwords, Numeral.scan_text hn hr]
  rfl

variable {fl}

/-- Characters that no value starts with. Kind: D -/
def closers : List Char := [' ', '\t', '\n', '\r', ']', '}']

/-- A numeral is scanned as one. Kind: L -/
theorem scan_text {n : Numeral} (hn : n.WellFormed) {r : List Char} (hr : Stops r) (k : ℕ) :
    scan fl (k + 1) (n.text ++ r) = some (ofNumeral fl n, r) := by
  have hscalar := scanScalar_text fl hn hr
  obtain ⟨c, t, htext, hc⟩ := Numeral.head_text hn
  have hne : c ≠ '"' ∧ c ≠ '[' ∧ c ≠ '{' := by
    rcases hc with rfl | hc
    · decide
    · exact ⟨(Numeral.ne_of_isDigit hc (by decide)).symm, (Numeral.ne_of_isDigit hc (by decide)).symm,
        (Numeral.ne_of_isDigit hc (by decide)).symm⟩
  rw [htext] at hscalar ⊢
  rw [List.cons_append] at hscalar ⊢
  unfold scan
  rw [if_neg hne.1, if_neg hne.2.1, if_neg hne.2.2, hscalar]

theorem head_text {n : Numeral} (hn : n.WellFormed) : ∃ c t, n.text = c :: t ∧ c ∉ closers := by
  obtain ⟨c, t, htext, hc⟩ := Numeral.head_text hn
  refine ⟨c, t, htext, fun hmem => ?_⟩
  have hclosers : ∀ c ∈ closers, c ≠ '-' ∧ c.isDigit = false := by
    simp [closers]
  obtain ⟨hminus, hdigit⟩ := hclosers c hmem
  rcases hc with hc | hc
  · exact hminus hc
  · rw [hdigit] at hc
    cases hc

/-- How the text of a value starts. Kind: L -/
theorem head_dumps : {v : Json F} → Plain fl v → ∃ c t, dumps fl v = c :: t ∧ c ∉ closers
  | null, _ => ⟨_, _, by unfold dumps; rfl, by decide⟩
  | bool true, _ => ⟨_, _, by unfold dumps; rfl, by decide⟩
  | bool false, _ => ⟨_, _, by unfold dumps; rfl, by decide⟩
  | int n, _ => by
    unfold dumps
    exact head_text (Numeral.wellFormed_ofInt n)
  | float x, h => by
    obtain ⟨n, hn⟩ := Option.isSome_iff_exists.mp (show (fl.numeral x).isSome = true from h)
    unfold dumps floatText
    rw [hn]
    exact head_text (fl.wellFormed x n hn).1
  | str s, _ => ⟨_, _, by unfold dumps; rfl, by decide⟩
  | arr [], _ => ⟨_, _, by unfold dumps; rfl, by decide⟩
  | arr (_ :: _), _ => ⟨_, _, by unfold dumps; rfl, by decide⟩
  | obj [], _ => ⟨_, _, by unfold dumps; rfl, by decide⟩
  | obj (_ :: _), _ => ⟨_, _, by unfold dumps; rfl, by decide⟩

/-- No white space is skipped before a value. Kind: L -/
theorem skipSpace_dumps {v : Json F} (hv : Plain fl v) (r : List Char) :
    skipSpace (dumps fl v ++ r) = dumps fl v ++ r := by
  obtain ⟨c, t, htext, hc⟩ := head_dumps hv
  simp only [closers, List.mem_cons, List.not_mem_nil, or_false, not_or] at hc
  rw [htext, List.cons_append]
  unfold skipSpace
  rw [List.dropWhile_cons_of_neg]
  simp [hc.1, hc.2.1, hc.2.2.1, hc.2.2.2.1]

/-- A key is read back. Kind: L -/
theorem scanKey_quote (k : String) {r : List Char} (hr : skipSpace r = r) :
    scanKey (quote k.toList ++ ':' :: r) = some (k, r) := by
  have hscan := scanString_quote k.toList (':' :: r)
  have hcolon : skipSpace (':' :: r) = ':' :: r := rfl
  rw [quote_append]
  unfold scanKey
  simp only [hscan, hcolon, hr, String.ofList_toList]

theorem scan_quote (s : String) (n : ℕ) (r : List Char) :
    scan fl (n + 1) (quote s.toList ++ r) = some (str s, r) := by
  rw [quote_append]
  unfold scan
  rw [if_pos rfl, scanString_quote, Option.map_some, String.ofList_toList]

/-- A list that does not end at once starts with a value. Kind: L -/
theorem scanArray_dumps {v : Json F} (hv : Plain fl v) (n : ℕ) (r : List Char) :
    scanArray fl (n + 1) (dumps fl v ++ r) = (scan fl n (dumps fl v ++ r)).bind fun p =>
      (scanItems fl n (skipSpace p.2)).map fun q => (arr (p.1 :: q.1), q.2) := by
  obtain ⟨c, t, htext, hc⟩ := head_dumps hv
  rw [htext, List.cons_append]
  conv_lhs => unfold scanArray
  split
  · next h =>
      cases h
  · next h =>
      cases h
      exact absurd (by decide) hc
  · next hn _ =>
      cases hn
      rfl

theorem length_dumps_pos {v : Json F} (hv : Plain fl v) : 0 < (dumps fl v).length := by grind [head_dumps]

mutual

/-- A value is read back. Kind: L -/
theorem scan_dumps : (v : Json F) → Plain fl v → {n : ℕ} → {r : List Char} → Stops r →
    (dumps fl v).length ≤ n → scan fl n (dumps fl v ++ r) = some (v, r)
  | v, hv, 0, _, _, hn => by
    have hpos := length_dumps_pos hv
    omega
  | null, _, n + 1, r, _, _ => by
    unfold dumps
    rfl
  | bool true, _, n + 1, r, _, _ => by
    unfold dumps
    rfl
  | bool false, _, n + 1, r, _, _ => by
    unfold dumps
    rfl
  | int i, _, n + 1, r, hr, _ => by
    unfold dumps
    rw [scan_text (Numeral.wellFormed_ofInt i) hr n]
    have hint : (Numeral.ofInt i).isFloat = false := rfl
    simp only [ofNumeral, hint, Bool.false_eq_true, if_false, Numeral.toInt_ofInt]
  | float x, h, n + 1, r, hr, _ => by
    obtain ⟨m, hm⟩ := Option.isSome_iff_exists.mp (show (fl.numeral x).isSome = true from h)
    obtain ⟨hwell, hfloat⟩ := fl.wellFormed x m hm
    unfold dumps floatText
    simp only [hm]
    rw [scan_text hwell hr n]
    unfold ofNumeral
    rw [if_pos hfloat, fl.ofNumeral_numeral x m hm]
  | str s, _, n + 1, r, _, _ => by
    unfold dumps
    exact scan_quote s n r
  | arr [], _, n + 1, r, _, hn => by
    unfold dumps at hn ⊢
    obtain ⟨m, rfl⟩ := Nat.exists_eq_add_of_le' (show 1 ≤ n by simpa using hn)
    rfl
  | arr (v :: rest), h, n + 1, r, _, hn => by
    obtain ⟨hv, hrest⟩ := h
    have hpos := length_dumpsItems_pos fl rest
    have hpos' := length_dumps_pos hv
    unfold dumps at hn ⊢
    rw [List.length_cons, List.length_append] at hn
    obtain ⟨m, rfl⟩ : ∃ m, n = m + 1 := ⟨n - 1, by omega⟩
    have hscan := scan_dumps v hv (stops_dumpsItems fl rest r) (n := m) (by omega)
    have hitems := scanItems_dumpsItems rest hrest (n := m) (r := r) (by omega)
    rw [List.cons_append, List.append_assoc]
    unfold scan
    rw [if_neg (by decide), if_pos rfl, skipSpace_dumps hv, scanArray_dumps hv, hscan, Option.bind_some,
      skipSpace_dumpsItems, hitems, Option.map_some]
  | obj [], _, n + 1, r, _, hn => by
    unfold dumps at hn ⊢
    obtain ⟨m, rfl⟩ := Nat.exists_eq_add_of_le' (show 1 ≤ n by simpa using hn)
    rfl
  | obj ((k, v) :: rest), h, n + 1, r, _, hn => by
    obtain ⟨hkeys, hv, hrest⟩ := h
    have hpos := length_dumpsMembers_pos fl rest
    have hpos' := length_dumps_pos hv
    unfold dumps at hn ⊢
    simp only [List.length_cons, List.length_append] at hn
    obtain ⟨m, rfl⟩ : ∃ m, n = m + 1 := ⟨n - 1, by omega⟩
    have hscan := scan_dumps v hv (stops_dumpsMembers fl rest r) (n := m) (by omega)
    have hmembers := scanMembers_dumpsMembers rest hrest (n := m) (r := r) (by omega)
    have hkey := scanKey_quote k (skipSpace_dumps hv (dumpsMembers fl rest ++ r))
    have hspace : ∀ t, skipSpace (quote k.toList ++ t) = quote k.toList ++ t := fun _ => rfl
    have hobject : ∀ t, scanObject fl (m + 1) (quote k.toList ++ t) =
        (scanKey (quote k.toList ++ t)).bind fun k => (scan fl m k.2).bind fun p =>
          (scanMembers fl m (skipSpace p.2)).map fun q =>
            (obj (Dict.ofList ((k.1, p.1) :: q.1)).entries, q.2) := fun _ => rfl
    rw [List.cons_append, List.append_assoc, List.cons_append, List.append_assoc]
    unfold scan
    rw [if_neg (by decide), if_neg (by decide), if_pos rfl, hspace, hobject, hkey]
    simp only [Option.bind_some, hscan, skipSpace_dumpsMembers, hmembers, Option.map_some,
      Dict.entries_ofList hkeys]

/-- The items after the first are read back. Kind: L -/
theorem scanItems_dumpsItems : (items : List (Json F)) → PlainItems fl items → {n : ℕ} → {r : List Char} →
    (dumpsItems fl items).length ≤ n → scanItems fl n (dumpsItems fl items ++ r) = some (items, r)
  | items, _, 0, _, hn => by
    have hpos := length_dumpsItems_pos fl items
    omega
  | [], _, n + 1, r, _ => by
    unfold dumpsItems
    rfl
  | v :: rest, h, n + 1, r, hn => by
    obtain ⟨hv, hrest⟩ := h
    unfold dumpsItems at hn ⊢
    rw [List.length_cons, List.length_append] at hn
    have hscan := scan_dumps v hv (stops_dumpsItems fl rest r) (n := n) (by omega)
    have hitems := scanItems_dumpsItems rest hrest (n := n) (r := r) (by omega)
    rw [List.cons_append, List.append_assoc]
    unfold scanItems
    simp only [skipSpace_dumps hv, hscan, Option.bind_some, skipSpace_dumpsItems, hitems,
      Option.map_some]

/-- The members after the first are read back. Kind: L -/
theorem scanMembers_dumpsMembers : (members : List (String × Json F)) → PlainMembers fl members →
    {n : ℕ} → {r : List Char} → (dumpsMembers fl members).length ≤ n →
    scanMembers fl n (dumpsMembers fl members ++ r) = some (members, r)
  | members, _, 0, _, hn => by
    have hpos := length_dumpsMembers_pos fl members
    omega
  | [], _, n + 1, r, _ => by
    unfold dumpsMembers
    rfl
  | (k, v) :: rest, h, n + 1, r, hn => by
    obtain ⟨hv, hrest⟩ := h
    unfold dumpsMembers at hn ⊢
    simp only [List.length_cons, List.length_append] at hn
    have hscan := scan_dumps v hv (stops_dumpsMembers fl rest r) (n := n) (by omega)
    have hmembers := scanMembers_dumpsMembers rest hrest (n := n) (r := r) (by omega)
    have hkey := scanKey_quote k (skipSpace_dumps hv (dumpsMembers fl rest ++ r))
    have hspace : ∀ t, skipSpace (quote k.toList ++ t) = quote k.toList ++ t := fun _ => rfl
    rw [List.cons_append, List.append_assoc, List.cons_append, List.append_assoc]
    unfold scanMembers
    simp only [hspace, hkey, Option.bind_some, hscan, skipSpace_dumpsMembers, hmembers,
      Option.map_some]

end

/-- What was written is read back. Source: `json.dumps`, `json.loads`. Kind: P -/
theorem loads_dumps {v : Json F} (hv : Plain fl v) : loads fl (dumps fl v) = some v := by
  have hskip : skipSpace (dumps fl v) = dumps fl v := by
    simpa using skipSpace_dumps hv []
  have hscan : scan fl ((dumps fl v).length + 1) (dumps fl v) = some (v, []) := by
    simpa using scan_dumps v hv (r := []) (by simp [Stops]) (Nat.le_succ _)
  unfold loads
  rw [hskip, hscan]
  rfl

theorem Plain.sortKeys {v : Json F} (hv : Plain fl v) : Plain fl v.sortKeys :=
  forall_sortKeys (fun h => h.nodup_iff.mp) hv

/-- Different values have different texts. Kind: P -/
theorem dumps_injective {v v' : Json F} (hv : Plain fl v) (hv' : Plain fl v')
    (h : dumps fl v = dumps fl v') : v = v' := by
  have hread := loads_dumps hv
  rw [h, loads_dumps hv'] at hread
  exact (Option.some.inj hread).symm

end Json

end KarsaSec.Found
