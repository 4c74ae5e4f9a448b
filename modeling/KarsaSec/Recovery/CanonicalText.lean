import KarsaSec.Recovery.Snapshot

/-!
# Canonical texts

`canonicalJson` writes a document with sorted keys in ASCII only. `canonicalJson_inj`: different documents have different
texts, up to the order of keys.

A document's text is made of single characters and of the escapes that strings are written with (`Escaped`). ASCII only, a
backslash starts an escape of either kind, and the character that is read back tells which.
-/

namespace KarsaSec.Recovery

open KarsaSec.Found

/-! ## Escapes -/

/-- A text of characters and of escapes of strings. Kind: D -/
inductive Escaped : List Char → Prop
  | nil : Escaped []
  | char {c : Char} {t : List Char} (hc : c ≠ '\\') (hspace : ' ' ≤ c) (h : Escaped t) : Escaped (c :: t)
  | special {c : Char} {t : List Char} (hc : escape c ≠ [c]) (h : Escaped t) : Escaped (escape c ++ t)

theorem hexFour_eq (n : ℕ) : hexFour n =
    [hexDigit (n / 4096 % 16), hexDigit (n / 256 % 16), hexDigit (n / 16 % 16), hexDigit (n / 1 % 16)] := rfl

theorem scanHex_hexFour {n : ℕ} (hn : n < 0x10000) (t : List Char) : scanHex (hexFour n ++ t) = some (n, t) := by
  have hdigit : ∀ place, hexValue (hexDigit (n / place % 16)) = some (n / place % 16) := fun place =>
    hexValue_hexDigit _ (Nat.mod_lt _ (by decide))
  rw [hexFour_eq]
  show (do
    let a ← hexValue (hexDigit (n / 4096 % 16))
    let b ← hexValue (hexDigit (n / 256 % 16))
    let c ← hexValue (hexDigit (n / 16 % 16))
    let d ← hexValue (hexDigit (n / 1 % 16))
    return (4096 * a + 256 * b + 16 * c + d, t)) = some (n, t)
  rw [hdigit, hdigit, hdigit, hdigit]
  have hsum : 4096 * (n / 4096 % 16) + 256 * (n / 256 % 16) + 16 * (n / 16 % 16) + n / 1 % 16 = n := by omega
  show some (_, t) = some (n, t)
  rw [hsum]

theorem scanUnicode_plane {n : ℕ} (hn : n < 0x10000) (hscalar : ¬(0xd800 ≤ n ∧ n < 0xe000)) (t : List Char) :
    scanUnicode (hexFour n ++ t) = some (Char.ofNat n, t) := by
  have hhigh : ¬(0xd800 ≤ n ∧ n ≤ 0xdbff) := by omega
  have hlow : ¬(0xdc00 ≤ n ∧ n ≤ 0xdfff) := by omega
  unfold scanUnicode
  simp only [scanHex_hexFour hn, Option.bind_eq_bind, Option.bind_some, if_neg hhigh, if_neg hlow]
  rfl

theorem scanUnicode_pair {n : ℕ} (hn : n < 0x100000) (t : List Char) :
    scanUnicode (hexFour (0xd800 + n / 1024) ++ '\\' :: 'u' :: (hexFour (0xdc00 + n % 1024) ++ t)) =
      some (Char.ofNat (0x10000 + n), t) := by
  have hhigh : 0xd800 ≤ 0xd800 + n / 1024 ∧ 0xd800 + n / 1024 ≤ 0xdbff := by omega
  have hlow : 0xdc00 ≤ 0xdc00 + n % 1024 ∧ 0xdc00 + n % 1024 ≤ 0xdfff := by omega
  have hfirst := scanHex_hexFour (n := 0xd800 + n / 1024) (by omega)
  have hsecond := scanHex_hexFour (n := 0xdc00 + n % 1024) (by omega)
  have hsum : 0x10000 + (0xd800 + n / 1024 - 0xd800) * 1024 + (0xdc00 + n % 1024 - 0xdc00) = 0x10000 + n := by omega
  unfold scanUnicode
  simp only [hfirst, hsecond, Option.bind_eq_bind, Option.bind_some, if_pos hhigh, if_pos hlow, hsum]
  rfl

/-- A character outside ASCII is read back from its escape. Kind: L -/
theorem asciiOnly_beyond {c : Char} (hc : ¬(' ' ≤ c ∧ c ≤ '~')) :
    ∃ u, asciiOnly c = '\\' :: u ∧ ∀ t, scanEscape (u ++ t) = some (c, t) := by
  have hscalar : c.toNat < 0x110000 ∧ ¬(0xd800 ≤ c.toNat ∧ c.toNat < 0xe000) := by
    have hcases : c.toNat < 0xd800 ∨ (0xdfff < c.toNat ∧ c.toNat < 0x110000) := c.valid
    omega
  by_cases hplane : c.toNat < 0x10000
  · refine ⟨'u' :: hexFour c.toNat, ?_, fun t => ?_⟩
    · unfold asciiOnly
      rw [if_neg hc, if_pos hplane]
    · show scanUnicode (hexFour c.toNat ++ t) = _
      rw [scanUnicode_plane hplane hscalar.2, Char.ofNat_toNat]
  · have hsum : 0x10000 + (c.toNat - 0x10000) = c.toNat := by omega
    refine ⟨'u' :: (hexFour (0xd800 + (c.toNat - 0x10000) / 1024) ++
      '\\' :: 'u' :: hexFour (0xdc00 + (c.toNat - 0x10000) % 1024)), ?_, fun t => ?_⟩
    · unfold asciiOnly
      rw [if_neg hc, if_neg hplane]
      rfl
    · show scanUnicode (hexFour (0xd800 + (c.toNat - 0x10000) / 1024) ++
        '\\' :: 'u' :: hexFour (0xdc00 + (c.toNat - 0x10000) % 1024) ++ t) = _
      rw [List.append_assoc, List.cons_append, List.cons_append, scanUnicode_pair (by omega), hsum, Char.ofNat_toNat]

/-- What `escape` writes for a character that does not stand for itself: a backslash, and ASCII from which it is read back.
Kind: L -/
theorem escape_special {c : Char} (hc : escape c ≠ [c]) : ∃ u, escape c = '\\' :: u ∧ (escape c).flatMap asciiOnly = escape c ∧
    c ≤ '~' ∧ ∀ t, scanEscape (u ++ t) = some (c, t) := by
  unfold escape at hc ⊢
  rcases hfind : escapes.find? fun e => e.1 = c with _ | e
  · simp only [hfind] at hc ⊢
    by_cases hcontrol : c.toNat < 32
    · rw [if_pos hcontrol] at hc ⊢
      refine ⟨_, rfl, ?_, ?_, scanEscape_control hcontrol⟩
      · have hdigits : ∀ d < 16, asciiOnly (hexDigit d) = [hexDigit d] := by decide
        simp only [List.flatMap_cons, List.flatMap_nil, hdigits _ (show c.toNat / 16 < 16 by omega),
          hdigits _ (show c.toNat % 16 < 16 by omega)]
        rfl
      · show c.toNat ≤ 126
        omega
    · rw [if_neg hcontrol] at hc
      exact absurd rfl hc
  · obtain rfl : e.1 = c := by simpa using List.find?_some hfind
    simp only [hfind] at hc ⊢
    have hmem := List.mem_of_find?_eq_some hfind
    have hletters : ∀ e ∈ escapes, ['\\', e.2].flatMap asciiOnly = ['\\', e.2] ∧ e.1 ≤ '~' := by decide
    exact ⟨_, rfl, (hletters e hmem).1, (hletters e hmem).2, scanEscape_escapes e hmem⟩

/-! ## Reading back -/

/-- A text is empty, starts with a character that stands for itself, or, in ASCII, with a backslash from behind which its
first character is read back.
Kind: L -/
theorem Escaped.view {s : List Char} (h : Escaped s) : s = [] ∨
    (∃ c t, Escaped t ∧ s = c :: t ∧ c ≠ '\\' ∧ s.flatMap asciiOnly = c :: t.flatMap asciiOnly) ∨
      ∃ c t u, Escaped t ∧ s = (if c ≤ '~' then Found.escape c else [c]) ++ t ∧ s.flatMap asciiOnly = '\\' :: u ∧
        scanEscape u = some (c, t.flatMap asciiOnly) := by
  cases h with
  | nil => exact .inl rfl
  | @char c t hc hspace ht =>
    by_cases hlow : c ≤ '~'
    · simp_all [asciiOnly]
    · obtain ⟨u, hu, hread⟩ := asciiOnly_beyond (c := c) fun hand => hlow hand.2
      refine .inr (.inr ⟨c, t, u ++ t.flatMap asciiOnly, ht, ?_, ?_, hread _⟩)
      · rw [if_neg hlow]
        rfl
      · rw [List.flatMap_cons, hu]
        rfl
  | @special c t hc ht =>
    obtain ⟨u, hu, hsame, hlow, hread⟩ := escape_special hc
    refine .inr (.inr ⟨c, t, u ++ t.flatMap asciiOnly, ht, by rw [if_pos hlow], ?_, hread _⟩)
    rw [List.flatMap_append, hsame, hu]
    rfl

/-- **Texts with escapes can be told apart in ASCII.** Kind: P -/
theorem Escaped.ascii_inj : ∀ {s s' : List Char}, Escaped s → Escaped s' →
    s.flatMap asciiOnly = s'.flatMap asciiOnly → s = s' := by
  have hlength : ∀ n, ∀ s : List Char, s.length < n → ∀ s', Escaped s → Escaped s' →
      s.flatMap asciiOnly = s'.flatMap asciiOnly → s = s' := by
    intro n
    induction n with
    | zero => exact fun s hn => absurd hn (Nat.not_lt_zero _)
    | succ n ih =>
      intro s hn s' h h' heq
      rcases h.view with rfl | ⟨c, t, ht, rfl, hc, hs⟩ | ⟨c, t, u, ht, rfl, hs, hread⟩ <;>
        rcases h'.view with rfl | ⟨c', t', ht', rfl, hc', hs'⟩ | ⟨c', t', u', ht', rfl, hs', hread'⟩
      · rfl
      · rw [hs'] at heq
        cases heq
      · rw [hs'] at heq
        cases heq
      · rw [hs] at heq
        cases heq
      · grind
      · grind
      · rw [hs] at heq
        cases heq
      · grind
      · rw [hs, hs'] at heq
        rw [(List.cons.inj heq).2, hread'] at hread
        obtain ⟨rfl, hrest⟩ := Prod.mk.inj (Option.some.inj hread)
        have hpos : 0 < (if c' ≤ '~' then Found.escape c' else [c']).length := by
          split_ifs
          · exact List.length_pos_iff.mpr (escape_ne_nil c')
          · exact Nat.one_pos
        rw [List.length_append] at hn
        rw [ih t (by omega) t' ht ht' hrest.symm]
  exact fun {s s'} h h' heq => hlength (s.length + 1) s (Nat.lt_succ_self _) s' h h' heq

/-! ## Documents -/

theorem Escaped.append {s t : List Char} (hs : Escaped s) (ht : Escaped t) : Escaped (s ++ t) := by
  induction hs with
  | nil => exact ht
  | char hc hspace _ ih => exact .char hc hspace ih
  | special hc _ ih =>
    rw [List.append_assoc]
    exact .special hc ih

theorem escaped_escape (c : Char) {t : List Char} (ht : Escaped t) : Escaped (escape c ++ t) := by
  by_cases hc : escape c = [c]
  · have hne : c ≠ '\\' := by
      rintro rfl
      exact absurd hc (by decide)
    have hspace : ' ' ≤ c := by
      unfold escape at hc
      split at hc
      · cases hc
      · split_ifs at hc with hcontrol
        · cases hc
        · show 32 ≤ c.toNat
          omega
    rw [hc]
    exact .char hne hspace ht
  · exact .special hc ht

theorem escaped_quote (s : List Char) {t : List Char} (ht : Escaped t) : Escaped (quote s ++ t) := by
  rw [quote_append]
  refine .char (by decide) (by decide) ?_
  induction s with
  | nil => exact .char (by decide) (by decide) ht
  | cons c s ih =>
    rw [List.flatMap_cons, List.append_assoc]
    exact escaped_escape c ih

/-- Text without backslashes and control characters. Kind: L -/
theorem escaped_of_forall {s : List Char} (h : ∀ c ∈ s, c ≠ '\\' ∧ ' ' ≤ c) : Escaped s := by
  induction s with
  | nil => exact .nil
  | cons c s ih =>
    rw [List.forall_mem_cons] at h
    exact .char h.1.1 h.1.2 (ih h.2)

theorem escaped_of_all {s : List Char} (h : (s.all fun c => c ≠ '\\' ∧ ' ' ≤ c) = true) : Escaped s :=
  escaped_of_forall fun c hc => of_decide_eq_true (List.all_eq_true.mp h c hc)

/-- A digit is no backslash, and no control character. Kind: L -/
theorem isDigit_plain {c : Char} (hdigit : c.isDigit = true) : c ≠ '\\' ∧ ' ' ≤ c := by
  refine ⟨?_, ?_⟩
  · rintro rfl
    cases hdigit
  · have hrange := Bool.and_eq_true_iff.mp hdigit
    exact le_trans (by decide) (of_decide_eq_true hrange.1)

theorem escaped_text {n : Numeral} (hn : n.WellFormed) : Escaped n.text := by
  have hdigits : ∀ {ds : List Char}, Digits ds → ∀ c ∈ ds, c ≠ '\\' ∧ ' ' ≤ c := fun hds c hc => isDigit_plain (hds.2 c hc)
  refine escaped_of_forall fun c hc => ?_
  rcases List.mem_append.mp hc with hminus | hrest
  · simp_all
  rcases List.mem_append.mp hrest with hwhole | hrest
  · rcases hn.whole with hzero | hds
    · simp_all
    · exact hdigits hds.1 c hwhole
  rcases List.mem_append.mp hrest with hfraction | hexponent
  · cases hf : n.fraction with
    | none =>
      rw [hf] at hfraction
      cases hfraction
    | some ds =>
      rw [hf] at hfraction
      rcases List.mem_cons.mp hfraction with rfl | hc
      · decide
      · exact hdigits (hn.fraction ds hf) c hc
  · cases he : n.exponent with
    | none =>
      rw [he] at hexponent
      cases hexponent
    | some e =>
      rw [he] at hexponent
      have hwell := hn.exponent e he
      rcases List.mem_cons.mp hexponent with rfl | hrest
      · rcases hwell.letter with hletter | hletter <;> rw [hletter] <;> decide
      rcases List.mem_append.mp hrest with hsign | hc
      · rcases hwell.sign with hs | hs | hs <;> rw [hs] at hsign
        · cases hsign
        · rw [List.mem_singleton.mp hsign]
          decide
        · rw [List.mem_singleton.mp hsign]
          decide
      · exact hdigits hwell.digits c hc

section dumps

variable {F : Type} {fl : Floats F}

mutual

theorem escaped_dumps : ∀ {v : Json F}, Json.Plain fl v → Escaped (Json.dumps fl v)
  | .null, _ => escaped_of_all rfl
  | .bool true, _ => escaped_of_all rfl
  | .bool false, _ => escaped_of_all rfl
  | .int n, _ => escaped_text (Numeral.wellFormed_ofInt n)
  | .float x, hv => by
    obtain ⟨n, hn⟩ := Option.isSome_iff_exists.mp (show (fl.numeral x).isSome = true from hv)
    rw [Json.dumps, Json.floatText, hn]
    exact escaped_text (fl.wellFormed x n hn).1
  | .str s, _ => by
    have h := escaped_quote s.toList .nil
    rwa [List.append_nil] at h
  | .arr [], _ => escaped_of_all rfl
  | .arr (_ :: _), hv => .char (by decide) (by decide) ((escaped_dumps hv.1).append (escaped_dumpsItems hv.2))
  | .obj [], _ => escaped_of_all rfl
  | .obj ((k, _) :: _), hv => by
    refine .char (by decide) (by decide) (escaped_quote k.toList (.char (by decide) (by decide) ?_))
    exact (escaped_dumps hv.2.1).append (escaped_dumpsMembers hv.2.2)

theorem escaped_dumpsItems : ∀ {items : List (Json F)}, Json.PlainItems fl items → Escaped (Json.dumpsItems fl items)
  | [], _ => escaped_of_all rfl
  | _ :: _, h => .char (by decide) (by decide) ((escaped_dumps h.1).append (escaped_dumpsItems h.2))

theorem escaped_dumpsMembers : ∀ {members : List (String × Json F)}, Json.PlainMembers fl members →
    Escaped (Json.dumpsMembers fl members)
  | [], _ => escaped_of_all rfl
  | (k, _) :: _, h => by
    refine .char (by decide) (by decide) (escaped_quote k.toList (.char (by decide) (by decide) ?_))
    exact (escaped_dumps h.1).append (escaped_dumpsMembers h.2)

end

/-- `json.dumps(data, sort_keys=True, separators=(",", ":"))`. Source: `snapshot.py`, `canonical_json`. Kind: D -/
def canonicalText (fl : Floats F) (data : Json F) : String :=
  String.ofList ((Json.dumps fl data.sortKeys).flatMap asciiOnly)

/-- Different documents have different texts. Source: `snapshot.py`, `canonical_json`. Kind: P -/
theorem canonicalText_inj {v v' : Json F} (hv : Json.Plain fl v) (hv' : Json.Plain fl v')
    (h : canonicalText fl v = canonicalText fl v') : v.Same v' := by
  have hascii := String.ofList_injective h
  exact Json.dumps_injective hv.sortKeys hv'.sortKeys
    ((escaped_dumps hv.sortKeys).ascii_inj (escaped_dumps hv'.sortKeys) hascii)

end dumps

/-- **Different documents have different canonical texts.** Source: `snapshot.py`, `canonical_json`. Kind: P -/
theorem canonicalJson_inj {v v' : Json Unit} (hv : Json.Plain noFloats v) (hv' : Json.Plain noFloats v')
    (h : canonicalJson v = canonicalJson v') : v.sortKeys = v'.sortKeys :=
  canonicalText_inj hv hv' h

end KarsaSec.Recovery
