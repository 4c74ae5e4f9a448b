import KarsaSec.Analysis.UrlSecurity

/-!
# Where a URL and its canonical form have one verdict

The checks look at the URL as it comes, the browser at what it decodes to.

* `Agrees`: what is let pass for its host has an allowed host in canonical form, what is let pass as a local path is one,
  and the canonical form is its own.
* `Settled`: decoding once leaves nothing to decode or to strip. It is what the last part needs: `canonicalize_idem_iff`.
* `hostText_canonicalText`: the host survives if nothing in it is encoded, no delimiter is encoded before it, and no second
  slash is encoded where the authority could begin.
* `safe_verdicts_agree` puts these together; `safe_verdicts_differ` has a host and a path that are let pass and lead
  elsewhere.
-/

namespace KarsaSec.Analysis

open KarsaSec.Found

/-! ## The canonical form -/

/-- The canonical form of a text that is stripped. Kind: D -/
def canonicalText (t : List Char) : List Char := (unquote t).map turnSlash

theorem canonicalizeUrl_eq (value : String) :
    canonicalizeUrl value = String.ofList (canonicalText (stripList value.toList)) := by
  have hplain : ∀ {s : List Char}, '%' ∉ s → unquote s = s := by
    intro s
    induction s with
    | nil => exact fun _ => rfl
    | cons c cs ih =>
      intro h
      rw [List.mem_cons, not_or] at h
      rw [unquote_cons (Ne.symm h.1), ih h.2]
  rw [canonicalizeUrl, canonicalText]
  split
  · rfl
  · next h => rw [hplain h]

/-- Decoding once leaves nothing to decode and nothing to strip. Kind: D -/
def Settled (raw : String) : Prop :=
  hasEscape (unquote (stripList raw.toList)) = false ∧
    stripList (unquote (stripList raw.toList)) = unquote (stripList raw.toList)

theorem turnSlash_idem (c : Char) : turnSlash (turnSlash c) = turnSlash c := by
  unfold turnSlash
  split_ifs <;> simp_all

theorem isSpace_turnSlash (c : Char) : isSpace (turnSlash c) = isSpace c := by
  unfold turnSlash
  split
  · next h => subst h; decide
  · rfl

theorem stripList_map_turnSlash (s : List Char) : stripList (s.map turnSlash) = (stripList s).map turnSlash := by
  have hfun : isSpace ∘ turnSlash = isSpace := funext isSpace_turnSlash
  simp only [stripList, List.dropWhile_map, hfun, ← List.map_reverse]

theorem hasEscape_map_turnSlash (s : List Char) : hasEscape (s.map turnSlash) = hasEscape s := by
  apply hasEscape_map
  intro c
  by_cases h : c = '\\'
  · subst h
    exact Or.inr (by decide)
  · exact Or.inl (if_neg h)

/-- Stripping that takes nothing off leaves the text. Kind: L -/
theorem stripList_eq_of_length {s : List Char} (h : s.length ≤ (stripList s).length) : stripList s = s := by
  obtain ⟨a, b, hab, -⟩ := exists_stripList s
  have hsum := congrArg List.length hab
  simp only [List.length_append] at hsum
  have ha : a = [] := List.length_eq_zero_iff.mp (by omega)
  have hb : b = [] := List.length_eq_zero_iff.mp (by omega)
  rw [ha, hb, List.nil_append, List.append_nil] at hab
  exact hab.symm

/-- **When the canonical form is its own.** Kind: P -/
theorem canonicalize_idem_iff (raw : String) :
    canonicalizeUrl (canonicalizeUrl raw) = canonicalizeUrl raw ↔ Settled raw := by
  rw [canonicalizeUrl_eq, canonicalizeUrl_eq raw, String.toList_ofList, String.ofList_inj, Settled]
  simp only [canonicalText]
  generalize unquote (stripList raw.toList) = decoded
  have hstrip := stripList_map_turnSlash decoded
  have hesc := hasEscape_map_turnSlash decoded
  constructor
  · intro h
    -- neither stripping nor decoding has made the text shorter
    have hlen := congrArg List.length h
    rw [hstrip, List.length_map, List.length_map] at hlen
    have hle := length_unquote_le ((stripList decoded).map turnSlash)
    rw [hlen, List.length_map] at hle
    have hsame := stripList_eq_of_length hle
    refine ⟨?_, hsame⟩
    by_contra hsome
    rw [← hesc, Bool.not_eq_false] at hsome
    have hlt := length_unquote_lt hsome
    rw [hsame] at hlen
    rw [hlen, List.length_map] at hlt
    exact lt_irrefl _ hlt
  · simp_all [unquote_of_plain, turnSlash_idem]

/-! ## Where the host begins and ends -/

/-- What ends an authority. Kind: D -/
def isDelimiter (c : Char) : Bool := c = '/' || c = '?' || c = '#'

/-- The text has no delimiter and no backslash. Kind: D -/
def Undivided (s : List Char) : Prop := ∀ c ∈ s, isDelimiter c = false ∧ c ≠ '\\'

/-- The text is over, or goes on with a delimiter. Kind: D -/
def Delimited (s : List Char) : Prop := ∀ c ∈ s.head?, isDelimiter c = true

theorem splitAuthority_fst {s : List Char} (h : '\\' ∉ s) : (splitAuthority s).1 = s.takeWhile (· ≠ '/') := by
  unfold splitAuthority
  split_ifs with hslash
  · rfl
  · symm
    rw [List.takeWhile_eq_self_iff]
    intro c hc
    simp only [decide_eq_true_eq]
    rintro rfl
    exact hslash hc

theorem authority_splitRest {r : List Char} (h : '\\' ∉ r) :
    (splitRest r).authority = r.takeWhile fun c => !isDelimiter c := by
  have hback : '\\' ∉ (r.takeWhile (· ≠ '#')).takeWhile (· ≠ '?') := fun hmem =>
    h ((List.takeWhile_prefix _).subset ((List.takeWhile_prefix _).subset hmem))
  calc (splitRest r).authority
      = ((r.takeWhile (· ≠ '#')).takeWhile (· ≠ '?')).takeWhile (· ≠ '/') := splitAuthority_fst hback
    _ = r.takeWhile fun c => !isDelimiter c := by simp [List.takeWhile_takeWhile, isDelimiter, Bool.and_assoc]

theorem authority_append {a r : List Char} (ha : Undivided a) (hr : Delimited r) (hback : '\\' ∉ r) :
    (splitRest (a ++ r)).authority = a := by
  have hno : '\\' ∉ a ++ r := by
    rw [List.mem_append, not_or]
    exact ⟨fun h => (ha _ h).2 rfl, hback⟩
  rw [authority_splitRest hno, List.takeWhile_append_of_pos fun c hc => by simp [(ha c hc).1]]
  cases r with
  | nil => simp
  | cons c r => rw [List.takeWhile_cons_of_neg (by simp [hr c rfl]), List.append_nil]

/-- No second slash follows on a text without delimiters. Kind: L -/
theorem doubleSlash_append {a : List Char} (ha : Undivided a) (hne : a ≠ []) (r : List Char) :
    doubleSlash (a ++ r) = false := by
  cases a with
  | nil => exact absurd rfl hne
  | cons c a =>
    obtain ⟨hd, hb⟩ := ha c List.mem_cons_self
    have hs : c ≠ '/' := by
      rintro rfl
      exact absurd hd (by decide)
    simp [doubleSlash, List.isPrefixOf, Ne.symm hs, Ne.symm hb]

theorem rtakeWhile_append_of_mem {a b : List Char} (h : '@' ∈ b) :
    (a ++ b).rtakeWhile (· ≠ '@') = b.rtakeWhile (· ≠ '@') := by
  simp only [List.rtakeWhile, List.reverse_append]
  congr 1
  have hno : ¬∀ c ∈ b.reverse, decide (c ≠ '@') = true := fun hall => by
    simpa using hall '@' (List.mem_reverse.mpr h)
  rw [List.takeWhile_append, if_neg]
  intro hlen
  exact hno (List.takeWhile_eq_self_iff.mp ((List.takeWhile_prefix _).eq_of_length hlen))

/-! ## The scheme -/

/-- The characters of a scheme, a newline at its end included, divide nothing. Kind: L -/
theorem of_mem_scheme {name : List Char} (h : isScheme name = true) {c : Char} (hc : c ∈ name) :
    c ∉ ['%', '@', '/', '?', '#', '\\', ':'] := by
  have hbody : ∀ s : List Char, isSchemeBody s = true → ∀ d ∈ s, isSchemeChar d = true := by
    intro s hs d hd
    cases s with
    | nil => exact absurd hd List.not_mem_nil
    | cons x xs =>
      simp only [isSchemeBody, Bool.and_eq_true, List.all_eq_true] at hs
      rcases List.mem_cons.mp hd with rfl | hd
      · simp [isSchemeChar, hs.1]
      · exact hs.2 d hd
  have hchar : isSchemeChar c = true ∨ c = '\n' := by
    simp only [isScheme, Bool.or_eq_true, Bool.and_eq_true, decide_eq_true_eq] at h
    rcases h with h | ⟨hlast, h⟩
    · exact Or.inl (hbody _ h c hc)
    · rw [← List.dropLast_append_getLast? '\n' hlast, List.mem_append, List.mem_singleton] at hc
      exact hc.imp_left fun hmem => hbody _ h c hmem
  intro hmem
  simp only [List.mem_cons, List.not_mem_nil, or_false] at hmem
  rcases hmem with rfl | rfl | rfl | rfl | rfl | rfl | rfl <;> exact absurd hchar (by decide)

theorem scheme_ne_nil {name : List Char} (h : isScheme name = true) : name ≠ [] := by
  rintro rfl
  exact absurd h (by decide)

/-- A scheme and a colon in front are recognised. Kind: L -/
theorem hasScheme_append {name : List Char} (h : isScheme name = true) (r : List Char) :
    hasScheme (name ++ ':' :: r) = true ∧ afterScheme (name ++ ':' :: r) = r := by
  have hcolon : ':' ∉ name := fun hmem => of_mem_scheme h hmem (by decide)
  have htake : (name ++ ':' :: r).takeWhile (· ≠ ':') = name := by
    rw [List.takeWhile_append_of_pos, List.takeWhile_cons_of_neg (by decide), List.append_nil]
    intro c hc
    simp only [decide_eq_true_eq]
    rintro rfl
    exact hcolon hc
  have hdrop : (name ++ ':' :: r).dropWhile (· ≠ ':') = ':' :: r := by
    rw [List.dropWhile_append_of_pos, List.dropWhile_cons_of_neg (by decide)]
    intro c hc
    simp only [decide_eq_true_eq]
    rintro rfl
    exact hcolon hc
  have hhead : hasScheme (name ++ ':' :: r) = true := by
    obtain ⟨c, cs, rfl⟩ := List.exists_cons_of_ne_nil (scheme_ne_nil h)
    have hno := of_mem_scheme h List.mem_cons_self
    have hs : '/' ≠ c := by
      rintro rfl
      exact hno (by decide)
    have hb : '\\' ≠ c := by
      rintro rfl
      exact hno (by decide)
    simp only [hasScheme, cut, htake, h]
    simp [List.isPrefixOf, hs, hb]
  exact ⟨hhead, by rw [afterScheme, if_pos hhead, cut, hdrop, List.tail_cons]⟩

/-- What is recognised is a scheme and a colon. Kind: L -/
theorem exists_scheme {t : List Char} (h : hasScheme t = true) :
    ∃ name, isScheme name = true ∧ t = name ++ ':' :: afterScheme t := by
  have hafter : afterScheme t = (cut ':' t).2 := if_pos h
  simp only [hasScheme, Bool.and_eq_true, decide_eq_true_eq] at h
  refine ⟨(cut ':' t).1, h.2, ?_⟩
  rw [hafter]
  simp only [cut]
  have hne : t.dropWhile (· ≠ ':') ≠ [] := by simp_all
  have hhead := List.head_dropWhile_not (· ≠ ':') hne
  simp only [decide_eq_false_iff_not, ne_eq, not_not] at hhead
  calc t = t.takeWhile (· ≠ ':') ++ t.dropWhile (· ≠ ':') := (List.takeWhile_append_dropWhile).symm
    _ = _ := by rw [← List.cons_head_tail hne, hhead, List.tail_cons]

/-! ## The host of the canonical form -/

/-- What the URL has for its authority. Kind: D -/
def authorityText (t : List Char) : List Char := (splitRest (dropSlashes (afterScheme t))).authority

/-- A slash with another one behind it that is encoded. Kind: D -/
def hidesSlash : List Char → Bool
  | '/' :: r => r.head? ≠ some '/' && (beginsWith '/' r || beginsWith '\\' r)
  | _ => false

/-- Nothing in the host is encoded, and no delimiter before it. Kind: D -/
def HostPlain (t : List Char) : Prop :=
  hasEscape (hostText t) = false ∧ Undivided (unquote ((authorityText t).rdropWhile (· ≠ '@')))

theorem unquote_append_of_plain {a : List Char} (h : '%' ∉ a) (s : List Char) : unquote (a ++ s) = a ++ unquote s := by
  induction a with
  | nil => rfl
  | cons c a ih =>
    rw [List.mem_cons, not_or] at h
    rw [List.cons_append, unquote_cons (Ne.symm h.1), ih h.2, List.cons_append]

theorem map_turnSlash_of_not_mem {s : List Char} (h : '\\' ∉ s) : s.map turnSlash = s := by
  have hid : ∀ c ∈ s, turnSlash c = id c := by
    intro c hc
    apply if_neg
    rintro rfl
    exact h hc
  rw [List.map_congr_left hid, List.map_id]

theorem not_mem_map_turnSlash (s : List Char) : '\\' ∉ s.map turnSlash := by grind [turnSlash]

/-- An authority and what it decodes to have one host. Kind: D -/
structure SameHost (a d : List Char) : Prop where
  undivided : Undivided d
  host : d.rtakeWhile (· ≠ '@') = a.rtakeWhile (· ≠ '@')
  kept : d = a ∨ '@' ∈ d

theorem sameHost_unquote {a : List Char} (ha : Undivided a) (hhost : hasEscape (a.rtakeWhile (· ≠ '@')) = false)
    (huser : Undivided (unquote (a.rdropWhile (· ≠ '@')))) : SameHost a (unquote a) := by
  by_cases hat : '@' ∈ a
  · have hne : a.rdropWhile (· ≠ '@') ≠ [] := by simp_all
    have hlast : (a.rdropWhile (· ≠ '@')).getLast hne = '@' := by
      simpa using List.rdropWhile_last_not (· ≠ '@') a hne
    obtain ⟨user, hsplit⟩ : ∃ user, a.rdropWhile (· ≠ '@') = user ++ ['@'] := by
      have happ := List.dropLast_append_getLast hne
      rw [hlast] at happ
      exact ⟨_, happ.symm⟩
    have heq : a = user ++ '@' :: a.rtakeWhile (· ≠ '@') := by grind [List.rdropWhile_append_rtakeWhile]
    have hbreak : ∀ s, Breaks ('@' :: s) := fun s c hc => by
      cases hc
      decide
    have hdecoded : unquote a = unquote user ++ '@' :: a.rtakeWhile (· ≠ '@') := by
      conv_lhs => rw [heq, unquote_append user (hbreak _), unquote_cons (by decide), unquote_of_plain hhost]
    rw [hsplit, unquote_append user (hbreak []), unquote_cons (by decide), unquote_nil] at huser
    have hself : ('@' :: a.rtakeWhile (· ≠ '@')).rtakeWhile (· ≠ '@') = a.rtakeWhile (· ≠ '@') := by
      grind [rtakeWhile_append_of_mem]
    refine ⟨?_, ?_, Or.inr ?_⟩
    · intro c hc
      rw [hdecoded] at hc
      rcases List.mem_append.mp hc with hc | hc
      · exact huser c (List.mem_append_left _ hc)
      · rw [heq] at ha
        exact ha c (List.mem_append_right _ hc)
    · rw [hdecoded, rtakeWhile_append_of_mem List.mem_cons_self, hself]
    · grind
  · have hself : a.rtakeWhile (· ≠ '@') = a := by
      rw [List.rtakeWhile_eq_self_iff]
      intro c hc
      simp only [decide_eq_true_eq]
      rintro rfl
      exact hat hc
    rw [hself] at hhost
    rw [unquote_of_plain hhost]
    exact ⟨ha, rfl, Or.inl rfl⟩

theorem breaks_of_delimited {s : List Char} (h : Delimited s) : Breaks s := by
  intro c hc
  have hd := h c hc
  simp only [isDelimiter, Bool.or_eq_true, decide_eq_true_eq] at hd
  rcases hd with (rfl | rfl) | rfl <;> decide

/-- A text after its scheme and slashes decodes in two parts. Kind: L -/
theorem canonicalText_append {a rest : List Char} (hd : Undivided (unquote a)) (hrest : Delimited rest) :
    canonicalText (a ++ rest) = unquote a ++ canonicalText rest := by
  have hback : '\\' ∉ unquote a := fun h => (hd _ h).2 rfl
  rw [canonicalText, unquote_append a (breaks_of_delimited hrest), List.map_append, map_turnSlash_of_not_mem hback]
  rfl

theorem canonicalText_of_delimited {rest : List Char} (h : Delimited rest) :
    (canonicalText rest).head? = rest.head? := by
  cases rest with
  | nil => rfl
  | cons c rest =>
    have hne : c ≠ '%' := (breaks_of_delimited h c rfl).1
    have hback : c ≠ '\\' := by
      rintro rfl
      exact absurd (h _ rfl) (by decide)
    rw [canonicalText, unquote_cons hne, List.map_cons, turnSlash, if_neg hback, List.head?_cons, List.head?_cons]

/-- No second slash comes up if none is hidden. Kind: L -/
theorem doubleSlash_canonicalText {r : List Char} (hone : doubleSlash ('/' :: r) = false)
    (hhidden : hidesSlash ('/' :: r) = false) : doubleSlash (canonicalText ('/' :: r)) = false := by
  have hhead : r.head? ≠ some '/' := by grind [List.head?_eq_some_iff, doubleSlash]
  simp only [hidesSlash, Bool.and_eq_false_iff, Bool.or_eq_false_iff, decide_eq_false_iff_not, not_not] at hhidden
  obtain ⟨hslash, hbackslash⟩ := hhidden.resolve_left hhead
  have h1 : (unquote r).head? ≠ some '/' := by simp_all [head_unquote]
  have h2 : (unquote r).head? ≠ some '\\' := by simp_all [head_unquote]
  rw [canonicalText, unquote_cons (by decide), List.map_cons]
  cases hr : unquote r with
  | nil => decide
  | cons c cs =>
    rw [hr] at h1 h2
    have hc1 : c ≠ '/' := fun h => h1 (congrArg some h)
    have hc2 : c ≠ '\\' := fun h => h2 (congrArg some h)
    simp [turnSlash, hc2, doubleSlash, List.isPrefixOf, Ne.symm hc1]

theorem doubleSlash_of_head {c : Char} (h1 : c ≠ '/') (h2 : c ≠ '\\') (s : List Char) : doubleSlash (c :: s) = false := by
  simp [doubleSlash, List.isPrefixOf, Ne.symm h1, Ne.symm h2]

theorem eq_of_doubleSlash {r : List Char} (hback : '\\' ∉ r) (h : doubleSlash r = true) : ∃ s, r = '/' :: '/' :: s := by
  simp only [doubleSlash, Bool.or_eq_true, List.isPrefixOf_iff_prefix] at h
  rcases h with ⟨s, rfl⟩ | ⟨s, rfl⟩
  · exact ⟨s, rfl⟩
  · exact absurd List.mem_cons_self hback

theorem canonicalText_doubleSlash (s : List Char) :
    canonicalText ('/' :: '/' :: s) = '/' :: '/' :: canonicalText s := by
  rw [canonicalText, unquote_cons (by decide), unquote_cons (by decide)]
  rfl

theorem dropSlashes_of_not {r : List Char} (h : doubleSlash r = false) : dropSlashes r = r := by
  rw [dropSlashes, h, if_neg Bool.false_ne_true]

/-- After the slashes the canonical form has the decoded authority. Kind: L -/
theorem dropSlashes_canonicalText {r a rest : List Char} (hback : '\\' ∉ r) (hsplit : dropSlashes r = a ++ rest)
    (hrest : Delimited rest) (hsame : SameHost a (unquote a)) (hhidden : hidesSlash r = false) :
    dropSlashes (canonicalText r) = unquote a ++ canonicalText rest := by
  have happ := canonicalText_append hsame.undivided hrest
  rw [← hsplit] at happ
  cases hd : doubleSlash r with
  | true =>
    obtain ⟨s, rfl⟩ := eq_of_doubleSlash hback hd
    have hdrop (s : List Char) : dropSlashes ('/' :: '/' :: s) = s := rfl
    rw [hdrop] at happ
    rw [← happ, canonicalText_doubleSlash, hdrop]
  | false =>
    rw [dropSlashes_of_not hd] at happ hsplit
    suffices hno : doubleSlash (canonicalText r) = false by rw [dropSlashes_of_not hno, happ]
    by_cases hnil : unquote a = []
    · have ha : a = [] := by
        rcases hsame.kept with h | h
        · rw [← h, hnil]
        · rw [hnil] at h
          exact absurd h List.not_mem_nil
      rw [ha, List.nil_append] at hsplit
      subst hsplit
      cases r with
      | nil => decide
      | cons c r =>
        by_cases hc : c = '/'
        · simp_all [doubleSlash_canonicalText]
        · grind [canonicalText_of_delimited, List.head?_eq_some_iff, doubleSlash_of_head]
    · rw [happ]
      exact doubleSlash_append hsame.undivided hnil _

/-- A scheme at the beginning of an authority and of what follows lies within the authority. Kind: L -/
theorem scheme_within {d r name s : List Char} (hr : Delimited r) (hname : isScheme name = true)
    (h : d ++ r = name ++ ':' :: s) : ∃ d', d = name ++ ':' :: d' ∧ s = d' ++ r := by
  rcases List.append_eq_append_iff.mp h with ⟨x, hx, hrx⟩ | ⟨x, hx, hrx⟩
  · -- the delimiter would be the colon or stand in the scheme
    cases x with
    | nil =>
      rw [List.nil_append] at hrx
      exact absurd (hr ':' (by rw [hrx, List.head?_cons]; exact rfl)) (by decide)
    | cons c x =>
      have hd : isDelimiter c = true := hr c (by rw [hrx, List.cons_append, List.head?_cons]; exact rfl)
      have hno := of_mem_scheme hname (hx ▸ List.mem_append_right _ List.mem_cons_self)
      simp only [isDelimiter, Bool.or_eq_true, decide_eq_true_eq] at hd
      rcases hd with (rfl | rfl) | rfl <;> exact absurd (by decide) hno
  · cases x with
    | nil =>
      rw [List.nil_append] at hrx
      exact absurd (hr ':' (by rw [← hrx, List.head?_cons]; exact rfl)) (by decide)
    | cons c x =>
      rw [List.cons_append, List.cons.injEq] at hrx
      exact ⟨x, by rw [hx, hrx.1], hrx.2⟩

theorem hostText_eq (t : List Char) : hostText t = (authorityText t).rtakeWhile (· ≠ '@') := rfl

/-- **The host of the canonical form is that of the URL** where nothing in it is encoded, no delimiter before it, and no
second slash. Kind: P -/
theorem hostText_canonicalText {t : List Char} (hback : '\\' ∉ t) (hplain : HostPlain t)
    (hhidden : hidesSlash (afterScheme t) = false) : hostText (canonicalText t) = hostText t := by
  have hback0 : '\\' ∉ afterScheme t := by grind [afterScheme, List.dropWhile_suffix, List.tail_subset, cut]
  have hback1 : '\\' ∉ dropSlashes (afterScheme t) := by grind [dropSlashes]
  obtain ⟨a, ha⟩ : ∃ a, authorityText t = a := ⟨_, rfl⟩
  have htake : (dropSlashes (afterScheme t)).takeWhile (fun c => !isDelimiter c) = a := by
    rw [← ha]
    exact (authority_splitRest hback1).symm
  obtain ⟨rest, hrest⟩ : ∃ rest, (dropSlashes (afterScheme t)).dropWhile (fun c => !isDelimiter c) = rest := ⟨_, rfl⟩
  have hsplit : dropSlashes (afterScheme t) = a ++ rest := by
    rw [← htake, ← hrest, List.takeWhile_append_dropWhile]
  have hdelim : Delimited rest := by
    intro c hc
    rw [← hrest] at hc
    have hne := List.head?_dropWhile_not (fun c => !isDelimiter c) (dropSlashes (afterScheme t))
    rw [hc] at hne
    simpa using hne
  have hundivided : Undivided a := by
    intro c hc
    refine ⟨?_, ?_⟩
    · rw [← htake] at hc
      simpa using List.mem_takeWhile_imp hc
    · grind
  rw [HostPlain, hostText_eq, ha] at hplain
  have hsame := sameHost_unquote hundivided hplain.1 hplain.2
  have hdrop := dropSlashes_canonicalText hback0 hsplit hdelim hsame hhidden
  have hnone : '\\' ∉ canonicalText rest := not_mem_map_turnSlash _
  have hdelim' : Delimited (canonicalText rest) := fun c hc => hdelim c (by
    rw [← canonicalText_of_delimited hdelim]
    exact hc)
  rw [hostText_eq t, ha, ← hsame.host]
  cases hs : hasScheme t with
  | true =>
    obtain ⟨name, hname, ht⟩ := exists_scheme hs
    have hpercent : '%' ∉ name := fun h => of_mem_scheme hname h (by decide)
    have hslash : '\\' ∉ name := fun h => of_mem_scheme hname h (by decide)
    have hcanon : canonicalText t = name ++ ':' :: canonicalText (afterScheme t) := by
      conv_lhs => rw [ht]
      rw [canonicalText, unquote_append_of_plain hpercent, unquote_cons (by decide), List.map_append,
        map_turnSlash_of_not_mem hslash]
      rfl
    rw [hostText_eq, authorityText, hcanon, (hasScheme_append hname _).2, hdrop,
      authority_append hsame.undivided hdelim' hnone]
  | false =>
    have hafter : afterScheme t = t := by rw [afterScheme, hs, if_neg Bool.false_ne_true]
    rw [hafter] at hdrop hsplit
    cases hs' : hasScheme (canonicalText t) with
    | false =>
      have hafter' : afterScheme (canonicalText t) = canonicalText t := by
        rw [afterScheme, hs', if_neg Bool.false_ne_true]
      rw [hostText_eq, authorityText, hafter', hdrop, authority_append hsame.undivided hdelim' hnone]
    | true =>
      -- what decoding turns into a scheme is a part of the authority
      obtain ⟨name, hname, ht⟩ := exists_scheme hs'
      obtain ⟨c, cs, hc⟩ := List.exists_cons_of_ne_nil (scheme_ne_nil hname)
      have hno := of_mem_scheme hname (hc ▸ List.mem_cons_self)
      have hc1 : c ≠ '/' := by
        rintro rfl
        exact hno (by decide)
      have hc2 : c ≠ '\\' := by
        rintro rfl
        exact hno (by decide)
      have hone : doubleSlash (canonicalText t) = false := by
        rw [ht, hc]
        exact doubleSlash_of_head hc1 hc2 _
      rw [dropSlashes_of_not hone] at hdrop
      obtain ⟨d, hd, hs''⟩ := scheme_within hdelim' hname (hdrop.symm.trans ht)
      have hd' : Undivided d := fun x hx => hsame.undivided x (hd ▸ List.mem_append_right _ (List.mem_cons_of_mem _ hx))
      rcases hsame.kept with hkept | hat
      · -- it was a scheme before
        have ht' : t = name ++ ':' :: (d ++ rest) := by
          have hone' : doubleSlash t = false := by
            by_contra htwo
            obtain ⟨s, rfl⟩ := eq_of_doubleSlash hback (Bool.eq_true_of_not_eq_false htwo)
            rw [canonicalText_doubleSlash, hc, List.cons_append, List.cons.injEq] at ht
            exact hc1 ht.1.symm
          rw [dropSlashes_of_not hone'] at hsplit
          rw [hsplit, ← hkept, hd, List.append_assoc, List.cons_append]
        rw [ht', (hasScheme_append hname _).1] at hs
        exact absurd hs.symm Bool.false_ne_true
      · have hat' : '@' ∈ d := by
          rw [hd, List.mem_append, List.mem_cons] at hat
          rcases hat with h | h | h
          · exact absurd (by decide) (of_mem_scheme hname h)
          · exact absurd h (by decide)
          · exact h
        have hdne : d ≠ [] := List.ne_nil_of_mem hat'
        rw [hostText_eq, authorityText, hs'', dropSlashes_of_not (doubleSlash_append hd' hdne _),
          authority_append hd' hdelim' hnone, hd]
        have hcons : name ++ ':' :: d = (name ++ [':']) ++ d := by simp
        rw [hcons, rtakeWhile_append_of_mem hat']

/-! ## Local paths -/

/-- A path on the own host. Kind: D -/
structure LocalPath (p : ParsedURL) : Prop where
  hostname : p.hostname = ""
  relative : p.isAbsolute = false
  notSchemeRelative : p.isSchemeRelative = false
  path : startsWith "/" p.path = true

theorem stripList_cons {c : Char} (h : isSpace c = false) (s : List Char) : ∃ r, stripList (c :: s) = c :: r ∧ r <+: s := by
  have hdrop : (c :: s).dropWhile isSpace = c :: s := List.dropWhile_cons_of_neg (by simpa using h)
  have hpre : stripList (c :: s) <+: c :: s := by
    have := List.rdropWhile_prefix isSpace (c :: s)
    rw [List.rdropWhile] at this
    rwa [stripList, hdrop]
  cases hr : stripList (c :: s) with
  | nil =>
    -- the first character is no space
    have hall : ∀ x ∈ c :: s, isSpace x = true := by simp_all [stripList]
    exact absurd (hall c List.mem_cons_self) (by simp [h])
  | cons x r =>
    rw [hr, List.cons_prefix_cons] at hpre
    exact ⟨r, by rw [hpre.1], hpre.2⟩

namespace UrlRuntime

variable {rt : UrlRuntime}

/-- The empty host is read as such. Kind: L -/
theorem readHost_nil (rt : UrlRuntime) : rt.readHost [] = some ⟨[], none, []⟩ := by
  have hno : hasSub "xn--".toList ([] : List Char) = false := by decide
  have hport : rt.splitPort [] = some ([], none) := by simp [splitPort]
  have hidna : rt.readIdna [] = ([], []) := by rw [readIdna, rt.lower_nil, hno, if_neg Bool.false_ne_true]
  have hdots : trimDots [] = ([], []) := by simp [trimDots]
  simp only [readHost, hport, Option.map_some, hdots, hidna, rt.lower_nil, List.append_nil]

/-- What a parse says of scheme and path. Kind: L -/
theorem parts_parseUrl {value : String} {p : ParsedURL} (h : rt.parseUrl value = some p) :
    p.isSchemeRelative = doubleSlash (stripList value.toList) ∧
      (hasScheme (stripList value.toList) = false → p.isAbsolute = doubleSlash (stripList value.toList)) ∧
      p.path = String.ofList (splitRest (dropSlashes (afterScheme (stripList value.toList)))).path := by
  unfold parseUrl at h
  obtain ⟨host, -, hp⟩ := Option.map_eq_some_iff.mp h
  subst hp
  refine ⟨rfl, fun hno => ?_, rfl⟩
  simp [hno]

/-- A URL with one slash in front is a local path. Kind: L -/
theorem parseUrl_local (rt : UrlRuntime) {value : String} {r : List Char} (h : stripList value.toList = '/' :: r)
    (hone : doubleSlash ('/' :: r) = false) : ∃ p, rt.parseUrl value = some p ∧ LocalPath p := by
  have hscheme : hasScheme ('/' :: r) = false := by simp [hasScheme, List.isPrefixOf]
  have hrest : dropSlashes (afterScheme ('/' :: r)) = '/' :: r := by
    rw [afterScheme, hscheme, if_neg Bool.false_ne_true, dropSlashes_of_not hone]
  obtain ⟨x, hx⟩ : ∃ x, (cut '?' (cut '#' ('/' :: r)).1).1 = '/' :: x := by
    simp only [cut]
    rw [List.takeWhile_cons_of_pos (by decide), List.takeWhile_cons_of_pos (by decide)]
    exact ⟨_, rfl⟩
  have hsplit : splitAuthority ('/' :: x) = ([], '/' :: x) := by
    rw [splitAuthority, if_pos List.mem_cons_self, cut, List.takeWhile_cons_of_neg (by decide),
      List.dropWhile_cons_of_neg (by decide), List.tail_cons]
  have hauthority : (splitRest ('/' :: r)).authority = [] := by simp only [splitRest, hx, hsplit]
  have hpath : (splitRest ('/' :: r)).path = '/' :: x := by simp only [splitRest, hx, hsplit]
  have hhost : hostText (stripList value.toList) = [] := by
    rw [hostText_eq, authorityText, h, hrest, hauthority, List.rtakeWhile_nil]
  have hmap := hostname_parseUrl rt value
  rw [hhost, readHost_nil] at hmap
  obtain ⟨p, hp, hname⟩ := Option.map_eq_some_iff.mp hmap
  obtain ⟨hrel, habs, hpp⟩ := parts_parseUrl hp
  rw [h] at hrel habs hpp
  rw [hrest, hpath] at hpp
  refine ⟨p, hp, ?_, (habs hscheme).trans hone, hrel.trans hone, ?_⟩
  · exact hname
  · simp [startsWith, hpp, List.isPrefixOf]

end UrlRuntime

/-! ## The verdicts -/

/-- What is let pass is let pass in canonical form too, and the canonical form is its own. Kind: D -/
structure Agrees (rt : UrlRuntime) (raw : String) : Prop where
  allowlist : ∀ ctx ev, ctx.rawUrl = raw → ctx.isUserControlled = true → ctx.isHostAllowlisted = false →
    rt.evaluateUrlSecurity ctx = some ev → ev.resolution = "SAFE" → ev.validation.result = "SAFE_ALLOWLIST" →
    ∃ q, rt.parseUrl (canonicalizeUrl raw) = some q ∧ q.hostname ∈ ctx.allowedHosts
  relativePath : ∀ ctx ev, ctx.rawUrl = raw → ctx.isUserControlled = true → ctx.isHostAllowlisted = false →
    rt.evaluateUrlSecurity ctx = some ev → ev.resolution = "SAFE" → ev.validation.result = "SAFE_RELATIVE_PATH" →
    ∃ q, rt.parseUrl (canonicalizeUrl raw) = some q ∧ LocalPath q
  idempotent : canonicalizeUrl (canonicalizeUrl raw) = canonicalizeUrl raw

/-- Decoding once leaves nothing to decode or to strip, and moves neither the host nor the beginning of the path. A URL
with a backslash is turned away before. Kind: D -/
structure Keeps (raw : String) : Prop where
  settled : Settled raw
  host : '\\' ∈ raw.toList ∨ HostPlain (stripList raw.toList)
  path : '\\' ∈ raw.toList ∨ hidesSlash (afterScheme (stripList raw.toList)) = false

theorem stripList_subset (s : List Char) : stripList s ⊆ s := by
  obtain ⟨a, b, h, -⟩ := exists_stripList s
  intro c hc
  rw [h]
  exact List.mem_append_left _ (List.mem_append_right _ hc)

theorem stripList_canonicalizeUrl {raw : String} (h : Settled raw) :
    stripList (canonicalizeUrl raw).toList = canonicalText (stripList raw.toList) := by
  rw [canonicalizeUrl_eq, String.toList_ofList, canonicalText, stripList_map_turnSlash, h.2]

/-- What begins with one slash does so stripped. Kind: L -/
theorem strip_of_slash {raw : String} (hone : startsWith "/" raw = true) (hno : startsWith "//" raw = false)
    (hback : '\\' ∉ raw.toList) : ∃ r, stripList raw.toList = '/' :: r ∧ doubleSlash ('/' :: r) = false := by
  simp only [startsWith, List.isPrefixOf_iff_prefix] at hone
  obtain ⟨s, hs⟩ := hone
  have hraw : raw.toList = '/' :: s := hs.symm
  obtain ⟨r, hr, hpre⟩ := stripList_cons (show isSpace '/' = false by decide) s
  refine ⟨r, by rw [hraw, hr], ?_⟩
  by_contra htwo
  have hback' : '\\' ∉ '/' :: r := fun h => hback (by rw [hraw]; exact stripList_subset _ (hr ▸ h))
  obtain ⟨u, hu⟩ := eq_of_doubleSlash hback' (Bool.eq_true_of_not_eq_false htwo)
  rw [List.cons.injEq] at hu
  obtain ⟨v, rfl⟩ := hpre
  rw [startsWith, hraw, hu.2] at hno
  exact absurd hno (by simp [List.isPrefixOf])

theorem canonicalText_slash (r : List Char) : canonicalText ('/' :: r) = '/' :: canonicalText r := by
  rw [canonicalText, unquote_cons (by decide)]
  rfl

theorem afterScheme_slash (r : List Char) : afterScheme ('/' :: r) = '/' :: r := by simp [hasScheme, afterScheme]

/-- A hidden slash comes up. Kind: L -/
theorem doubleSlash_of_hidesSlash {r : List Char} (h : hidesSlash ('/' :: r) = true) :
    doubleSlash (canonicalText ('/' :: r)) = true := by
  simp only [hidesSlash, Bool.and_eq_true, Bool.or_eq_true] at h
  have hhead : ∃ c cs, unquote r = c :: cs ∧ turnSlash c = '/' := by
    rcases h.2 with h | h
    · rw [← head_unquote (by decide) (by decide) (by decide)] at h
      obtain ⟨cs, hcs⟩ := List.head?_eq_some_iff.mp h
      exact ⟨_, cs, hcs, by decide⟩
    · rw [← head_unquote (by decide) (by decide) (by decide)] at h
      obtain ⟨cs, hcs⟩ := List.head?_eq_some_iff.mp h
      exact ⟨_, cs, hcs, by decide⟩
  obtain ⟨c, cs, hcs, hc⟩ := hhead
  rw [canonicalText_slash, canonicalText, hcs, List.map_cons, hc]
  simp [doubleSlash, List.isPrefixOf]

/-- What hides a slash does not begin with two. Kind: L -/
theorem not_doubled_of_hidesSlash {raw : String} (hone : startsWith "/" raw = true)
    (h : hidesSlash (stripList raw.toList) = true) : startsWith "//" raw = false := by
  simp only [startsWith, List.isPrefixOf_iff_prefix] at hone
  obtain ⟨s, hs⟩ := hone
  have hraw : raw.toList = '/' :: s := hs.symm
  obtain ⟨r, hr, hpre⟩ := stripList_cons (show isSpace '/' = false by decide) s
  rw [hraw, hr] at h
  simp only [hidesSlash, Bool.and_eq_true, Bool.or_eq_true, decide_eq_true_eq] at h
  obtain ⟨hhead, hbegins⟩ := h
  cases r with
  | nil => exact absurd hbegins (by decide)
  | cons c r =>
    obtain ⟨u, rfl⟩ := hpre
    have hc : '/' ≠ c := fun heq => hhead (by rw [← heq]; rfl)
    rw [startsWith, hraw]
    simp [List.isPrefixOf, hc]

/-- A context that lets local paths pass. Kind: D -/
def pathContext (raw : String) : URLSecurityContext where
  sourceKind := "HTTP_REQUEST"
  sourceSymbol := "url"
  rawUrl := raw
  sanitizerType := some "relative_path_only"

theorem evaluate_pathContext {rt : UrlRuntime} {raw : String} {p q : ParsedURL} (hp : rt.parseUrl raw = some p)
    (hq : rt.parseUrl (canonicalizeUrl raw) = some q) (hone : startsWith "/" raw = true)
    (htwo : startsWith "//" raw = false) (hback : '\\' ∉ raw.toList) :
    ∃ ev, rt.evaluateUrlSecurity (pathContext raw) = some ev ∧ ev.resolution = "SAFE" ∧
      ev.validation.result = "SAFE_RELATIVE_PATH" := by
  have hsem : ∃ sem, rt.evaluateMultiParserSemantics raw = some sem := by
    rw [UrlRuntime.evaluateMultiParserSemantics, hp, hq]
    exact ⟨_, rfl⟩
  obtain ⟨sem, hsem⟩ := hsem
  refine ⟨(pathContext raw).evidence p .openRedirect ⟨true, none, "SAFE_RELATIVE_PATH"⟩ false "NONE"
    ["relative_path_validator"] "SAFE", ?_, rfl, rfl⟩
  have hchecked : (pathContext raw).checked p = (pathContext raw).evidence p .openRedirect
      ⟨true, none, "SAFE_RELATIVE_PATH"⟩ false "NONE" ["relative_path_validator"] "SAFE" := by
    simp [URLSecurityContext.checked, pathContext, hone, htwo, hback]
  have heval : rt.evaluateUrlSecurity (pathContext raw) = some ((pathContext raw).checked p) := by
    simp_all [pathContext, UrlRuntime.evaluateUrlSecurity]
  rw [heval, hchecked]

/-- **A URL that keeps its host and its beginning when it is decoded has one verdict.** Conversely the canonical form
has to be its own, and no path that hides a second slash may be read at all. Kind: P -/
theorem safe_verdicts_agree (rt : UrlRuntime) (raw : String) :
    (Keeps raw → Agrees rt raw) ∧
      (Agrees rt raw → Settled raw ∧ (startsWith "/" raw = true → '\\' ∉ raw.toList →
        hidesSlash (stripList raw.toList) = true → rt.parseUrl (canonicalizeUrl raw) = none)) := by
  refine ⟨fun h => ⟨?_, ?_, (canonicalize_idem_iff raw).mpr h.settled⟩, fun h => ⟨(canonicalize_idem_iff raw).mp h.idempotent, ?_⟩⟩
  · rintro ctx ev rfl huser hno hev hsafe hresult
    obtain ⟨p, q, hp, hq, rfl⟩ := rt.eq_checked hev (by rw [hresult]; decide) hsafe
    obtain ⟨hback, ⟨-, hmem⟩ | ⟨hother, -⟩⟩ := checked_safe hno hsafe
    · have hback' : '\\' ∉ stripList ctx.rawUrl.toList := fun hin => hback (stripList_subset _ hin)
      have hhost := hostText_canonicalText hback' (h.host.resolve_left hback) (h.path.resolve_left hback)
      rw [← stripList_canonicalizeUrl h.settled] at hhost
      exact ⟨q, hq, UrlRuntime.hostname_eq_of_hostText hq hp hhost ▸ hmem⟩
    · rw [hresult] at hother
      exact absurd hother (by decide)
  · rintro ctx ev rfl huser hno hev hsafe hresult
    obtain ⟨p, q, hp, hq, rfl⟩ := rt.eq_checked hev (by rw [hresult]; decide) hsafe
    obtain ⟨hback, ⟨hother, -⟩ | ⟨-, hone, htwo⟩⟩ := checked_safe hno hsafe
    · rw [hresult] at hother
      exact absurd hother (by decide)
    · obtain ⟨r, hr, hsingle⟩ := strip_of_slash hone htwo hback
      have hhidden := h.path.resolve_left hback
      rw [hr, afterScheme_slash] at hhidden
      have hcanon := doubleSlash_canonicalText hsingle hhidden
      have hstrip := stripList_canonicalizeUrl h.settled
      rw [hr, canonicalText_slash] at hstrip
      rw [canonicalText_slash] at hcanon
      exact UrlRuntime.parseUrl_local rt hstrip hcanon
  · intro hone hback hhidden
    by_contra hsome
    obtain ⟨q, hq⟩ := Option.ne_none_iff_exists'.mp hsome
    have htwo : startsWith "//" raw = false := not_doubled_of_hidesSlash hone hhidden
    obtain ⟨r, hr, hsingle⟩ := strip_of_slash hone htwo hback
    obtain ⟨p, hp, -⟩ := UrlRuntime.parseUrl_local rt hr hsingle
    obtain ⟨ev, hev, hsafe, hresult⟩ := evaluate_pathContext hp hq hone htwo hback
    obtain ⟨q', hq', hlocal⟩ := h.relativePath _ ev rfl rfl rfl hev hsafe hresult
    have hrel := (UrlRuntime.parts_parseUrl hq').1
    rw [stripList_canonicalizeUrl ((canonicalize_idem_iff raw).mp h.idempotent), hr,
      doubleSlash_of_hidesSlash (hr ▸ hhidden), hlocal.notSchemeRelative] at hrel
    exact Bool.false_ne_true hrel

/-- An encoded user name in front of the host does no harm. Kind: P -/
theorem safe_verdicts_agree_encoded_user : Keeps "https://a%62@trusted.com/x" ∧
    Agrees asciiRuntime "https://a%62@trusted.com/x" := by
  have hkeeps : Keeps "https://a%62@trusted.com/x" := by
    refine ⟨⟨by decide +kernel, by decide +kernel⟩, Or.inr ⟨by decide +kernel, ?_⟩, Or.inr (by decide +kernel)⟩
    have huser : unquote ((authorityText (stripList "https://a%62@trusted.com/x".toList)).rdropWhile (· ≠ '@')) =
        ['a', 'b', '@'] := by decide +kernel
    rw [huser]
    intro c hc
    simp only [List.mem_cons, List.not_mem_nil, or_false] at hc
    rcases hc with rfl | rfl | rfl <;> decide
  exact ⟨hkeeps, (safe_verdicts_agree asciiRuntime "https://a%62@trusted.com/x").1 hkeeps⟩

/-- The context of a host that is let pass. Kind: D -/
def hostContext : URLSecurityContext where
  sourceKind := "HTTP_REQUEST"
  sourceSymbol := "url"
  rawUrl := "https://evil.com%2F@trusted.com"
  allowedHosts := ["trusted.com"]
  canonicalizedBeforeValidation := some true

/-- **A host and a path are let pass that lead elsewhere, and decoding goes on.** Kind: P -/
theorem safe_verdicts_differ :
    ((asciiRuntime.evaluateUrlSecurity hostContext).map fun ev => (ev.resolution, ev.validation.result)) =
        some ("SAFE", "SAFE_ALLOWLIST") ∧
      ((asciiRuntime.parseUrl (canonicalizeUrl hostContext.rawUrl)).map ParsedURL.hostname) = some "evil.com" ∧
      ((asciiRuntime.evaluateUrlSecurity (pathContext "/%2Fevil.com")).map fun ev =>
        (ev.resolution, ev.validation.result)) = some ("SAFE", "SAFE_RELATIVE_PATH") ∧
      ((asciiRuntime.parseUrl (canonicalizeUrl "/%2Fevil.com")).map fun q => (q.hostname, q.isSchemeRelative)) =
        some ("evil.com", true) ∧
      canonicalizeUrl "%2525" = "%25" ∧ canonicalizeUrl "%25" = "%" ∧
      ¬Agrees asciiRuntime "https://evil.com%2F@trusted.com" ∧ ¬Agrees asciiRuntime "/%2Fevil.com" ∧
      ¬Agrees asciiRuntime "%2525" := by
  have hhost : ((asciiRuntime.evaluateUrlSecurity hostContext).map fun ev => (ev.resolution, ev.validation.result)) =
      some ("SAFE", "SAFE_ALLOWLIST") := by decide +kernel
  have hhost' : ((asciiRuntime.parseUrl (canonicalizeUrl hostContext.rawUrl)).map ParsedURL.hostname) =
      some "evil.com" := by decide +kernel
  have hpath : ((asciiRuntime.evaluateUrlSecurity (pathContext "/%2Fevil.com")).map fun ev =>
      (ev.resolution, ev.validation.result)) = some ("SAFE", "SAFE_RELATIVE_PATH") := by decide +kernel
  have hpath' : ((asciiRuntime.parseUrl (canonicalizeUrl "/%2Fevil.com")).map fun q =>
      (q.hostname, q.isSchemeRelative)) = some ("evil.com", true) := by decide +kernel
  have htwice : canonicalizeUrl "%2525" = "%25" ∧ canonicalizeUrl "%25" = "%" := by decide +kernel
  refine ⟨hhost, hhost', hpath, hpath', htwice.1, htwice.2, fun h => ?_, fun h => ?_, fun h => ?_⟩
  · obtain ⟨ev, hev, hpair⟩ := Option.map_eq_some_iff.mp hhost
    rw [Prod.mk.injEq] at hpair
    obtain ⟨q, hq, hmem⟩ := h.allowlist hostContext ev rfl rfl rfl hev hpair.1 hpair.2
    rw [show hostContext.rawUrl = "https://evil.com%2F@trusted.com" from rfl, hq, Option.map_some,
      Option.some.injEq] at hhost'
    rw [hhost'] at hmem
    exact absurd hmem (by decide)
  · obtain ⟨ev, hev, hpair⟩ := Option.map_eq_some_iff.mp hpath
    rw [Prod.mk.injEq] at hpair
    obtain ⟨q, hq, hlocal⟩ := h.relativePath (pathContext "/%2Fevil.com") ev rfl rfl rfl hev hpair.1 hpair.2
    rw [hq, Option.map_some, Option.some.injEq, Prod.mk.injEq, hlocal.notSchemeRelative] at hpath'
    exact Bool.false_ne_true hpath'.2
  · have hidem := h.idempotent
    rw [htwice.1, htwice.2] at hidem
    exact absurd hidem (by decide)

end KarsaSec.Analysis
