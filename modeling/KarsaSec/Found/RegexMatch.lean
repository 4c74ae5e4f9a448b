import KarsaSec.Found.Regex

/-!
# What a pattern matches

The ways in which the matcher of `KarsaSec.Found.Regex` goes through a text, by membership.

* `mem_seq`, `mem_eat`, `mem_group`: one operator each.
* `mem_starFrom_eat`: a repetition of single characters reads any run of them.
* `searchFrom_eq_none`, `of_searchFrom`, `searchFrom_append`: what `re.search` finds is the first such way.
-/

namespace KarsaSec.Found.Regex

variable {t : CharTable} {flags : Flags} {r s : Regex} {p q : Pos}

/-- The position behind a text that was read. Kind: D -/
def Pos.after (p : Pos) (text rest : List Char) : Pos where
  prev := text.getLast?.or p.prev
  rest := rest
  caps := p.caps

@[simp] theorem Pos.after_nil (p : Pos) : p.after [] p.rest = p := rfl

theorem Pos.after_cons (p : Pos) (c : Char) (text rest rest' : List Char) :
    p.after (c :: text) rest = (⟨some c, rest', p.caps⟩ : Pos).after text rest := by
  unfold Pos.after
  rw [List.getLast?_cons]
  cases text.getLast? <;> rfl

@[simp] theorem mem_eps : q ∈ matchesAt t flags eps p ↔ q = p := List.mem_singleton

theorem mem_seq : q ∈ matchesAt t flags (seq r s) p ↔ ∃ m ∈ matchesAt t flags r p, q ∈ matchesAt t flags s m :=
  List.mem_flatMap

/-- One character is read. Kind: L -/
theorem mem_eat {ok : Char → Bool} : q ∈ p.eat ok ↔ ∃ c rest, p.rest = c :: rest ∧ ok c = true ∧ q = ⟨some c, rest, p.caps⟩ := by
  unfold Pos.eat
  split
  · next h => simp [h]
  · next c rest h =>
      rw [List.mem_ite_nil_right, List.mem_singleton]
      constructor
      · simp_all
      · simp_all

theorem mem_cls {neg : Bool} {items : List ClassItem} : q ∈ matchesAt t flags (cls neg items) p ↔
    ∃ c rest, p.rest = c :: rest ∧ ((items.any fun i => i.has t flags c) != neg) = true ∧ q = ⟨some c, rest, p.caps⟩ :=
  mem_eat

theorem mem_group {n : ℕ} : q ∈ matchesAt t flags (group n r) p ↔
    ∃ m ∈ matchesAt t flags r p, { m with caps := (n, p.upTo m) :: m.caps } = q :=
  List.mem_map

/-- A run of characters, by induction on the bound. Kind: L -/
theorem mem_starFrom_eat {ok : Char → Bool} {m : Pos → List Pos} {caps : List (ℕ × List Char)}
    (hm : ∀ p, p.caps = caps → m p = p.eat ok) (greedy : Bool) : (n : ℕ) → (p q : Pos) → p.caps = caps → p.rest.length ≤ n →
      (q ∈ starFrom m greedy n p ↔ ∃ text, p.rest = text ++ q.rest ∧ (∀ c ∈ text, ok c = true) ∧ q = p.after text q.rest)
  | 0, p, q, _, hlen => by
    rw [starFrom, List.mem_singleton]
    have hrest : p.rest = [] := List.eq_nil_of_length_eq_zero (Nat.le_zero.mp hlen)
    constructor
    · rintro rfl
      exact ⟨[], rfl, by simp, rfl⟩
    · rintro ⟨text, htext, -, heq⟩
      obtain ⟨rfl, hq⟩ := List.append_eq_nil_iff.mp (htext.symm.trans hrest)
      rw [heq, hq]
      exact congrArg (p.after []) hrest.symm
  | n + 1, p, q, hcaps, hlen => by
    have hmem : q ∈ starFrom m greedy (n + 1) p ↔
        q ∈ ((m p).filter fun q => q.rest.length < p.rest.length).flatMap (starFrom m greedy n) ∨ q = p := by
      rw [starFrom]
      cases greedy <;> simp [or_comm]
    rw [hmem, hm p hcaps, List.mem_flatMap]
    constructor
    · rintro (⟨m', hm', hq⟩ | rfl)
      · obtain ⟨c, rest, hrest, hok, rfl⟩ := mem_eat.mp (List.mem_filter.mp hm').1
        have hshort : rest.length ≤ n := by
          rw [hrest, List.length_cons] at hlen
          omega
        obtain ⟨text, htext, hall, hq⟩ := (mem_starFrom_eat hm greedy n ⟨some c, rest, p.caps⟩ q hcaps hshort).mp hq
        refine ⟨c :: text, by rw [hrest]; exact congrArg (c :: ·) htext, List.forall_mem_cons.mpr ⟨hok, hall⟩, ?_⟩
        exact hq.trans (p.after_cons c text q.rest rest).symm
      · exact ⟨[], rfl, by simp, rfl⟩
    · rintro ⟨text, htext, hall, hq⟩
      cases text with
      | nil =>
        right
        rw [hq, ← List.nil_append q.rest, ← htext, Pos.after_nil]
      | cons c text =>
        left
        obtain ⟨hok, hall⟩ := List.forall_mem_cons.mp hall
        have hshort : (text ++ q.rest).length ≤ n := by grind
        refine ⟨⟨some c, text ++ q.rest, p.caps⟩, List.mem_filter.mpr ⟨mem_eat.mpr ⟨c, _, htext, hok, rfl⟩, ?_⟩, ?_⟩
        · rw [htext]
          simp
        · refine (mem_starFrom_eat hm greedy n ⟨some c, text ++ q.rest, p.caps⟩ q hcaps hshort).mpr ⟨text, rfl, hall, ?_⟩
          exact hq.trans (p.after_cons c text q.rest _)

/-- A repetition of single characters. Kind: L -/
theorem mem_star_cls {greedy neg : Bool} {items : List ClassItem} : q ∈ matchesAt t flags (star greedy (cls neg items)) p ↔
    ∃ text, p.rest = text ++ q.rest ∧ (∀ c ∈ text, ((items.any fun i => i.has t flags c) != neg) = true) ∧
      q = p.after text q.rest :=
  mem_starFrom_eat (fun _ _ => rfl) greedy _ p q rfl le_rfl

/-- One character and more. Kind: L -/
theorem mem_atLeast_one {greedy neg : Bool} {items : List ClassItem} : q ∈ matchesAt t flags (atLeast greedy (cls neg items) 1) p ↔
    ∃ text, text ≠ [] ∧ p.rest = text ++ q.rest ∧ (∀ c ∈ text, ((items.any fun i => i.has t flags c) != neg) = true) ∧
      q = p.after text q.rest := by
  rw [atLeast, atLeast, mem_seq]
  constructor
  · rintro ⟨m, hm, hq⟩
    obtain ⟨c, rest, hrest, hc, rfl⟩ := mem_cls.mp hm
    obtain ⟨text, htext, hall, hq⟩ := mem_star_cls.mp hq
    refine ⟨c :: text, List.cons_ne_nil _ _, ?_, List.forall_mem_cons.mpr ⟨hc, hall⟩, ?_⟩
    · rw [hrest]
      exact congrArg (c :: ·) htext
    · exact hq.trans (p.after_cons c text q.rest rest).symm
  · rintro ⟨text, hne, htext, hall, hq⟩
    cases text with
    | nil => exact absurd rfl hne
    | cons c text =>
      obtain ⟨hc, hall⟩ := List.forall_mem_cons.mp hall
      refine ⟨⟨some c, text ++ q.rest, p.caps⟩, mem_cls.mpr ⟨c, _, htext, hc, rfl⟩, mem_star_cls.mpr ⟨text, rfl, hall, ?_⟩⟩
      exact hq.trans (p.after_cons c text q.rest _)

/-- A given character. Kind: L -/
theorem mem_char {c : Char} (hcase : flags.ignoreCase = false) : q ∈ matchesAt t flags (char c) p ↔
    p.rest = c :: q.rest ∧ q = ⟨some c, q.rest, p.caps⟩ := by
  rw [char, mem_cls]
  constructor
  · rintro ⟨d, rest, hrest, hd, rfl⟩
    obtain rfl : d = c := by
      simp only [List.any_cons, List.any_nil, Bool.or_false, ClassItem.has, hcase, Bool.false_and, bne_iff_ne, ne_eq,
        Bool.not_eq_false, Bool.and_eq_true, decide_eq_true_eq] at hd
      exact Char.toNat_inj.mp (le_antisymm hd.2 hd.1)
    exact ⟨hrest, rfl⟩
  · grind [ClassItem.has]

/-! ## Sequences -/

@[simp] theorem Pos.rest_after (p : Pos) (text rest : List Char) : (p.after text rest).rest = rest := rfl

@[simp] theorem Pos.caps_after (p : Pos) (text rest : List Char) : (p.after text rest).caps = p.caps := rfl

theorem Pos.after_after (p : Pos) (a b x y : List Char) : (p.after a x).after b y = p.after (a ++ b) y := by
  unfold Pos.after
  rw [List.getLast?_append]
  cases b.getLast? <;> rfl

/-- The text up to a position behind it. Kind: L -/
theorem Pos.upTo_after {p : Pos} {text rest : List Char} (h : p.rest = text ++ rest) : p.upTo (p.after text rest) = text := by
  simp_all [Pos.upTo]

/-- A run of characters, and what follows. Kind: L -/
theorem mem_seq_star {greedy neg : Bool} {items : List ClassItem} :
    q ∈ matchesAt t flags (seq (star greedy (cls neg items)) r) p ↔ ∃ text rest, p.rest = text ++ rest ∧
      (∀ c ∈ text, ((items.any fun i => i.has t flags c) != neg) = true) ∧ q ∈ matchesAt t flags r (p.after text rest) := by
  rw [mem_seq]
  constructor
  · grind [mem_star_cls]
  · rintro ⟨text, rest, htext, hall, hq⟩
    exact ⟨_, mem_star_cls.mpr ⟨text, htext, hall, rfl⟩, hq⟩

/-- A character, and what follows. Kind: L -/
theorem mem_seq_cls {neg : Bool} {items : List ClassItem} :
    q ∈ matchesAt t flags (seq (cls neg items) r) p ↔ ∃ c rest, p.rest = c :: rest ∧
      ((items.any fun i => i.has t flags c) != neg) = true ∧ q ∈ matchesAt t flags r (p.after [c] rest) := by
  rw [mem_seq]
  constructor
  · rintro ⟨m, hm, hq⟩
    obtain ⟨c, rest, hrest, hc, rfl⟩ := mem_cls.mp hm
    exact ⟨c, rest, hrest, hc, hq⟩
  · rintro ⟨c, rest, hrest, hc, hq⟩
    exact ⟨_, mem_cls.mpr ⟨c, rest, hrest, hc, rfl⟩, hq⟩

/-- A given character, and what follows. Kind: L -/
theorem mem_seq_char {c : Char} (hcase : flags.ignoreCase = false) :
    q ∈ matchesAt t flags (seq (char c) r) p ↔ ∃ rest, p.rest = c :: rest ∧ q ∈ matchesAt t flags r (p.after [c] rest) := by
  rw [mem_seq]
  constructor
  · rintro ⟨m, hm, hq⟩
    obtain ⟨hrest, hm⟩ := (mem_char hcase).mp hm
    exact ⟨m.rest, hrest, hm ▸ hq⟩
  · rintro ⟨rest, hrest, hq⟩
    exact ⟨_, (mem_char hcase).mpr ⟨hrest, rfl⟩, hq⟩

/-- A group, and what follows. Kind: L -/
theorem mem_seq_group {n : ℕ} : q ∈ matchesAt t flags (seq (group n s) r) p ↔
    ∃ m ∈ matchesAt t flags s p, q ∈ matchesAt t flags r { m with caps := (n, p.upTo m) :: m.caps } := by
  rw [mem_seq]
  constructor
  · simp [mem_group]
  · simp [mem_group]

/-- The edge of a word. Kind: L -/
theorem mem_boundary : q ∈ matchesAt t flags boundary p ↔
    ((p.prev.map t.isWord).getD false != (p.rest.head?.map t.isWord).getD false) = true ∧ q = p := by
  unfold matchesAt
  rw [List.mem_ite_nil_right, List.mem_singleton]

/-! ## Searches -/

/-- The position behind the beginning of a text. Kind: D -/
def behind (prev : Option Char) (a b : List Char) : Pos := ⟨a.getLast?.or prev, b, []⟩

theorem behind_cons (prev : Option Char) (c : Char) (a b : List Char) : behind prev (c :: a) b = behind (some c) a b := by
  unfold behind
  rw [List.getLast?_cons]
  cases a.getLast? <;> rfl

/-- Nothing is found if there is no way to match anywhere. Kind: L -/
theorem searchFrom_eq_none : {prev : Option Char} → {s : List Char} →
    (searchFrom t flags r prev s = none ↔ ∀ a b, s = a ++ b → matchesAt t flags r (behind prev a b) = [])
  | prev, [] => by
    rw [searchFrom, firstAt, Option.map_eq_none_iff, List.head?_eq_none_iff]
    constructor
    · intro h a b hab
      obtain ⟨rfl, rfl⟩ := List.append_eq_nil_iff.mp hab.symm
      exact h
    · exact fun h => h [] [] rfl
  | prev, c :: s => by
    have ih : searchFrom t flags r (some c) s = none ↔
        ∀ a b, s = a ++ b → matchesAt t flags r (behind (some c) a b) = [] := searchFrom_eq_none
    rw [searchFrom]
    constructor
    · intro h a b hab
      split at h
      · cases h
      · next hfirst =>
          rw [Option.map_eq_none_iff] at h
          rcases List.cons_eq_append_iff.mp hab with ⟨rfl, rfl⟩ | ⟨a', rfl, rfl⟩
          · rw [firstAt, Option.map_eq_none_iff, List.head?_eq_none_iff] at hfirst
            exact hfirst
          · rw [behind_cons]
            exact ih.mp h a' b rfl
    · intro h
      have hfirst : firstAt t flags r prev (c :: s) = none := by
        rw [firstAt, Option.map_eq_none_iff, List.head?_eq_none_iff]
        exact h [] (c :: s) rfl
      rw [hfirst]
      dsimp only
      rw [Option.map_eq_none_iff]
      refine ih.mpr fun a b hab => ?_
      rw [← behind_cons]
      exact h (c :: a) b (congrArg (c :: ·) hab)

/-- What is found is a way to match at the first position where there is one. Kind: L -/
theorem of_searchFrom {m : Match} : {prev : Option Char} → {s : List Char} → searchFrom t flags r prev s = some m →
    ∃ b q, s = m.before ++ b ∧ q ∈ matchesAt t flags r (behind prev m.before b) ∧ m.caps = q.caps ∧ m.after = q.rest ∧
      ∀ a' b', s = a' ++ b' → a'.length < m.before.length → matchesAt t flags r (behind prev a' b') = []
  | prev, [], h => by
    rw [searchFrom, firstAt] at h
    obtain ⟨q, hq, rfl⟩ := Option.map_eq_some_iff.mp h
    exact ⟨[], q, rfl, List.mem_of_head? hq, rfl, rfl, fun a' b' _ hlt => absurd hlt (Nat.not_lt_zero _)⟩
  | prev, c :: s, h => by
    rw [searchFrom] at h
    split at h
    · next m' hfirst =>
        obtain rfl := Option.some.inj h
        rw [firstAt] at hfirst
        obtain ⟨q, hq, rfl⟩ := Option.map_eq_some_iff.mp hfirst
        exact ⟨c :: s, q, rfl, List.mem_of_head? hq, rfl, rfl, fun a' b' _ hlt => absurd hlt (Nat.not_lt_zero _)⟩
    · next hfirst =>
        obtain ⟨m', hm', rfl⟩ := Option.map_eq_some_iff.mp h
        obtain ⟨b, q, hs, hq, hcaps, hafter, hnone⟩ := of_searchFrom hm'
        refine ⟨b, q, congrArg (c :: ·) hs, ?_, hcaps, hafter, fun a' b' hab hlt => ?_⟩
        · rw [behind_cons]
          exact hq
        · rcases List.cons_eq_append_iff.mp hab with ⟨rfl, rfl⟩ | ⟨a'', rfl, rfl⟩
          · rw [firstAt, Option.map_eq_none_iff, List.head?_eq_none_iff] at hfirst
            exact hfirst
          · simp_all [behind_cons]

/-- A way to match behind a text without any is found. Kind: L -/
theorem searchFrom_append {prev : Option Char} {a b : List Char} (hnone : ∀ a' b', a = a' ++ b' → b' ≠ [] →
      matchesAt t flags r (behind prev a' (b' ++ b)) = []) (hsome : matchesAt t flags r (behind prev a b) ≠ []) :
    ∃ m q, searchFrom t flags r prev (a ++ b) = some m ∧ m.before = a ∧ q ∈ matchesAt t flags r (behind prev a b) ∧
      m.caps = q.caps ∧ m.after = q.rest := by
  cases hm : searchFrom t flags r prev (a ++ b) with
  | none => exact absurd (searchFrom_eq_none.mp hm a b rfl) hsome
  | some m =>
    obtain ⟨b', q, hs, hq, hcaps, hafter, hfirst⟩ := of_searchFrom hm
    have hbefore : m.before = a := by
      rcases List.append_eq_append_iff.mp hs with ⟨x, hx, rfl⟩ | ⟨x, rfl, rfl⟩
      · cases x with
        | nil => rw [hx, List.append_nil]
        | cons c x =>
          refine absurd (hfirst a (c :: x ++ b') rfl ?_) hsome
          rw [hx, List.length_append, List.length_cons]
          omega
      · cases x with
        | nil => rw [List.append_nil]
        | cons c x =>
          rw [hnone m.before (c :: x) rfl (List.cons_ne_nil _ _)] at hq
          cases hq
    refine ⟨m, q, rfl, hbefore, ?_, hcaps, hafter⟩
    rw [hbefore] at hq hs
    rwa [List.append_cancel_left hs]

end KarsaSec.Found.Regex
