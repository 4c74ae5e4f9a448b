import KarsaSec.Dataflow.GuardPropagation
import KarsaSec.Found.RegexMatch
import Mathlib.Data.Finset.Lattice.Lemmas

/-!
# Conditions of guards

Conditions that are built from registered predicates with `!`, `&&` and `||`, and what `graph/dataflow/guard_propagation.py` adds to the
variables on their edges.

* `Condition`, `Spells`: a condition, and the texts that it is written as.
* `mem_predicate`, `matchPredicate_of_located`: the first call with a variable that can be read is taken for the whole condition.
* `refineEdge_sound_iff`: when what is added is true.
-/

namespace KarsaSec.Dataflow

open KarsaSec.Cfg KarsaSec.Found
open KarsaSec.Found.Regex (Pos matchesAt behind)

/-! ## The pattern -/

/-- A letter or `_`. Kind: D -/
def isNameStart (c : Char) : Bool := c.isAlpha || c = '_'

/-- A letter, a digit or `_`. Kind: D -/
def isNameChar (c : Char) : Bool := c.isAlphanum || c = '_'

/-- Source: `registry.py`, `match_predicate_ast`. Kind: D -/
def nameStart : Regex := .cls false [.range 'a' 'z', .range 'A' 'Z', .range '_' '_']

/-- Source: `registry.py`, `match_predicate_ast`. Kind: D -/
def nameChar : Regex := .cls false [.range 'a' 'z', .range 'A' 'Z', .range '0' '9', .range '_' '_']

/-- Source: `registry.py`, `match_predicate_ast`. Kind: D -/
def blanks : Regex := .star true (.cls false [.space])

/-- The variable, as it is read. Source: `registry.py`, `match_predicate_ast`. Kind: D -/
def readVariable (n : ℕ) : Regex := .group n (.seq (.char '$') (.atLeast true nameChar 1))

/-- Source: `registry.py`, `match_predicate_ast`. Kind: D -/
def predicateRegex : Regex :=
  .seq .boundary (.seq (.group 1 (.seq nameStart (.star true nameChar))) (.seq blanks (.seq (.char '(') (.seq blanks
    (.seq (readVariable 2) (.seq blanks (.char ')')))))))

theorem parse_rePredicate : Regex.parse rePredicate = some predicateRegex := by decide +kernel

section pattern

variable {t : CharTable}

theorem within_self (lo c : Char) : (decide (lo.toNat ≤ c.toNat) && decide (c.toNat ≤ lo.toNat)) = decide (c = lo) := by
  rw [← Bool.decide_and, decide_eq_decide, ← Char.toNat_inj]
  omega

theorem isAlpha_iff (c : Char) : c.isAlpha = true ↔
    ('A'.toNat ≤ c.toNat ∧ c.toNat ≤ 'Z'.toNat) ∨ ('a'.toNat ≤ c.toNat ∧ c.toNat ≤ 'z'.toNat) := by
  delta Char.isAlpha Char.isUpper Char.isLower
  simp only [ge_iff_le, UInt32.le_iff_toNat_le, Bool.or_eq_true, Bool.and_eq_true, decide_eq_true_eq]
  rfl

theorem any_nameStart (c : Char) :
    (([.range 'a' 'z', .range 'A' 'Z', .range '_' '_'] : List ClassItem).any fun i => i.has t {} c) = isNameStart c := by
  rw [Bool.eq_iff_iff, isNameStart, Bool.or_eq_true, isAlpha_iff]
  simp only [List.any_cons, List.any_nil, Bool.or_false, ClassItem.has, Bool.false_and, within_self, Bool.or_eq_true,
    Bool.and_eq_true, decide_eq_true_eq]
  tauto

theorem isDigit_iff (c : Char) : c.isDigit = true ↔ '0'.toNat ≤ c.toNat ∧ c.toNat ≤ '9'.toNat := by
  simp [Char.isDigit, UInt32.le_iff_toNat_le]

theorem any_nameChar (c : Char) :
    (([.range 'a' 'z', .range 'A' 'Z', .range '0' '9', .range '_' '_'] : List ClassItem).any fun i => i.has t {} c) =
      isNameChar c := by
  rw [Bool.eq_iff_iff, isNameChar, Bool.or_eq_true, Char.isAlphanum, Bool.or_eq_true, isAlpha_iff, isDigit_iff]
  simp only [List.any_cons, List.any_nil, Bool.or_false, ClassItem.has, Bool.false_and, within_self, Bool.or_eq_true,
    Bool.and_eq_true, decide_eq_true_eq]
  tauto

theorem any_space (c : Char) : (([.space] : List ClassItem).any fun i => i.has t {} c) = isSpace c := by
  simp [ClassItem.has]

theorem isNameChar_of_start {c : Char} (h : isNameStart c = true) : isNameChar c = true := by
  rw [isNameStart, Bool.or_eq_true] at h
  rw [isNameChar, Char.isAlphanum, Bool.or_eq_true, Bool.or_eq_true]
  exact h.imp_left Or.inl

/-- A variable is read. Kind: L -/
theorem mem_readVariable {n : ℕ} {r : Regex} {p q : Pos} : q ∈ matchesAt t {} (.seq (readVariable n) r) p ↔
    ∃ var rest, p.rest = '$' :: (var ++ rest) ∧ var ≠ [] ∧ (∀ c ∈ var, isNameChar c = true) ∧
      q ∈ matchesAt t {} r { p.after ('$' :: var) rest with caps := (n, '$' :: var) :: p.caps } := by
  rw [readVariable, Regex.mem_seq_group]
  constructor
  · rintro ⟨m, hm, hq⟩
    obtain ⟨rest, hrest, hm⟩ := (Regex.mem_seq_char rfl).mp hm
    obtain ⟨var, hne, hvar, hall, hm⟩ := Regex.mem_atLeast_one.mp hm
    rw [Pos.rest_after] at hvar
    rw [Pos.after_after, List.singleton_append] at hm
    refine ⟨var, m.rest, by rw [hrest, hvar], hne, fun c hc => ?_, ?_⟩
    · have h := hall c hc
      rwa [any_nameChar, Bool.bne_false] at h
    · rw [hm] at hq ⊢
      rwa [Regex.Pos.upTo_after (by rw [hrest, hvar]; rfl)] at hq
  · rintro ⟨var, rest, hrest, hne, hall, hq⟩
    refine ⟨p.after ('$' :: var) rest, ?_, ?_⟩
    · refine (Regex.mem_seq_char rfl).mpr ⟨var ++ rest, hrest, Regex.mem_atLeast_one.mpr ⟨var, hne, rfl, fun c hc => ?_, ?_⟩⟩
      · rw [any_nameChar, Bool.bne_false]
        exact hall c hc
      · rw [Pos.after_after]
        rfl
    · rwa [Regex.Pos.upTo_after (by rw [hrest]; rfl)]

/-- A name is read. Kind: L -/
theorem mem_readName {n : ℕ} {r : Regex} {p q : Pos} :
    q ∈ matchesAt t {} (.seq (.group n (.seq nameStart (.star true nameChar))) r) p ↔
      ∃ name rest, p.rest = name ++ rest ∧ (∃ c tail, name = c :: tail ∧ isNameStart c = true) ∧
        (∀ c ∈ name, isNameChar c = true) ∧ q ∈ matchesAt t {} r { p.after name rest with caps := (n, name) :: p.caps } := by
  rw [Regex.mem_seq_group]
  constructor
  · rintro ⟨m, hm, hq⟩
    obtain ⟨c, rest, hrest, hc, hm⟩ := Regex.mem_seq_cls.mp hm
    obtain ⟨tail, htail, hall, hm⟩ := Regex.mem_star_cls.mp hm
    rw [any_nameStart, Bool.bne_false] at hc
    rw [Pos.rest_after] at htail
    rw [Pos.after_after, List.singleton_append] at hm
    have hp : p.rest = (c :: tail) ++ m.rest := by rw [hrest, htail]; rfl
    refine ⟨c :: tail, m.rest, hp, ⟨c, tail, rfl, hc⟩, List.forall_mem_cons.mpr ⟨isNameChar_of_start hc, fun d hd => ?_⟩, ?_⟩
    · have h := hall d hd
      rwa [any_nameChar, Bool.bne_false] at h
    · rw [hm] at hq ⊢
      rwa [Regex.Pos.upTo_after hp] at hq
  · rintro ⟨name, rest, hrest, ⟨c, tail, rfl, hc⟩, hall, hq⟩
    refine ⟨p.after (c :: tail) rest, ?_, ?_⟩
    · refine Regex.mem_seq_cls.mpr ⟨c, tail ++ rest, hrest, ?_, Regex.mem_star_cls.mpr ⟨tail, rfl, fun d hd => ?_, ?_⟩⟩
      · rw [any_nameStart, Bool.bne_false, hc]
      · rw [any_nameChar, Bool.bne_false]
        exact hall d (List.mem_cons_of_mem _ hd)
      · rw [Pos.after_after]
        rfl
    · rwa [Regex.Pos.upTo_after hrest]

/-- Spaces are read. Kind: L -/
theorem mem_blanks {r : Regex} {p q : Pos} : q ∈ matchesAt t {} (.seq blanks r) p ↔
    ∃ a rest, p.rest = a ++ rest ∧ (∀ c ∈ a, isSpace c = true) ∧ q ∈ matchesAt t {} r (p.after a rest) := by
  rw [blanks, Regex.mem_seq_star]
  simp only [any_space, Bool.bne_false]

end pattern

/-! ## Calls -/

/-- A call with one variable: the spaces before, between and behind. Kind: D -/
structure GuardCall where
  name : List Char
  beforeParen : List Char
  beforeVar : List Char
  var : List Char
  afterVar : List Char

namespace GuardCall

variable (k : GuardCall)

/-- The call as it is written. Kind: D -/
def text : List Char := k.name ++ (k.beforeParen ++ '(' :: (k.beforeVar ++ '$' :: (k.var ++ (k.afterVar ++ [')']))))

/-- A call with given spaces and given characters in the name of its variable. Kind: D -/
structure Of (space varChar : Char → Bool) : Prop where
  nameStart : ∃ c rest, k.name = c :: rest ∧ isNameStart c = true
  name : ∀ c ∈ k.name, isNameChar c = true
  beforeParen : ∀ c ∈ k.beforeParen, space c = true
  beforeVar : ∀ c ∈ k.beforeVar, space c = true
  var_ne : k.var ≠ []
  var : ∀ c ∈ k.var, varChar c = true
  afterVar : ∀ c ∈ k.afterVar, space c = true

/-- The call is one that can be read. Kind: D -/
abbrev Ok : Prop := k.Of isSpace isNameChar

variable {k} in
theorem Of.mono {space space' varChar varChar' : Char → Bool} (h : k.Of space varChar) (hspace : ∀ c, space c = true → space' c = true)
    (hvar : ∀ c ∈ k.var, varChar' c = true) : k.Of space' varChar' where
  nameStart := h.nameStart
  name := h.name
  beforeParen := fun c hc => hspace c (h.beforeParen c hc)
  beforeVar := fun c hc => hspace c (h.beforeVar c hc)
  var_ne := h.var_ne
  var := hvar
  afterVar := fun c hc => hspace c (h.afterVar c hc)

end GuardCall

theorem isWord_of_isNameChar {t : CharTable} {c : Char} (h : isNameChar c = true) : t.isWord c = true := by
  simp_all [CharTable.isWord, isNameChar]

section calls

variable {t : CharTable}

/-- What the pattern matches. Source: `registry.py`, `match_predicate_ast`. Kind: L -/
theorem mem_predicate {p q : Pos} : q ∈ matchesAt t {} predicateRegex p ↔
    (p.prev.map t.isWord).getD false = false ∧ ∃ k : GuardCall, k.Ok ∧ ∃ rest, p.rest = k.text ++ rest ∧
      q = ⟨some ')', rest, (2, '$' :: k.var) :: (1, k.name) :: p.caps⟩ := by
  rw [predicateRegex, Regex.mem_seq]
  constructor
  · rintro ⟨m, hm, hq⟩
    obtain ⟨hedge, rfl⟩ := Regex.mem_boundary.mp hm
    obtain ⟨name, rest₁, hrest, ⟨c, tail, rfl, hc⟩, hname, hq⟩ := mem_readName.mp hq
    obtain ⟨a, rest₂, ha, haAll, hq⟩ := mem_blanks.mp hq
    obtain ⟨rest₃, hparen, hq⟩ := (Regex.mem_seq_char rfl).mp hq
    obtain ⟨b, rest₄, hb, hbAll, hq⟩ := mem_blanks.mp hq
    obtain ⟨var, rest₅, hvar, hne, hvarAll, hq⟩ := mem_readVariable.mp hq
    obtain ⟨d, rest₆, hd, hdAll, hq⟩ := mem_blanks.mp hq
    obtain ⟨hclose, hq⟩ := (Regex.mem_char rfl).mp hq
    simp only [Pos.rest_after, Pos.caps_after] at ha hparen hb hvar hd hclose hq
    refine ⟨?_, ⟨c :: tail, a, b, var, d⟩, ⟨⟨c, tail, rfl, hc⟩, hname, haAll, hbAll, hne, hvarAll, hdAll⟩, q.rest, ?_, hq⟩
    · rw [hrest, List.cons_append, List.head?_cons, Option.map_some, Option.getD_some,
        isWord_of_isNameChar (isNameChar_of_start hc)] at hedge
      simpa using hedge
    · rw [hrest, ha, hparen, hb, hvar, hd, hclose]
      simp [GuardCall.text]
  · rintro ⟨hprev, k, hk, rest, hrest, rfl⟩
    obtain ⟨c, tail, hname, hc⟩ := hk.nameStart
    have htext : p.rest = k.name ++ (k.beforeParen ++ '(' :: (k.beforeVar ++ '$' :: (k.var ++ (k.afterVar ++ ')' :: rest)))) := by
      rw [hrest]
      simp [GuardCall.text]
    refine ⟨p, Regex.mem_boundary.mpr ⟨?_, rfl⟩, mem_readName.mpr ⟨k.name, _, htext, hk.nameStart, hk.name, ?_⟩⟩
    · rw [hprev, htext, hname, List.cons_append, List.head?_cons, Option.map_some, Option.getD_some,
        isWord_of_isNameChar (isNameChar_of_start hc)]
      rfl
    · refine mem_blanks.mpr ⟨k.beforeParen, _, rfl, hk.beforeParen, (Regex.mem_seq_char rfl).mpr ⟨_, rfl, ?_⟩⟩
      refine mem_blanks.mpr ⟨k.beforeVar, _, rfl, hk.beforeVar, mem_readVariable.mpr ⟨k.var, _, rfl, hk.var_ne, hk.var, ?_⟩⟩
      exact mem_blanks.mpr ⟨k.afterVar, _, rfl, hk.afterVar, (Regex.mem_char rfl).mpr ⟨rfl, rfl⟩⟩

end calls

/-! ## Conditions and their texts -/

/-- A condition that is built from guards. Kind: D -/
inductive Condition
  | guard (fn var : String)
  | negation (c : Condition)
  | conjunction (a b : Condition)
  | disjunction (a b : Condition)
  deriving DecidableEq, Repr

namespace Condition

/-- The value of a condition for values of its predicates. Kind: D -/
def eval (valuation : String → String → Bool) : Condition → Bool
  | guard fn var => valuation (strip (lower fn)) var
  | negation c => !c.eval valuation
  | conjunction a b => a.eval valuation && b.eval valuation
  | disjunction a b => a.eval valuation || b.eval valuation

/-- The guards from left to right. Kind: D -/
def guards : Condition → List (String × String)
  | guard fn var => [(fn, var)]
  | negation c => c.guards
  | conjunction a b | disjunction a b => a.guards ++ b.guards

/-- The first guard of which the pattern can read the variable. Kind: D -/
def firstGuard (c : Condition) : Option (String × String) := c.guards.find? fun g => (g.2.toList.drop 1).all isNameChar

end Condition

/-- The whitespace of the language. Kind: D -/
def isLayout (c : Char) : Bool := c ∈ [' ', '\t', '\n', '\r']

/-- A character of the name of a variable. Kind: D -/
def isVarChar (c : Char) : Bool := isNameChar c || (128 ≤ c.toNat && !isSpace c)

/-- A call that is written in the language. Kind: D -/
abbrev GuardCall.Written (k : GuardCall) : Prop := k.Of isLayout isVarChar

/-- The texts of a condition: within `!` and parentheses, with `&&`, and with `||`. Kind: D -/
inductive Spells (registry : GuardCapabilityRegistry) : ℕ → List Char → Condition → Prop
  | guard {k : GuardCall} (hk : k.Written) (hregistered : (registry.lookupPredicate (String.ofList k.name)).isSome) :
      Spells registry 0 k.text (.guard (String.ofList k.name) (String.ofList ('$' :: k.var)))
  | before {n : ℕ} {c : Char} {text : List Char} {cond : Condition} (hc : isLayout c = true) (h : Spells registry n text cond) :
      Spells registry n (c :: text) cond
  | after {n : ℕ} {c : Char} {text : List Char} {cond : Condition} (hc : isLayout c = true) (h : Spells registry n text cond) :
      Spells registry n (text ++ [c]) cond
  | negation {text : List Char} {cond : Condition} (h : Spells registry 0 text cond) :
      Spells registry 0 ('!' :: text) (.negation cond)
  | parens {text : List Char} {cond : Condition} (h : Spells registry 2 text cond) :
      Spells registry 0 ('(' :: text ++ [')']) cond
  | conjunction {s text : List Char} {a b : Condition} (ha : Spells registry 1 s a) (hb : Spells registry 1 text b) :
      Spells registry 1 (s ++ ['&', '&'] ++ text) (.conjunction a b)
  | disjunction {s text : List Char} {a b : Condition} (ha : Spells registry 2 s a) (hb : Spells registry 2 text b) :
      Spells registry 2 (s ++ ['|', '|'] ++ text) (.disjunction a b)
  | lift {n : ℕ} {text : List Char} {cond : Condition} (h : Spells registry n text cond) : Spells registry (n + 1) text cond

/-! ## Where the first call is -/

/-- No call begins in a text, whatever follows. Kind: D -/
def NoCall (x z : List Char) : Prop :=
  ∀ a c b, x = a ++ c :: b → (∀ w ∈ a.getLast?, isNameChar w = false) → ∀ k : GuardCall, k.Ok → ∀ rest,
    c :: b ++ z ≠ k.text ++ rest

/-- Two runs of characters end at the same place. Kind: L -/
theorem run_inj {p : Char → Bool} {x y x' y' : List Char} (hx : ∀ c ∈ x, p c = true) (hx' : ∀ c ∈ x', p c = true)
    (hy : ∀ c ∈ y.head?, p c = false) (hy' : ∀ c ∈ y'.head?, p c = false) (h : x ++ y = x' ++ y') : x = x' ∧ y = y' := by
  have htake : ∀ u v : List Char, (∀ c ∈ u, p c = true) → (∀ c ∈ v.head?, p c = false) → (u ++ v).takeWhile p = u := by
    intro u v hu hv
    rw [List.takeWhile_append_of_pos hu]
    cases v with
    | nil => rw [List.takeWhile_nil, List.append_nil]
    | cons c v => rw [List.takeWhile_cons_of_neg (by simp [hv c rfl]), List.append_nil]
  have heq : x = x' := by rw [← htake x y hx hy, h, htake x' y' hx' hy']
  subst heq
  exact ⟨rfl, List.append_cancel_left h⟩

theorem NoCall.nil (z : List Char) : NoCall [] z := fun a c b h => by simp at h

theorem NoCall.append {x y z : List Char} (hx : NoCall x (y ++ z)) (hy : NoCall y z) : NoCall (x ++ y) z := by
  intro a c b h hlast k hk rest
  rcases List.append_eq_append_iff.mp h with ⟨a', rfl, hy'⟩ | ⟨x', rfl, hcb⟩
  · refine hy a' c b hy' (fun w hw => hlast w ?_) k hk rest
    rw [List.getLast?_append, Option.mem_def.mp hw]
    rfl
  · cases x' with
    | nil => exact hy [] c b hcb.symm (fun w hw => by cases hw) k hk rest
    | cons d x' =>
      obtain ⟨rfl, hb⟩ := List.cons.inj hcb
      rw [hb]
      have h := hx a c x' rfl hlast k hk rest
      rwa [← List.append_assoc] at h

theorem NoCall.of_not_start {x : List Char} (h : ∀ c ∈ x, isNameStart c = false) (z : List Char) : NoCall x z := by
  rintro a c b rfl - k hk rest heq
  obtain ⟨d, tail, hname, hd⟩ := hk.nameStart
  rw [GuardCall.text, hname] at heq
  obtain ⟨rfl, -⟩ := List.cons.inj heq
  rw [h c (by simp)] at hd
  cases hd

theorem isSpace_of_isLayout {c : Char} (h : isLayout c = true) : isSpace c = true := by
  simp only [isLayout, List.mem_cons, List.not_mem_nil, or_false, decide_eq_true_eq] at h
  rcases h with rfl | rfl | rfl | rfl <;> rfl

theorem isVarChar_of_isNameChar {c : Char} (h : isNameChar c = true) : isVarChar c = true := by
  rw [isVarChar, h]
  rfl

theorem toNat_of_isNameChar {c : Char} (h : isNameChar c = true) : 48 ≤ c.toNat ∧ c.toNat ≤ 122 := by
  rw [isNameChar, Bool.or_eq_true, Char.isAlphanum, Bool.or_eq_true, isAlpha_iff, isDigit_iff, decide_eq_true_eq] at h
  rcases h with ((⟨h, h'⟩ | ⟨h, h'⟩) | ⟨h, h'⟩) | rfl
  · exact ⟨le_trans (by decide) h, le_trans h' (by decide)⟩
  · exact ⟨le_trans (by decide) h, le_trans h' (by decide)⟩
  · exact ⟨le_trans (by decide) h, le_trans h' (by decide)⟩
  · decide

theorem toNat_of_isSpace {c : Char} (h : isSpace c = true) : c.toNat ≤ 32 ∨ 133 ≤ c.toNat := by
  simp only [isSpace, Bool.or_eq_true, Bool.and_eq_true, decide_eq_true_eq, List.mem_cons, List.not_mem_nil, or_false] at h
  omega

/-- No name goes on behind spaces. Kind: L -/
theorem not_isNameChar_of_isSpace {c : Char} (h : isSpace c = true) : isNameChar c = false := by
  by_contra hname
  rw [Bool.not_eq_false] at hname
  have := toNat_of_isNameChar hname
  have := toNat_of_isSpace h
  omega

theorem not_isVarChar_of_isSpace {c : Char} (h : isSpace c = true) : isVarChar c = false := by
  rw [isVarChar, not_isNameChar_of_isSpace h, h]
  simp

/-- What stands behind spaces and a sign is no part of a name. Kind: L -/
theorem head_spaces {p : Char → Bool} {a x : List Char} {sign : Char} (hspace : ∀ c, isSpace c = true → p c = false)
    (ha : ∀ c ∈ a, isSpace c = true) (hsign : p sign = false) : ∀ c ∈ (a ++ sign :: x).head?, p c = false := by
  intro c hc
  cases a with
  | nil =>
    obtain rfl := Option.some.inj hc
    exact hsign
  | cons d a =>
    obtain rfl := Option.some.inj hc
    exact hspace d (ha d List.mem_cons_self)

/-- A call ends where it is written to end. Kind: L -/
theorem GuardCall.Of.eq_of_text {k k' : GuardCall} (hk : k.Of isSpace isVarChar) (hk' : k'.Of isSpace isVarChar)
    {z rest : List Char} (h : k.text ++ z = k'.text ++ rest) : k = k' := by
  have hparen : isNameChar '(' = false := by decide
  simp only [GuardCall.text, List.append_assoc, List.cons_append, List.nil_append] at h
  obtain ⟨hname, h⟩ := run_inj hk.name hk'.name (head_spaces (fun _ => not_isNameChar_of_isSpace) hk.beforeParen hparen)
    (head_spaces (fun _ => not_isNameChar_of_isSpace) hk'.beforeParen hparen) h
  obtain ⟨hbeforeParen, h⟩ := run_inj hk.beforeParen hk'.beforeParen (by simp; decide) (by simp; decide) h
  obtain ⟨hbeforeVar, h⟩ := run_inj hk.beforeVar hk'.beforeVar (by simp; decide) (by simp; decide) (List.cons.inj h).2
  obtain ⟨hvar, h⟩ := run_inj hk.var hk'.var (head_spaces (fun _ => not_isVarChar_of_isSpace) hk.afterVar (by decide))
    (head_spaces (fun _ => not_isVarChar_of_isSpace) hk'.afterVar (by decide)) (List.cons.inj h).2
  obtain ⟨hafterVar, -⟩ := run_inj hk.afterVar hk'.afterVar (by simp; decide) (by simp; decide) h
  cases k
  cases k'
  simp_all

theorem GuardCall.Of.written {k : GuardCall} (hk : k.Written) : k.Of isSpace isVarChar :=
  hk.mono (fun _ => isSpace_of_isLayout) hk.var

theorem GuardCall.Of.ok {k : GuardCall} (hk : k.Ok) : k.Of isSpace isVarChar :=
  hk.mono (fun _ h => h) fun c hc => isVarChar_of_isNameChar (hk.var c hc)

/-- No call begins within the name of a variable. Kind: L -/
theorem NoCall.of_var {v d z : List Char} (hv : ∀ c ∈ v, isVarChar c = true) (hd : ∀ c ∈ d, isSpace c = true) :
    NoCall v (d ++ ')' :: z) := by
  rintro a c b rfl - k hk rest h
  rw [GuardCall.text, List.append_assoc, List.append_assoc] at h
  obtain ⟨-, h⟩ := run_inj (p := isVarChar) (fun x hx => hv x (List.mem_append_right _ hx))
    (fun x hx => isVarChar_of_isNameChar (hk.name x hx))
    (head_spaces (fun _ => not_isVarChar_of_isSpace) hd (by decide))
    (head_spaces (fun _ => not_isVarChar_of_isSpace) hk.beforeParen (by decide)) h
  obtain ⟨-, h⟩ := run_inj hd hk.beforeParen (by simp; decide) (by simp; decide) h
  exact absurd (List.cons.inj h).1 (by decide)

/-- No call is read where the variable cannot be read. Kind: L -/
theorem GuardCall.Of.noCall {k : GuardCall} (hk : k.Written) (hvar : k.var.all isNameChar = false) (z : List Char) :
    NoCall k.text z := by
  have hstart : ∀ l : List Char, (∀ c ∈ l, isLayout c = true) → ∀ c ∈ l, isNameStart c = false := by
    intro l hl c hc
    by_contra h
    rw [Bool.not_eq_false] at h
    have := not_isNameChar_of_isSpace (isSpace_of_isLayout (hl c hc))
    rw [isNameChar_of_start h] at this
    cases this
  have hsign : ∀ c : Char, isNameStart c = false → ∀ z, NoCall [c] z := fun c hc => NoCall.of_not_start (by simpa using hc)
  -- behind the first letter the edge of a word is missing
  have hname : NoCall k.name ((k.beforeParen ++ '(' :: (k.beforeVar ++ '$' :: (k.var ++ (k.afterVar ++ [')'])))) ++ z) := by
    intro a c b hab hlast k' hk' rest h
    rcases List.eq_nil_or_concat a with rfl | ⟨a, d, rfl⟩
    · rw [List.nil_append] at hab
      rw [← hab, ← List.append_assoc] at h
      obtain rfl := hk.written.eq_of_text hk'.ok h
      rw [List.all_eq_true.mpr hk'.var] at hvar
      cases hvar
    · have hd := hk.name d (by rw [hab]; simp)
      rw [hlast d (by simp)] at hd
      cases hd
  refine hname.append (NoCall.append (.of_not_start (hstart _ hk.beforeParen) _) ?_)
  refine NoCall.append (hsign '(' (by decide) _) (NoCall.append (.of_not_start (hstart _ hk.beforeVar) _) ?_)
  refine NoCall.append (hsign '$' (by decide) _) (NoCall.append ?_ ?_)
  · rw [List.append_assoc]
    exact .of_var hk.var fun c hc => isSpace_of_isLayout (hk.afterVar c hc)
  · exact NoCall.append (.of_not_start (hstart _ hk.afterVar) _) (hsign ')' (by decide) _)

/-- The characters between the calls of a condition. Kind: D -/
def isSign (c : Char) : Bool := isLayout c || c ∈ ['!', '(', ')', '&', '|']

theorem not_isNameChar_of_isSign {c : Char} (h : isSign c = true) : isNameChar c = false := by
  rw [isSign, Bool.or_eq_true] at h
  rcases h with h | h
  · exact not_isNameChar_of_isSpace (isSpace_of_isLayout h)
  · simp only [List.mem_cons, List.not_mem_nil, or_false, decide_eq_true_eq] at h
    rcases h with rfl | rfl | rfl | rfl | rfl <;> decide

theorem NoCall.of_isSign {c : Char} (h : isSign c = true) (z : List Char) : NoCall [c] z := by
  refine .of_not_start (fun d hd => ?_) z
  rw [List.mem_singleton.mp hd]
  by_contra hstart
  rw [Bool.not_eq_false] at hstart
  have := not_isNameChar_of_isSign h
  rw [isNameChar_of_start hstart] at this
  cases this

/-- The first call that can be read stands at its place in a text. Kind: D -/
inductive Located (registry : GuardCapabilityRegistry) : Option (String × String) → List Char → Prop
  | absent {text : List Char} (h : ∀ z, NoCall text z) : Located registry none text
  | present {text : List Char} (a b : List Char) (k : GuardCall) (htext : text = a ++ (k.text ++ b)) (hk : k.Ok)
      (hregistered : (registry.lookupPredicate (String.ofList k.name)).isSome) (h : ∀ z, NoCall a (k.text ++ (b ++ z)))
      (hlast : ∀ c ∈ a.getLast?, isSign c = true) :
      Located registry (some (String.ofList k.name, String.ofList ('$' :: k.var))) text

section located

variable {registry : GuardCapabilityRegistry} {first second : Option (String × String)} {x y : List Char} {c : Char}

/-- The last character behind a sign. Kind: L -/
theorem isSign_getLast? {a : List Char} (hc : isSign c = true) (hlast : ∀ d ∈ a.getLast?, isSign d = true) :
    ∀ d ∈ (x ++ c :: a).getLast?, isSign d = true := by
  intro d hd
  rw [List.getLast?_append, List.getLast?_cons, Option.some_or, Option.mem_some_iff] at hd
  rw [← hd]
  cases hlast' : a.getLast? with
  | none => exact hc
  | some e => exact hlast e hlast'

/-- The first call behind a text without one. Kind: L -/
theorem Located.behind (hx : ∀ z, NoCall x z) (hc : isSign c = true) (hy : Located registry second y) :
    Located registry second (x ++ c :: y) := by
  cases hy with
  | absent h => exact .absent fun z => (hx _).append ((NoCall.of_isSign hc _).append (h z))
  | present a b k htext hk hregistered h hlast =>
    refine .present (x ++ c :: a) b k (by rw [htext]; simp) hk hregistered (fun z => ?_) (isSign_getLast? hc hlast)
    exact (hx _).append ((NoCall.of_isSign hc _).append (h z))

/-- The first call of two texts. Kind: L -/
theorem Located.append (hx : Located registry first x) (hc : isSign c = true) (hy : Located registry second y) :
    Located registry (first.or second) (x ++ c :: y) := by
  cases hx with
  | absent h => exact hy.behind h hc
  | present a b k htext hk hregistered h hlast =>
    refine .present a (b ++ c :: y) k (by rw [htext]; simp) hk hregistered (fun z => ?_) hlast
    rw [List.append_assoc]
    exact h _

theorem Located.cons (hc : isSign c = true) (hy : Located registry second y) : Located registry second (c :: y) :=
  hy.behind NoCall.nil hc

theorem Located.snoc (hx : Located registry first x) (hc : isSign c = true) : Located registry first (x ++ [c]) := by
  have h := hx.append hc (.absent NoCall.nil)
  rwa [Option.or_none] at h

/-- By induction on the text. Kind: L -/
theorem Spells.located {n : ℕ} {text : List Char} {cond : Condition} (h : Spells registry n text cond) :
    Located registry cond.firstGuard text := by
  induction h with
  | @guard k hk hregistered =>
    rw [Condition.firstGuard, Condition.guards, List.find?_singleton, String.toList_ofList, List.drop_succ_cons, List.drop_zero]
    cases hvar : k.var.all isNameChar with
    | false => exact .absent (hk.noCall hvar)
    | true =>
      refine .present [] [] k (by simp) (hk.mono (fun _ => isSpace_of_isLayout) (List.all_eq_true.mp hvar)) hregistered
        (fun _ => NoCall.nil _) fun c hc => by cases hc
  | before hc _ ih => exact ih.cons (by rw [isSign, hc]; rfl)
  | after hc _ ih => exact ih.snoc (by rw [isSign, hc]; rfl)
  | negation _ ih => exact ih.cons (by decide)
  | parens _ ih => exact (ih.cons (by decide)).snoc (by decide)
  | conjunction _ _ iha ihb =>
    rw [Condition.firstGuard, Condition.guards, List.find?_append, List.append_assoc]
    exact iha.append (by decide) (ihb.cons (by decide))
  | disjunction _ _ iha ihb =>
    rw [Condition.firstGuard, Condition.guards, List.find?_append, List.append_assoc]
    exact iha.append (by decide) (ihb.cons (by decide))
  | lift _ ih => exact ih

/-! ## What is read -/

/-- Nothing but spaces and an exclamation mark is dropped. Source: `registry.py`, `match_predicate_ast`. Kind: L -/
theorem exists_dropNegation (text : String) : ∃ a b, text.toList = a ++ ((dropNegation text).1.toList ++ b) ∧
    (∀ c ∈ a, isNameChar c = false) ∧ ∀ c ∈ b, isSpace c = true := by
  obtain ⟨a, b, htext, ha, hb⟩ := exists_stripList text.toList
  have hspace : ∀ {l : List Char}, (∀ c ∈ l, isSpace c = true) → ∀ c ∈ l, isNameChar c = false := fun hl c hc =>
    not_isNameChar_of_isSpace (hl c hc)
  unfold dropNegation
  split
  · next hnegated =>
      obtain ⟨v, hv⟩ : ∃ v, '!' :: v = stripList text.toList := by
        rw [startsWith, List.isPrefixOf_iff_prefix, strip, String.toList_ofList, String.toList_ofList] at hnegated
        exact hnegated
      obtain ⟨a', b', hv', ha', hb'⟩ := exists_stripList v
      refine ⟨a ++ '!' :: a', b' ++ b, ?_, ?_, ?_⟩
      · rw [strip, strip, String.toList_ofList, String.toList_ofList, String.toList_ofList, ← hv, List.drop_succ_cons, List.drop_zero]
        rw [htext, ← hv]
        nth_rewrite 1 [hv']
        simp
      · simp only [List.mem_append, List.mem_cons]
        rintro c (hc | rfl | hc)
        · exact hspace ha c hc
        · decide
        · exact hspace ha' c hc
      · grind
  · refine ⟨a, b, ?_, hspace ha, hb⟩
    rw [strip, String.toList_ofList, ← List.append_assoc]
    exact htext

/-- Where no call begins, there is no way to match, nor behind dropped characters. Kind: L -/
theorem NoCall.matchesAt {t : CharTable} {z a p w v x : List Char} {c : Char} (h : NoCall (a ++ (p ++ c :: x)) z)
    (ha : ∀ d ∈ a, isNameChar d = false) (hw : c :: x ++ z = w ++ v) :
    Regex.matchesAt t {} predicateRegex (behind none p w) = [] := by
  refine List.eq_nil_iff_forall_not_mem.mpr fun q hq => ?_
  obtain ⟨hedge, k, hk, rest, hrest, -⟩ := mem_predicate.mp hq
  refine h (a ++ p) c x (List.append_assoc ..).symm (fun d hd => ?_) k hk (rest ++ v) ?_
  · rw [List.getLast?_append] at hd
    cases hlast : p.getLast? with
    | none =>
      rw [hlast, Option.none_or] at hd
      exact ha d (List.mem_of_getLast? hd)
    | some e =>
      rw [hlast, Option.some_or, Option.mem_some_iff] at hd
      by_contra hname
      rw [Bool.not_eq_false] at hname
      rw [behind, hlast, Option.some_or, Option.map_some, Option.getD_some, hd, isWord_of_isNameChar hname] at hedge
      cases hedge
  · rw [hw, ← List.append_assoc]
    exact congrArg (· ++ v) hrest

theorem not_isWord_of_isSign {t : CharTable} (hc : isSign c = true) : t.isWord c = false := by
  simp only [isSign, isLayout, List.mem_cons, List.not_mem_nil, or_false, Bool.or_eq_true, decide_eq_true_eq] at hc
  rcases hc with (rfl | rfl | rfl | rfl) | (rfl | rfl | rfl | rfl | rfl) <;> simp [CharTable.isWord, Char.isAlphanum]

/-- A call stands within what is left if its text stands in the whole. Kind: L -/
theorem exists_of_append {a u b pre post : List Char} {k : GuardCall} (hk : k.Ok) (ha : ∀ d ∈ a, isNameChar d = false)
    (hb : ∀ d ∈ b, isSpace d = true) (h : a ++ (u ++ b) = pre ++ (k.text ++ post)) :
    ∃ pre' post', pre = a ++ pre' ∧ u = pre' ++ (k.text ++ post') ∧ post = post' ++ b := by
  obtain ⟨pre', rfl, hrest⟩ : ∃ pre', pre = a ++ pre' ∧ u ++ b = pre' ++ (k.text ++ post) := by
    rcases List.append_eq_append_iff.mp h with ⟨pre', hpre, h'⟩ | ⟨a', ha', h'⟩
    · exact ⟨pre', hpre, h'⟩
    · cases a' with
      | nil => exact ⟨[], by rw [ha', List.append_nil, List.append_nil], h'.symm⟩
      | cons d a' =>
        obtain ⟨c, tail, hname, hc⟩ := hk.nameStart
        rw [GuardCall.text, hname] at h'
        have hd := ha d (by rw [ha']; simp)
        rw [← (List.cons.inj h').1, isNameChar_of_start hc] at hd
        cases hd
  rw [← List.append_assoc] at hrest
  rcases List.append_eq_append_iff.mp hrest.symm with ⟨post', hu, hpost⟩ | ⟨b', hu, hb'⟩
  · simp_all
  · cases b' with
    | nil =>
      rw [List.append_nil] at hu
      exact ⟨pre', [], rfl, by rw [List.append_nil, hu], hb'.symm⟩
    | cons d b' =>
      have hclose := congrArg List.getLast? hu
      rw [List.getLast?_append, List.getLast?_append, show k.text.getLast? = some ')' by simp [GuardCall.text,
        List.getLast?_append, List.getLast?_cons], Option.some_or] at hclose
      have hmem : ')' ∈ d :: b' := by grind
      exact absurd (hb ')' (by rw [hb']; exact List.mem_append_left _ hmem)) (by decide)

/-- The search for a call in what is left of a text. Source: `registry.py`, `match_predicate_ast`. Kind: L -/
theorem matchPredicate_of_located {t : CharTable} {text : String} (h : Located registry first text.toList) :
    matchPredicate t registry text = first.bind fun g => (registry.lookupPredicate g.1).map fun cap =>
      (cap, g.2, (dropNegation text).2) := by
  obtain ⟨a, b, htext, ha, hb⟩ := exists_dropNegation text
  rw [matchPredicate, search, parse_rePredicate, Option.bind_some]
  revert htext
  generalize (dropNegation text).1.toList = u
  intro htext
  rw [htext] at h
  cases h with
  | absent h =>
    have hnone : Regex.searchFrom t {} predicateRegex none u = none := by
      refine Regex.searchFrom_eq_none.mpr fun p x hpx => ?_
      subst hpx
      cases x with
      | nil =>
        refine List.eq_nil_iff_forall_not_mem.mpr fun q hq => ?_
        obtain ⟨-, k, hk, rest, hrest, -⟩ := mem_predicate.mp hq
        simp [behind, GuardCall.text] at hrest
      | cons c x =>
        have h' := h []
        rw [List.append_assoc] at h'
        exact h'.matchesAt ha (List.append_nil _)
    rw [hnone, Option.bind_none, Option.bind_none]
  | present pre post k heq hk hregistered h hsign =>
    obtain ⟨pre', post', rfl, rfl, rfl⟩ := exists_of_append hk ha hb heq
    have hnone : ∀ p x, pre' = p ++ x → x ≠ [] →
        Regex.matchesAt t {} predicateRegex (behind none p (x ++ (k.text ++ post'))) = [] := by
      rintro p x rfl hne
      obtain ⟨c, x, rfl⟩ := List.exists_cons_of_ne_nil hne
      refine (h []).matchesAt ha (v := b) ?_
      simp
    have hsome : Regex.matchesAt t {} predicateRegex (behind none pre' (k.text ++ post')) ≠ [] := by
      refine List.ne_nil_of_mem (mem_predicate.mpr ⟨?_, k, hk, post', rfl, rfl⟩)
      cases hlast : pre'.getLast? with
      | none => rw [behind, hlast]; rfl
      | some d =>
        rw [behind, hlast, Option.some_or, Option.map_some, Option.getD_some]
        refine not_isWord_of_isSign (hsign d ?_)
        rw [List.getLast?_append, hlast]
        rfl
    obtain ⟨m, q, hm, -, hq, hcaps, -⟩ := Regex.searchFrom_append hnone hsome
    obtain ⟨-, k', hk', rest, hrest, rfl⟩ := mem_predicate.mp hq
    obtain rfl := hk.ok.eq_of_text hk'.ok hrest
    rw [hm, Option.bind_some, Option.bind_some, Regex.Match.group, Regex.Match.group, if_neg (by decide), if_neg (by decide),
      hcaps]
    rfl

end located

/-! ## What is added -/

section sound

variable (t : CharTable) (registry : GuardCapabilityRegistry)

/-- What a predicate gives for a value. Source: `registry.py`, `PredicateCapability`. Kind: D -/
def PredicateCapability.given (cap : PredicateCapability) (value : Bool) : Finset SemanticConstraint :=
  if value then cap.trueBranchConstraints else cap.falseBranchConstraints

/-- A constraint holds of a variable if a predicate of it has a value that gives it. Kind: D -/
def Holds (valuation : String → String → Bool) (var : String) (c : SemanticConstraint) : Prop :=
  ∃ name cap, registry.predicates.get? name = some cap ∧ c ∈ cap.given (valuation name var)

/-- The edge of a branch with its condition. Kind: D -/
def branchEdge (srcId targetId : String) (branch : Bool) (text : List Char) : CFGEdge :=
  ⟨srcId, targetId, if branch then .trueBranch else .falseBranch, some (String.ofList text)⟩

/-- Whatever is added to a variable on an edge holds of it whenever the condition has the value of the edge. Kind: D -/
def RefinesSoundly (edge : CFGEdge) (cond : Condition) (branch : Bool) : Prop :=
  ∀ env valuation, cond.eval valuation = branch → ∀ var c, c ∈ ((refineEdge t registry env edge).getValue var).allConstraints →
    c ∉ (env.getValue var).allConstraints → Holds registry valuation var c

/-- The condition has the value of the edge only where the first guard has the value that the edge and an exclamation mark at the
beginning suggest, or where the constraints that it would give hold anyway. Kind: D -/
def FirstGuardDecides (cond : Condition) (negated branch : Bool) : Prop :=
  ∀ fn var cap, cond.firstGuard = some (fn, var) → registry.lookupPredicate fn = some cap → ∀ valuation, cond.eval valuation = branch →
    valuation (strip (lower fn)) var = (branch != negated) ∨ ∀ c ∈ cap.given (branch != negated), Holds registry valuation var c

/-- What the first guard would give a variable. Kind: D -/
def firstGiven (cond : Condition) (value : Bool) (var : String) : Finset SemanticConstraint :=
  match cond.firstGuard with
  | none => ∅
  | some (fn, guarded) =>
    if var = guarded then ((registry.lookupPredicate fn).map fun cap => cap.given value).getD ∅ else ∅

variable {t registry}

theorem allConstraints_setValue {env : AbstractEnvironment} (x : String) (constraints : Finset SemanticConstraint) (y : String) :
    ((env.setValue ((env.getValue x).withConstraints constraints)).getValue y).allConstraints =
      (env.getValue y).allConstraints ∪ if y = x then constraints else ∅ := by
  have hversion : ((env.getValue x).withConstraints constraints).varVersion = env.getVersion x :=
    AbstractEnvironment.varVersion_getValue x
  rw [AbstractEnvironment.getValue_setValue hversion]
  by_cases hy : y = x
  · rw [if_pos hy, if_pos hy, AbstractValue.allConstraints_withConstraints, hy]
  · rw [if_neg hy, if_neg hy, Finset.union_empty]

theorem allConstraints_empty (x : String) : (AbstractEnvironment.empty.getValue x).allConstraints = ∅ :=
  Finset.union_empty ∅

theorem Spells.ne_nil {n : ℕ} {text : List Char} {cond : Condition} (h : Spells registry n text cond) : text ≠ [] := by
  induction h with
  | @guard k => simp [GuardCall.text]
  | lift _ ih => exact ih
  | _ => simp

/-- The constraints of the first guard are added. Source: `guard_propagation.py`, `_refine_edge`. Kind: L -/
theorem allConstraints_refineEdge {text : List Char} {cond : Condition} (h : Spells registry 2 text cond) (srcId targetId : String)
    (branch : Bool) (env : AbstractEnvironment) (x : String) :
    ((refineEdge t registry env (branchEdge srcId targetId branch text)).getValue x).allConstraints =
      (env.getValue x).allConstraints ∪ firstGiven registry cond (branch != (dropNegation (String.ofList text)).2) x := by
  have htext : String.ofList text ≠ "" := fun heq => h.ne_nil (by simpa using congrArg String.toList heq)
  have hmatch : matchPredicate t registry (String.ofList text) = cond.firstGuard.bind fun g =>
      (registry.lookupPredicate g.1).map fun cap => (cap, g.2, (dropNegation (String.ofList text)).2) :=
    matchPredicate_of_located (by rw [String.toList_ofList]; exact h.located)
  have hkind : ¬((if branch then CFGEdgeKind.trueBranch else .falseBranch) ≠ .trueBranch ∧
      (if branch then CFGEdgeKind.trueBranch else .falseBranch) ≠ .falseBranch) := by
    cases branch <;> simp
  unfold refineEdge branchEdge firstGiven
  dsimp only
  rw [if_neg hkind, Option.getD_some, if_neg htext, hmatch]
  cases cond.firstGuard with
  | none => exact (Finset.union_empty _).symm
  | some g =>
    obtain ⟨fn, var⟩ := g
    rw [Option.bind_some]
    dsimp only
    cases registry.lookupPredicate fn with
    | none => simp
    | some cap =>
      rw [Option.map_some, Option.map_some, Option.getD_some]
      generalize (dropNegation (String.ofList text)).2 = negated
      have hgiven : (if (if branch then CFGEdgeKind.trueBranch else .falseBranch) = .trueBranch then
          if negated then cap.falseBranchConstraints else cap.trueBranchConstraints
        else if negated then cap.trueBranchConstraints else cap.falseBranchConstraints) = cap.given (branch != negated) := by
        cases branch <;> cases negated <;> rfl
      dsimp only
      rw [hgiven]
      by_cases hempty : cap.given (branch != negated) = ∅
      · simp_all
      · rw [if_pos hempty]
        exact allConstraints_setValue var _ x

/-- What the first guard would give has to hold, since it may be new. Kind: L -/
theorem RefinesSoundly.holds {text : List Char} {cond : Condition} {srcId targetId : String} {branch : Bool}
    (h : RefinesSoundly t registry (branchEdge srcId targetId branch text) cond branch) (hspells : Spells registry 2 text cond)
    {valuation : String → String → Bool} (heval : cond.eval valuation = branch) {x : String} {c : SemanticConstraint}
    (hc : c ∈ firstGiven registry cond (branch != (dropNegation (String.ofList text)).2) x) : Holds registry valuation x c := by
  refine h .empty valuation heval x c ?_ ?_
  · grind [allConstraints_refineEdge]
  · rw [allConstraints_empty]
    exact Finset.notMem_empty c

/-- What is added holds exactly if the first guard decides. Source: `guard_propagation.py`, `_refine_edge`. Kind: T -/
theorem refineEdge_sound_iff {text : List Char} {cond : Condition} (h : Spells registry 2 text cond) (srcId targetId : String)
    (branch : Bool) : RefinesSoundly t registry (branchEdge srcId targetId branch text) cond branch ↔
      FirstGuardDecides registry cond (dropNegation (String.ofList text)).2 branch := by
  constructor
  · intro hsound fn var cap hfirst hlookup valuation heval
    refine Or.inr fun c hc => hsound.holds h heval ?_
    rw [firstGiven, hfirst]
    dsimp only
    rw [if_pos rfl, hlookup]
    exact hc
  · intro hdecides env valuation heval x c hc hnew
    rw [allConstraints_refineEdge h, firstGiven] at hc
    have hc := (Finset.mem_union.mp hc).resolve_left hnew
    cases hfirst : cond.firstGuard with
    | none =>
      rw [hfirst] at hc
      cases hc
    | some g =>
      obtain ⟨fn, var⟩ := g
      rw [hfirst] at hc
      dsimp only at hc
      by_cases hx : x = var
      · rw [if_pos hx] at hc
        cases hlookup : registry.lookupPredicate fn with
        | none =>
          rw [hlookup] at hc
          cases hc
        | some cap =>
          rw [hlookup, Option.map_some, Option.getD_some] at hc
          rcases hdecides fn var cap hfirst hlookup valuation heval with hvalue | hholds
          · exact ⟨_, cap, hlookup, by rw [hx, hvalue]; exact hc⟩
          · rw [hx]
            exact hholds c hc
      · rw [if_neg hx] at hc
        cases hc

/-- A predicate of a variable, as it is written. Kind: D -/
def call (name var : String) : GuardCall := ⟨name.toList, [], [], var.toList, []⟩

theorem written_call {name var : String} (hname : (name.toList.head?.map isNameStart).getD false = true)
    (hall : name.toList.all isNameChar = true) (hne : var.toList ≠ []) (hvar : var.toList.all isVarChar = true) :
    (call name var).Written where
  nameStart := by
    cases h : name.toList with
    | nil => simp [h] at hname
    | cons c rest => exact ⟨c, rest, h, by simpa [h] using hname⟩
  name := List.all_eq_true.mp hall
  beforeParen := fun _ h => absurd h List.not_mem_nil
  beforeVar := fun _ h => absurd h List.not_mem_nil
  var_ne := hne
  var := List.all_eq_true.mp hvar
  afterVar := fun _ h => absurd h List.not_mem_nil

theorem written_is_numeric : (call "is_numeric" "x").Written :=
  written_call (by decide) (by decide) (by decide) (by decide)

theorem written_is_int : (call "is_int" "y").Written :=
  written_call (by decide) (by decide) (by decide) (by decide)

theorem spells_conjunction : Spells guardRegistry 2 "is_numeric($x)&&is_int($y)".toList
    (.conjunction (.guard "is_numeric" "$x") (.guard "is_int" "$y")) := by
  have hx := written_is_numeric
  have hy := written_is_int
  exact .lift (.conjunction (.lift (.guard hx (by decide))) (.lift (.guard hy (by decide))))

theorem spells_disjunction : Spells guardRegistry 2 "is_numeric($x)||is_int($y)".toList
    (.disjunction (.guard "is_numeric" "$x") (.guard "is_int" "$y")) := by
  have hx := written_is_numeric
  have hy := written_is_int
  exact .disjunction (.lift (.lift (.guard hx (by decide)))) (.lift (.lift (.guard hy (by decide))))

theorem refineEdge_sound_conjunction : RefinesSoundly ⟨fun _ => false, fun _ => false⟩ guardRegistry
    (branchEdge "cond" "true" true "is_numeric($x)&&is_int($y)".toList)
    (.conjunction (.guard "is_numeric" "$x") (.guard "is_int" "$y")) true := by
  refine (refineEdge_sound_iff spells_conjunction "cond" "true" true).mpr fun fn var cap hfirst _ valuation heval => Or.inl ?_
  have hnegated : (dropNegation (String.ofList "is_numeric($x)&&is_int($y)".toList)).2 = false := by decide
  have hguard : (Condition.conjunction (.guard "is_numeric" "$x") (.guard "is_int" "$y")).firstGuard = some ("is_numeric", "$x") := by
    decide
  rw [hguard] at hfirst
  obtain ⟨rfl, rfl⟩ := Prod.mk.inj (Option.some.inj hfirst)
  rw [Condition.eval, Condition.eval, Bool.and_eq_true] at heval
  rw [hnegated, heval.1]
  rfl

/-- No predicate is registered that gives anything where it is false. Source: `registry.py`, `_register_defaults`. Kind: L -/
theorem given_false {name : String} {cap : PredicateCapability} (h : guardRegistry.predicates.get? name = some cap) :
    cap.given false = ∅ := by
  have hall : ∀ e ∈ guardRegistry.predicates.entries, e.2.falseBranchConstraints = ∅ := by decide
  exact hall _ (Dict.mem_entries.mpr h)

/-- One side of `||` is taken for the whole. Source: `guard_propagation.py`, `_refine_edge`. Kind: T -/
theorem disjunction_refined : ¬RefinesSoundly ⟨fun _ => false, fun _ => false⟩ guardRegistry
    (branchEdge "cond" "true" true "is_numeric($x)||is_int($y)".toList)
    (.disjunction (.guard "is_numeric" "$x") (.guard "is_int" "$y")) true := by
  intro h
  have hgiven : SemanticConstraint.numeric ∈ firstGiven guardRegistry
      (.disjunction (.guard "is_numeric" "$x") (.guard "is_int" "$y"))
      (true != (dropNegation (String.ofList "is_numeric($x)||is_int($y)".toList)).2) "$x" := by decide
  have heval : (Condition.disjunction (.guard "is_numeric" "$x") (.guard "is_int" "$y")).eval (fun _ var => var = "$y") = true := by
    decide
  obtain ⟨name, cap, hcap, hc⟩ := h.holds spells_disjunction heval hgiven
  have hfalse : decide (("$x" : String) = "$y") = false := by decide
  dsimp only at hc
  rw [hfalse, given_false hcap] at hc
  exact absurd hc (Finset.notMem_empty _)

end sound

end KarsaSec.Dataflow
