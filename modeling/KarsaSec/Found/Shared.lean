import Mathlib.Data.Nat.Notation
import Mathlib.Logic.Relation

/-!
# Programs on a shared store

A program touches a store one access at a time; between two accesses others may change it.

* `Shared σ ε α` is such a program over stores `σ`: it gives an `α` or raises an `ε`.
* `solo` runs it alone; a program that only `Reads` leaves the store as it is.
* `Step env` interleaves it with an environment, whose moves are `env`; `Runs` is a run to the end.
  `disturbed` is the run in which the environment moves as a given schedule says.
* `Yields` are the outcomes for whatever stores the accesses find; `Runs.yields` says that no environment
  leads to another one, so what holds of these holds in every interleaving.
-/

namespace KarsaSec.Found

/-- A program on a shared store; `step` is one access, which reads the store and leaves one. Kind: D -/
inductive Shared (σ ε α : Type) where
  | done (a : α)
  | raise (e : ε)
  | step (act : σ → σ) (next : σ → Shared σ ε α)

namespace Shared

variable {σ ε ε' α β : Type}

/-! ## Building programs -/

/-- One program after another. Kind: D -/
def bind : Shared σ ε α → (α → Shared σ ε β) → Shared σ ε β
  | done a, f => f a
  | raise e, _ => raise e
  | step act next, f => step act fun s => (next s).bind f

instance : Monad (Shared σ ε) where
  pure := done
  bind := bind

/-- One access that only reads. Kind: D -/
def look (f : σ → α) : Shared σ ε α := step id fun s => done (f s)

/-- One access that reads and writes. Kind: D -/
def touch (f : σ → α × σ) : Shared σ ε α := step (fun s => (f s).2) fun s => done (f s).1

/-- A computation without an access. Kind: D -/
def ofExcept : Except ε α → Shared σ ε α
  | .ok a => done a
  | .error e => raise e

/-- `try: … except`: the outcome as a value. Kind: D -/
def attempt : Shared σ ε α → Shared σ ε' (Except ε α)
  | done a => done (.ok a)
  | raise e => done (.error e)
  | step act next => step act fun s => (next s).attempt

/-! ## Alone -/

/-- The run without an environment. Kind: D -/
def solo : Shared σ ε α → σ → Except ε α × σ
  | done a, s => (.ok a, s)
  | raise e, s => (.error e, s)
  | step act next, s => (next s).solo (act s)

@[simp] theorem solo_pure (a : α) (s : σ) : (pure a : Shared σ ε α).solo s = (.ok a, s) := rfl

@[simp] theorem solo_raise (e : ε) (s : σ) : (raise e : Shared σ ε α).solo s = (.error e, s) := rfl

@[simp] theorem solo_look (f : σ → α) (s : σ) : (look f : Shared σ ε α).solo s = (.ok (f s), s) := rfl

@[simp] theorem solo_touch (f : σ → α × σ) (s : σ) :
    (touch f : Shared σ ε α).solo s = (.ok (f s).1, (f s).2) := rfl

@[simp] theorem solo_ofExcept (x : Except ε α) (s : σ) :
    (ofExcept x : Shared σ ε α).solo s = (x, s) := by
  cases x <;> rfl

theorem solo_bind (p : Shared σ ε α) (f : α → Shared σ ε β) (s : σ) :
    (p >>= f).solo s = match p.solo s with
      | (.ok a, s') => (f a).solo s'
      | (.error e, s') => (.error e, s') := by
  change (p.bind f).solo s = _
  induction p generalizing s with
  | done a => rfl
  | raise e => rfl
  | step act next ih => exact ih s (act s)

@[simp] theorem solo_attempt (p : Shared σ ε α) (s : σ) :
    (p.attempt : Shared σ ε' (Except ε α)).solo s = (.ok (p.solo s).1, (p.solo s).2) := by
  induction p generalizing s with
  | done a => rfl
  | raise e => rfl
  | step act next ih => exact ih s (act s)

/-- Alone on `s`, the program changes nothing, and `x` is the part `f` of its outcome. Kind: D -/
def Reads (p : Shared σ ε α) (s : σ) (f : α → β) (x : Except ε β) : Prop :=
  ∃ y, p.solo s = (y, s) ∧ y.map f = x

theorem Reads.bind {γ δ : Type} {p : Shared σ ε α} {q : α → Shared σ ε β} {s : σ} {f : α → γ} {g : β → δ}
    {x : Except ε γ} {k : γ → Except ε δ} (hp : Reads p s f x) (hq : ∀ a, Reads (q a) s g (k (f a))) :
    Reads (p >>= q) s g (x >>= k) := by
  obtain ⟨y, hy, rfl⟩ := hp
  rcases y with e | a
  · exact ⟨.error e, by rw [solo_bind, hy], rfl⟩
  · obtain ⟨z, hz, hzk⟩ := hq a
    refine ⟨z, ?_, hzk⟩
    rw [solo_bind, hy]
    exact hz

theorem Reads.of_ofExcept (x : Except ε α) (s : σ) : Reads (ofExcept x) s id x :=
  ⟨x, solo_ofExcept x s, by cases x <;> rfl⟩

theorem Reads.look_bind {γ : Type} {f : σ → α} {q : α → Shared σ ε β} {s : σ} {g : β → γ} {x : Except ε γ}
    (h : Reads (q (f s)) s g x) : Reads (look f >>= q) s g x :=
  h

theorem Reads.of_pure (a : α) (s : σ) (f : α → β) : Reads (pure a : Shared σ ε α) s f (pure (f a)) :=
  ⟨.ok a, rfl, rfl⟩

/-! ## Interleaved -/

/-- The end of a program. Kind: D -/
def finish : Except ε α → Shared σ ε α
  | .ok a => done a
  | .error e => raise e

/-- One step of an interleaving: the program makes an access, or the environment changes the store. Kind: D -/
inductive Step (env : σ → σ → Prop) : Shared σ ε α × σ → Shared σ ε α × σ → Prop
  | program (act : σ → σ) (next : σ → Shared σ ε α) (s : σ) : Step env (step act next, s) (next s, act s)
  | environment (p : Shared σ ε α) {s s' : σ} (h : env s s') : Step env (p, s) (p, s')

/-- A run to the end, with its outcome and the store it leaves. Kind: D -/
def Runs (env : σ → σ → Prop) (p : Shared σ ε α) (s : σ) (r : Except ε α) (s' : σ) : Prop :=
  Relation.ReflTransGen (Step env) (p, s) (finish r, s')

/-- An outcome of a program for some stores that its accesses find. Kind: D -/
inductive Yields : Shared σ ε α → Except ε α → Prop
  | done (a : α) : Yields (done a) (.ok a)
  | raise (e : ε) : Yields (raise e) (.error e)
  | step {act : σ → σ} {next : σ → Shared σ ε α} {r : Except ε α} (s : σ) (h : Yields (next s) r) :
      Yields (step act next) r

/-- Whatever the environment does, the outcome is one that the program yields. Kind: L -/
theorem Runs.yields {env : σ → σ → Prop} {p : Shared σ ε α} {s s' : σ} {r : Except ε α}
    (h : Runs env p s r s') : Yields p r := by
  have hall : ∀ c : Shared σ ε α × σ, Relation.ReflTransGen (Step env) c (finish r, s') →
      Yields c.1 r := by
    intro c hc
    induction hc using Relation.ReflTransGen.head_induction_on with
    | refl =>
      rcases r with e | a
      · exact Yields.raise e
      · exact Yields.done a
    | head hstep _ ih =>
      cases hstep with
      | program act next s => exact Yields.step s ih
      | environment p _ => exact ih
  exact hall (p, s) h

theorem Yields.of_bind {p : Shared σ ε α} {f : α → Shared σ ε β} {b : β}
    (h : Yields (p >>= f) (.ok b)) : ∃ a, Yields p (.ok a) ∧ Yields (f a) (.ok b) := by
  change Yields (p.bind f) (.ok b) at h
  induction p with
  | done a => exact ⟨a, Yields.done a, h⟩
  | raise e => cases h
  | step act next ih =>
    cases h with
    | step s h =>
      obtain ⟨a, ha, hb⟩ := ih s h
      exact ⟨a, Yields.step s ha, hb⟩

theorem Yields.of_pure {a b : α} (h : Yields (pure a : Shared σ ε α) (.ok b)) : b = a := by
  cases h
  rfl

theorem Yields.of_ofExcept {x : Except ε α} {b : α} (h : Yields (ofExcept x : Shared σ ε α) (.ok b)) :
    x = .ok b := by
  rcases x with e | a
  · cases h
  · cases h
    rfl

theorem Yields.of_attempt {p : Shared σ ε α} {r : Except ε α}
    (h : Yields (p.attempt : Shared σ ε' (Except ε α)) (.ok r)) : Yields p r := by
  induction p with
  | done a =>
    cases h
    exact Yields.done a
  | raise e =>
    cases h
    exact Yields.raise e
  | step act next ih =>
    cases h with
    | step s h => exact Yields.step s (ih s h)

/-! ## Schedules -/

/-- The run in which the environment moves before each access, as a schedule says. Kind: D -/
def disturbed (moves : ℕ → σ → σ) : ℕ → Shared σ ε α → σ → Except ε α × σ
  | _, done a, s => (.ok a, s)
  | _, raise e, s => (.error e, s)
  | k, step act next, s => disturbed moves (k + 1) (next (moves k s)) (act (moves k s))

/-- A schedule of moves of the environment is an interleaving. Kind: L -/
theorem runs_disturbed {env : σ → σ → Prop} {moves : ℕ → σ → σ}
    (hmoves : ∀ k s, Relation.ReflTransGen env s (moves k s)) (k : ℕ) (p : Shared σ ε α) (s : σ) :
    Runs env p s (disturbed moves k p s).1 (disturbed moves k p s).2 := by
  unfold Runs
  induction p generalizing k s with
  | done a => exact Relation.ReflTransGen.refl
  | raise e => exact Relation.ReflTransGen.refl
  | step act next ih =>
    have henv : Relation.ReflTransGen (Step env) (step act next, s) (step act next, moves k s) :=
      (hmoves k s).lift (fun s' => (step act next, s')) fun _ _ h => Step.environment _ h
    exact (henv.tail (Step.program act next (moves k s))).trans (ih (moves k s) (k + 1) _)

end Shared

end KarsaSec.Found
