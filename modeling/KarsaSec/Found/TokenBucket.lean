import Mathlib.Algebra.Order.Field.Basic
import Mathlib.Tactic.Linarith
import Mathlib.Tactic.Ring

/-!
# Token buckets

A bucket fills with time, up to its size, and is emptied by what is granted from it, in floating point numbers.

* `Rounding` is what the operations on floating point numbers do to an exact result.
* `refill` is what is in a bucket after some time.
* `Accounts` bounds what was granted since a first moment by a capacity and a rate; a bucket that is no larger and no faster
  (`Fits`) keeps it when it is refilled forwards and when something is granted from it, as long as nothing is rounded up.
-/

namespace KarsaSec.Found

variable {K : Type*} [Field K] [LinearOrder K] [IsStrictOrderedRing K]

/-! ## Rounding -/

/-- How the results of operations on finite floating point numbers are rounded: in order, and a number of the format, as the
natural numbers up to `2 ^ 53` are, is left as it is. Kind: D -/
structure Rounding (K : Type*) [Field K] [LinearOrder K] where
  round : K → K
  mono : Monotone round
  idem : ∀ x, round (round x) = round x
  natural : ∀ n : ℕ, n ≤ 2 ^ 53 → round n = n

instance : CoeFun (Rounding K) fun _ => K → K := ⟨Rounding.round⟩

namespace Rounding

/-- Nothing is rounded. Kind: D -/
def exact : Rounding K := ⟨id, monotone_id, fun _ => rfl, fun _ _ => rfl⟩

variable (fl : Rounding K)

omit [IsStrictOrderedRing K]

theorem zero : fl 0 = 0 := by simpa using fl.natural 0 (Nat.zero_le _)

theorem one : fl 1 = 1 := by simpa using fl.natural 1 (by norm_num)

theorem nonneg {x : K} (h : 0 ≤ x) : 0 ≤ fl x := by
  have hround := fl.mono h
  rwa [fl.zero] at hround

/-- A number of the format stays below what lies above it. Kind: L -/
theorem le_round {x y : K} (hx : fl x = x) (h : x ≤ y) : x ≤ fl y := by
  have hround := fl.mono h
  rwa [hx] at hround

theorem round_le {x y : K} (hy : fl y = y) (h : x ≤ y) : fl x ≤ y := by
  have hround := fl.mono h
  rwa [hy] at hround

end Rounding

/-! ## Buckets -/

variable {fl : Rounding K}

/-- What is in a bucket of the given size and rate at `now`; time that runs backwards adds nothing.
Kind: D -/
def refill (fl : Rounding K) (size rate last level now : K) : K :=
  min size (fl (level + fl (max 0 (fl (now - last)) * rate)))

omit [IsStrictOrderedRing K] in
theorem refill_le_size (size rate last level now : K) : refill fl size rate last level now ≤ size :=
  min_le_left _ _

/-- A bucket that is no larger and no faster than a capacity and a rate, and that holds no more than its size. Kind: D -/
structure Fits (fl : Rounding K) (capacity rate size rate' level : K) : Prop where
  size_le : size ≤ capacity
  level_le : level ≤ size
  rate_nonneg : 0 ≤ rate'
  rate_le : rate' ≤ rate
  size_float : fl size = size
  level_float : fl level = level

namespace Fits

variable {capacity rate size rate' level last now n : K}

theorem le_refill (h : Fits fl capacity rate size rate' level) : level ≤ Found.refill fl size rate' last level now := by
  refine le_min h.level_le (fl.le_round h.level_float ?_)
  have hgain : 0 ≤ fl (max 0 (fl (now - last)) * rate') := fl.nonneg (mul_nonneg (le_max_left _ _) h.rate_nonneg)
  linarith

omit [IsStrictOrderedRing K] in
theorem refill (h : Fits fl capacity rate size rate' level) :
    Fits fl capacity rate size rate' (Found.refill fl size rate' last level now) :=
  { h with
    level_le := refill_le_size _ _ _ _ _
    level_float := by rw [Found.refill, fl.mono.map_min, h.size_float, fl.idem] }

omit [IsStrictOrderedRing K] in
theorem spend (h : Fits fl capacity rate size rate' level) {left : K} (hleft : fl left ≤ size) :
    Fits fl capacity rate size rate' (fl left) :=
  { h with
    level_le := hleft
    level_float := fl.idem _ }

end Fits

/-- There is something in a bucket, and together with what was granted since `first` it is no more than the capacity and what the
rate has brought until `last`. Kind: D -/
structure Accounts (capacity rate first granted level last : K) : Prop where
  nonneg : 0 ≤ level
  spent : granted + level ≤ capacity + rate * (last - first)

namespace Accounts

variable {capacity rate first granted level last : K}

/-- A bucket that is no faster is refilled forwards, to no more than the time brings. Kind: L -/
theorem refill (h : Accounts capacity rate first granted level last) {rate' level' now : K} (hge : level ≤ level')
    (hle : level' ≤ level + (now - last) * rate') (hrate : rate' ≤ rate) (hlast : last ≤ now) :
    Accounts capacity rate first granted level' now := by
  have hgain : (now - last) * rate' ≤ (now - last) * rate :=
    mul_le_mul_of_nonneg_left hrate (sub_nonneg.mpr hlast)
  have hspent := h.spent
  refine ⟨h.nonneg.trans hge, ?_⟩
  calc granted + level'
      ≤ granted + level + (now - last) * rate := by linarith
    _ ≤ capacity + rate * (last - first) + (now - last) * rate := by linarith
    _ = capacity + rate * (now - first) := by ring

theorem spend (h : Accounts capacity rate first granted level last) {n left : K} (hleft : left ≤ level - n) (hpos : 0 ≤ left) :
    Accounts capacity rate first (granted + n) left last := by
  have hspent := h.spent
  exact ⟨hpos, by linarith⟩

/-- **What is granted is at most the capacity and what the rate brings in the time.** Kind: P -/
theorem bound (h : Accounts capacity rate first granted level last) (hrate : 0 ≤ rate) {latest : K}
    (hlast : last ≤ latest) : granted ≤ capacity + rate * (latest - first) := by
  have hmore : rate * (last - first) ≤ rate * (latest - first) :=
    mul_le_mul_of_nonneg_left (sub_le_sub_right hlast first) hrate
  have hnonneg := h.nonneg
  have hspent := h.spent
  linarith

end Accounts

end KarsaSec.Found
