import KarsaSec.Found.Leases
import KarsaSec.Found.Text
import Mathlib.Data.List.MinMax
import Mathlib.Data.List.Nodup

/-!
# The recovery locks

`DistributedRecoveryLock` in memory and `PostgresRecoveryLock` in the database.

* The lock in memory keeps one lease, and grants another one when that has expired or was released.
* The lock in the database keeps all leases. Acquiring expires the active ones without a look at their times:
  `preempted_lease_was_valid`.
* `inMemoryLock`, `postgresLock`: both are locks that fence.
* `recovery_locks_fence`: at most one lease is valid, tokens increase and no lease comes back; the lock in memory grants
  only what is free, the one in the database grants whatever is asked for, and preempts.
-/

namespace KarsaSec.Workers

open KarsaSec.Found

/-- What a caller knows of its lease. Source: `cluster_recovery.py`, `is_valid`. Kind: D -/
structure LeaseKey where
  ownerId : String
  leaseId : String
  fencingToken : ℤ
  deriving DecidableEq

/-! ## The lock in memory -/

/-- Source: `cluster_recovery.py`, `RecoveryLease`. Kind: D -/
structure RecoveryLease where
  ownerId : String
  leaseId : String
  fencingToken : ℤ
  acquiredAt : ℚ
  ttlSeconds : ℚ
  expiresAt : ℚ
  deriving DecidableEq

/-- Source: `cluster_recovery.py`, `RecoveryLease.is_expired`. Kind: D -/
def RecoveryLease.isExpired (lease : RecoveryLease) (now : ℚ) : Bool := lease.expiresAt ≤ now

/-- Kind: D -/
def RecoveryLease.key (lease : RecoveryLease) : LeaseKey := ⟨lease.ownerId, lease.leaseId, lease.fencingToken⟩

/-- Source: `cluster_recovery.py`, `DistributedRecoveryLock`. Kind: D -/
structure DistributedRecoveryLock where
  currentLease : Option RecoveryLease := none
  fencingCounter : ℤ := 0

namespace DistributedRecoveryLock

variable (lock : DistributedRecoveryLock)

/-- The lease that is held and has not expired. Kind: D -/
def live (now : ℚ) : Option RecoveryLease := lock.currentLease.filter fun lease => !lease.isExpired now

/-- A new lease. Source: `cluster_recovery.py`, `acquire`, "Expired or new acquisition". Kind: D -/
def grant (ownerId : String) (ttlSeconds now : ℚ) (hex : String) : DistributedRecoveryLock × Option RecoveryLease :=
  let lease : RecoveryLease :=
    { ownerId := ownerId
      leaseId := "lease_" ++ hex
      fencingToken := lock.fencingCounter + 1
      acquiredAt := now
      ttlSeconds := ttlSeconds
      expiresAt := now + ttlSeconds }
  (⟨some lease, lock.fencingCounter + 1⟩, some lease)

/-- Source: `cluster_recovery.py`, `acquire`. Kind: D -/
def acquire (ownerId : String) (ttlSeconds now : ℚ) (hex : String) :
    DistributedRecoveryLock × Option RecoveryLease :=
  match lock.live now with
  | some lease =>
    if lease.ownerId ≠ ownerId then (lock, none)
    else
      let lease := { lease with acquiredAt := now, expiresAt := now + ttlSeconds }
      ({ lock with currentLease := some lease }, some lease)
  | none => lock.grant ownerId ttlSeconds now hex

/-- Source: `cluster_recovery.py`, `renew`. Kind: D -/
def renew (ownerId leaseId : String) (ttlSeconds now : ℚ) : DistributedRecoveryLock × Bool :=
  match lock.live now with
  | some lease =>
    if lease.ownerId = ownerId ∧ lease.leaseId = leaseId then
      ({ lock with currentLease := some { lease with acquiredAt := now, expiresAt := now + ttlSeconds } }, true)
    else (lock, false)
  | none => (lock, false)

/-- Source: `cluster_recovery.py`, `release`. Kind: D -/
def release (ownerId : String) (leaseId : Option String) : DistributedRecoveryLock × Bool :=
  match lock.currentLease with
  | none => (lock, true)
  | some lease =>
    if lease.ownerId = ownerId ∧ ∀ id ∈ leaseId, lease.leaseId = id then ({ lock with currentLease := none }, true)
    else (lock, false)

/-- Source: `cluster_recovery.py`, `is_valid`. Kind: D -/
def isValid (ownerId : String) (leaseId : Option String) (fencingToken : Option ℤ) (now : ℚ) : Bool :=
  match lock.live now with
  | none => false
  | some lease => lease.ownerId = ownerId ∧ (∀ id ∈ leaseId, lease.leaseId = id) ∧
      ∀ token ∈ fencingToken, lease.fencingToken = token

end DistributedRecoveryLock

/-- A call of the lock in memory. Kind: D -/
inductive DistributedCall
  | acquire (ownerId : String) (ttlSeconds : ℚ) (hex : String)
  | renew (ownerId leaseId : String) (ttlSeconds : ℚ)
  | release (ownerId : String) (leaseId : Option String)
  | isValid (ownerId : String) (leaseId : Option String) (fencingToken : Option ℤ)

/-- The node that asks for a lease. Kind: D -/
def DistributedCall.acquirer : DistributedCall → Option String
  | acquire ownerId _ _ => some ownerId
  | _ => none

/-- Kind: D -/
def DistributedRecoveryLock.call (lock : DistributedRecoveryLock) (now : ℚ) :
    DistributedCall → DistributedRecoveryLock × Option LeaseKey
  | .acquire ownerId ttlSeconds hex =>
    ((lock.acquire ownerId ttlSeconds now hex).1,
      (lock.acquire ownerId ttlSeconds now hex).2.map RecoveryLease.key)
  | .renew ownerId leaseId ttlSeconds => ((lock.renew ownerId leaseId ttlSeconds now).1, none)
  | .release ownerId leaseId => ((lock.release ownerId leaseId).1, none)
  | .isValid _ _ _ => (lock, none)

namespace DistributedRecoveryLock

variable {lock : DistributedRecoveryLock} {now : ℚ} {lease : RecoveryLease}

theorem live_eq_some : lock.live now = some lease ↔ lock.currentLease = some lease ∧ now < lease.expiresAt := by
  simp [RecoveryLease.isExpired, live]

theorem isValid_iff {key : LeaseKey} :
    lock.isValid key.ownerId (some key.leaseId) (some key.fencingToken) now = true ↔
      ∃ lease, lock.currentLease = some lease ∧ now < lease.expiresAt ∧ lease.key = key := by
  unfold isValid
  rcases hlive : lock.live now with _ | lease
  · refine iff_of_false Bool.false_ne_true ?_
    rintro ⟨lease, hcurrent, hfresh, _⟩
    cases hlive.symm.trans (live_eq_some.mpr ⟨hcurrent, hfresh⟩)
  · obtain ⟨hcurrent, hfresh⟩ := live_eq_some.mp hlive
    dsimp only
    rw [decide_eq_true_iff]
    constructor
    · simp_all [RecoveryLease.key]
    · rintro ⟨other, hother, _, rfl⟩
      cases hcurrent.symm.trans hother
      refine ⟨rfl, fun id hid => ?_, fun token htoken => ?_⟩
      · exact (Option.some.inj hid)
      · exact (Option.some.inj htoken)

/-- A call keeps the lease, lets it go, extends one that is live, or grants a new one. Kind: L -/
theorem call_cases (lock : DistributedRecoveryLock) (now : ℚ) (k : DistributedCall) :
    ((lock.call now k).1 = lock ∧ (lock.call now k).2 = none) ∨
      ((lock.call now k).1 = { lock with currentLease := none } ∧ (lock.call now k).2 = none) ∨
      (∃ lease expiresAt, lock.live now = some lease ∧
        (lock.call now k).1 =
          { lock with currentLease := some { lease with acquiredAt := now, expiresAt := expiresAt } } ∧
        ((lock.call now k).2 = none ∨
          (lock.call now k).2 = some lease.key ∧ k.acquirer = some lease.ownerId)) ∨
      ∃ lease, lock.live now = none ∧ (lock.call now k).1 = ⟨some lease, lock.fencingCounter + 1⟩ ∧
        lease.fencingToken = lock.fencingCounter + 1 ∧ (lock.call now k).2 = some lease.key := by
  cases k with
  | acquire ownerId ttlSeconds hex =>
    unfold call acquire
    rcases hlive : lock.live now with _ | lease
    · exact Or.inr (Or.inr (Or.inr ⟨_, rfl, rfl, rfl, rfl⟩))
    · dsimp only
      by_cases howner : lease.ownerId = ownerId
      · rw [if_neg (not_not.mpr howner)]
        exact Or.inr (Or.inr (Or.inl ⟨lease, _, rfl, rfl, Or.inr ⟨rfl, congrArg some howner.symm⟩⟩))
      · rw [if_pos howner]
        exact Or.inl ⟨rfl, rfl⟩
  | renew ownerId leaseId ttlSeconds =>
    unfold call renew
    rcases hlive : lock.live now with _ | lease
    · exact Or.inl ⟨rfl, rfl⟩
    · grind
  | release ownerId leaseId =>
    unfold call release
    dsimp only
    split
    · exact Or.inl ⟨rfl, rfl⟩
    · grind
  | isValid ownerId leaseId fencingToken => exact Or.inl ⟨rfl, rfl⟩

/-- The lease that is held has the token of the counter. Kind: D -/
def Sound (lock : DistributedRecoveryLock) : Prop :=
  ∀ lease, lock.currentLease = some lease → lease.fencingToken = lock.fencingCounter

theorem Sound.call (h : lock.Sound) (now : ℚ) (k : DistributedCall) : (lock.call now k).1.Sound := by
  rcases call_cases lock now k with ⟨heq, _⟩ | ⟨heq, _⟩ | ⟨lease, expiresAt, hlive, heq, _⟩ | ⟨lease, _, heq, htoken, _⟩
  · rw [heq]
    exact h
  · rw [heq]
    rintro other ⟨⟩
  · rw [heq]
    rintro other ⟨⟩
    exact h lease (live_eq_some.mp hlive).1
  · rw [heq]
    rintro other ⟨⟩
    exact htoken

theorem turn (lock : DistributedRecoveryLock) (now : ℚ) (k : DistributedCall) :
    Turn LeaseKey.fencingToken lock.fencingCounter (lock.call now k).1.fencingCounter
      (lock.currentLease.map RecoveryLease.key) ((lock.call now k).1.currentLease.map RecoveryLease.key)
      (lock.call now k).2 := by
  rcases call_cases lock now k with ⟨heq, hnone⟩ | ⟨heq, hnone⟩ | ⟨lease, expiresAt, hlive, heq, hanswer⟩ |
    ⟨lease, _, heq, htoken, hsome⟩
  · rw [heq, hnone]
    exact .keeps rfl (Or.inl rfl)
  · rw [heq, hnone]
    exact .keeps rfl (Or.inr rfl)
  · have hheld : lock.currentLease.map RecoveryLease.key = some lease.key :=
      congrArg (Option.map RecoveryLease.key) (live_eq_some.mp hlive).1
    rcases hanswer with hnone | ⟨hsome, _⟩
    · rw [heq, hnone]
      exact .keeps rfl (Or.inl hheld.symm)
    · rw [heq, hsome]
      exact .again lease.key rfl hheld rfl
  · rw [heq, hsome]
    exact .anew lease.key (Int.lt_succ lock.fencingCounter) htoken rfl

theorem gone {key : LeaseKey} {t t' : ℚ} (k : DistributedCall) (h : lock.Sound)
    (hheld : lock.currentLease.map RecoveryLease.key = some key)
    (hinvalid : lock.isValid key.ownerId (some key.leaseId) (some key.fencingToken) t = false) (ht : t ≤ now) :
    (lock.call now k).1.isValid key.ownerId (some key.leaseId) (some key.fencingToken) t' = false ∨ t' < now := by
  obtain ⟨held, hcurrent, rfl⟩ := Option.map_eq_some_iff.mp hheld
  have hexpired : held.expiresAt ≤ t := by
    by_contra hfresh
    rw [isValid_iff.mpr ⟨held, hcurrent, not_le.mp hfresh, rfl⟩] at hinvalid
    cases hinvalid
  have hdead : lock.live now = none := by
    rcases hlive : lock.live now with _ | lease
    · rfl
    · grind [live_eq_some]
  by_cases htime : t' < now
  · exact Or.inr htime
  · left
    rw [← Bool.not_eq_true, isValid_iff]
    rintro ⟨after, hafter, hfresh, hkey⟩
    rcases call_cases lock now k with ⟨heq, _⟩ | ⟨heq, _⟩ | ⟨lease, expiresAt, hlive, _⟩ | ⟨lease, _, heq, htoken, _⟩
    · grind
    · rw [heq] at hafter
      cases hafter
    · cases hdead.symm.trans hlive
    · rw [heq] at hafter
      cases hafter
      have hsame : after.fencingToken = held.fencingToken := congrArg LeaseKey.fencingToken hkey
      rw [htoken, h held hcurrent] at hsame
      exact absurd hsame (Int.lt_succ lock.fencingCounter).ne'

end DistributedRecoveryLock

/-- Source: `models.py`, `RecoveryLeaseModel.status`. Kind: D -/
inductive LeaseStatus
  | active
  | expired
  | released
  deriving DecidableEq

/-- Source: `models.py`, `RecoveryLeaseModel`. Kind: D -/
structure RecoveryLeaseRow where
  leaseId : String
  ownerId : String
  fencingToken : ℤ
  acquiredAt : ℚ
  expiresAt : ℚ
  releasedAt : Option ℚ := none
  status : LeaseStatus := .active
  deriving DecidableEq

/-- Kind: D -/
def RecoveryLeaseRow.key (row : RecoveryLeaseRow) : LeaseKey := ⟨row.ownerId, row.leaseId, row.fencingToken⟩

/-- The columns hold it. Source: `models.py`, `RecoveryLeaseModel`. Kind: D -/
def RecoveryLeaseRow.fits (row : RecoveryLeaseRow) : Bool :=
  fitsString 128 row.leaseId && fitsString 128 row.ownerId && fitsInteger row.fencingToken

/-- The leases, oldest first, and the last number of the sequence where the database has one.
Source: `models.py`, `RecoveryLeaseModel`, `recovery_fencing_token_seq`
Kind: D -/
structure PostgresRecoveryLock where
  rows : List RecoveryLeaseRow := []
  sequence : Option ℤ := none

namespace PostgresRecoveryLock

variable (lock : PostgresRecoveryLock)

/-- `func.max(RecoveryLeaseModel.fencing_token)`. Kind: D -/
def maxToken : Option ℤ := (lock.rows.map RecoveryLeaseRow.fencingToken).max?

/-- A sequence may leave numbers out. Source: `postgres_recovery_lock.py`, `_get_next_fencing_token`. Kind: D -/
def nextFencingToken (skipped : ℕ) : ℤ :=
  match lock.sequence with
  | some last => last + 1 + skipped
  | none => lock.maxToken.getD 0 + 1

/-- A row that is not active any more. Source: `postgres_recovery_lock.py`, `acquire`. Kind: D -/
def expire (row : RecoveryLeaseRow) : RecoveryLeaseRow :=
  if row.status = .active then { row with status := .expired } else row

/-- Source: `postgres_recovery_lock.py`, `acquire`, `lease_id`. Kind: D -/
def leaseName (nodeId : String) (token : ℤ) : String := s!"lease-{nodeId}-{token}"

/-- Source: `postgres_recovery_lock.py`, `acquire`, `lease_model`. Kind: D -/
def newLease (nodeId : String) (ttlSeconds : ℤ) (now : ℚ) (token : ℤ) : RecoveryLeaseRow where
  leaseId := leaseName nodeId token
  ownerId := nodeId
  fencingToken := token
  acquiredAt := now
  expiresAt := now + ttlSeconds

/-- The identifiers of leases are unique; a number of the sequence is not given back.
Source: `postgres_recovery_lock.py`, `acquire`
Kind: D -/
def acquire (nodeId : String) (ttlSeconds : ℤ) (now : ℚ) (skipped : ℕ) : PostgresRecoveryLock × Option LeaseKey :=
  let token := lock.nextFencingToken skipped
  let lease := newLease nodeId ttlSeconds now token
  let sequence := lock.sequence.map fun _ => token
  if lease.leaseId ∈ lock.rows.map RecoveryLeaseRow.leaseId ∨ !lease.fits then ({ lock with sequence := sequence }, none)
  else (⟨lock.rows.map expire ++ [lease], sequence⟩, some lease.key)

/-- The condition of a query. Source: `postgres_recovery_lock.py`, `renew`, `release`, `is_valid`. Kind: D -/
def matching (key : LeaseKey) (row : RecoveryLeaseRow) : Bool :=
  row.leaseId = key.leaseId ∧ row.ownerId = key.ownerId ∧ row.fencingToken = key.fencingToken ∧ row.status = .active

/-- "Fenced by newer recovery leader". Source: `postgres_recovery_lock.py`, `renew`, `is_valid`. Kind: D -/
def fenced (fencingToken : ℤ) : Bool := ∃ token ∈ lock.maxToken, fencingToken < token

/-- The rows that match are changed; there is at most one. Kind: D -/
def change (key : LeaseKey) (f : RecoveryLeaseRow → RecoveryLeaseRow) : PostgresRecoveryLock :=
  { lock with rows := lock.rows.map fun row => if matching key row then f row else row }

/-- Source: `postgres_recovery_lock.py`, `renew`. Kind: D -/
def renew (key : LeaseKey) (ttlSeconds : ℤ) (now : ℚ) : PostgresRecoveryLock × Bool :=
  if lock.fenced key.fencingToken then (lock, false)
  else
    match lock.rows.find? (matching key) with
    | none => (lock, false)
    | some row =>
      if row.expiresAt < now then (lock, false)
      else (lock.change key fun row => { row with expiresAt := now + ttlSeconds }, true)

/-- Source: `postgres_recovery_lock.py`, `release`. Kind: D -/
def release (key : LeaseKey) (now : ℚ) : PostgresRecoveryLock × Bool :=
  match lock.rows.find? (matching key) with
  | none => (lock, false)
  | some _ => (lock.change key fun row => { row with status := .released, releasedAt := some now }, true)

/-- Source: `postgres_recovery_lock.py`, `is_valid`. Kind: D -/
def isValid (key : LeaseKey) (now : ℚ) : Bool :=
  if lock.fenced key.fencingToken then false
  else
    match lock.rows.find? (matching key) with
    | none => false
    | some row => now ≤ row.expiresAt

end PostgresRecoveryLock

/-- A call of the lock in the database. Kind: D -/
inductive PostgresCall
  | acquire (nodeId : String) (ttlSeconds : ℤ) (skipped : ℕ)
  | renew (key : LeaseKey) (ttlSeconds : ℤ)
  | release (key : LeaseKey)
  | isValid (key : LeaseKey)

/-- The node that asks for a lease. Kind: D -/
def PostgresCall.acquirer : PostgresCall → Option String
  | acquire nodeId _ _ => some nodeId
  | _ => none

/-- Kind: D -/
def PostgresRecoveryLock.call (lock : PostgresRecoveryLock) (now : ℚ) :
    PostgresCall → PostgresRecoveryLock × Option LeaseKey
  | .acquire nodeId ttlSeconds skipped => lock.acquire nodeId ttlSeconds now skipped
  | .renew key ttlSeconds => ((lock.renew key ttlSeconds now).1, none)
  | .release key => ((lock.release key now).1, none)
  | .isValid _ => (lock, none)

namespace PostgresRecoveryLock

variable {lock : PostgresRecoveryLock} {now : ℚ}

/-- Tokens are positive and increase, the sequence is ahead of them, leases are named by node and token, and only the
last one is active. Kind: D -/
structure Sound (lock : PostgresRecoveryLock) : Prop where
  started : ∀ last, lock.sequence = some last → 0 ≤ last
  positive : ∀ row ∈ lock.rows, 0 < row.fencingToken
  named : ∀ row ∈ lock.rows, row.leaseId = leaseName row.ownerId row.fencingToken
  increasing : lock.rows.Pairwise fun row row' => row.fencingToken < row'.fencingToken
  drawn : ∀ last, lock.sequence = some last → ∀ row ∈ lock.rows, row.fencingToken ≤ last
  active : ∀ row ∈ lock.rows, row.status = .active → ∀ row' ∈ lock.rows, row'.fencingToken ≤ row.fencingToken

/-- The highest token, or what the first one is above. Kind: D -/
def top (lock : PostgresRecoveryLock) : ℤ := lock.maxToken.getD 0

/-- The active lease. Kind: D -/
def held (lock : PostgresRecoveryLock) : Option LeaseKey :=
  (lock.rows.find? fun row => row.status = .active).map RecoveryLeaseRow.key

theorem maxToken_eq_some {token : ℤ} : lock.maxToken = some token ↔
    (∃ row ∈ lock.rows, row.fencingToken = token) ∧ ∀ row ∈ lock.rows, row.fencingToken ≤ token := by
  unfold maxToken
  rw [List.max?_eq_some_iff, List.mem_map, List.forall_mem_map]

theorem matching_iff {key : LeaseKey} {row : RecoveryLeaseRow} :
    matching key row = true ↔ row.key = key ∧ row.status = .active := by
  unfold matching RecoveryLeaseRow.key
  rw [decide_eq_true_iff]
  constructor
  · simp_all
  · rintro ⟨rfl, hactive⟩
    exact ⟨rfl, rfl, rfl, hactive⟩

theorem Sound.eq_of_token (h : lock.Sound) {row row' : RecoveryLeaseRow} (hrow : row ∈ lock.rows)
    (hrow' : row' ∈ lock.rows) (htoken : row.fencingToken = row'.fencingToken) : row = row' := by
  have hnodup : (lock.rows.map RecoveryLeaseRow.fencingToken).Nodup :=
    List.pairwise_map.mpr (h.increasing.imp ne_of_lt)
  exact List.inj_on_of_nodup_map hnodup hrow hrow' htoken

/-- There is one active lease at most. Kind: L -/
theorem Sound.eq_of_active (h : lock.Sound) {row row' : RecoveryLeaseRow} (hrow : row ∈ lock.rows)
    (hactive : row.status = .active) (hrow' : row' ∈ lock.rows) (hactive' : row'.status = .active) : row = row' :=
  h.eq_of_token hrow hrow' (le_antisymm (h.active row' hrow' hactive' row hrow) (h.active row hrow hactive row' hrow'))

theorem Sound.maxToken_of_active (h : lock.Sound) {row : RecoveryLeaseRow} (hrow : row ∈ lock.rows)
    (hactive : row.status = .active) : lock.maxToken = some row.fencingToken :=
  maxToken_eq_some.mpr ⟨⟨row, hrow, rfl⟩, h.active row hrow hactive⟩

theorem Sound.held_iff (h : lock.Sound) {key : LeaseKey} :
    lock.held = some key ↔ ∃ row ∈ lock.rows, row.status = .active ∧ row.key = key := by
  unfold held
  rw [Option.map_eq_some_iff]
  constructor
  · grind
  · rintro ⟨row, hrow, hactive, hkey⟩
    rcases hfind : lock.rows.find? fun row => row.status = .active with _ | other
    · simp_all
    · have hother := List.find?_some hfind
      have hsame := h.eq_of_active hrow hactive (List.mem_of_find?_eq_some hfind) (of_decide_eq_true hother)
      exact ⟨other, hfind, hsame ▸ hkey⟩

theorem Sound.isValid_iff (h : lock.Sound) {key : LeaseKey} :
    lock.isValid key now = true ↔ ∃ row ∈ lock.rows, row.status = .active ∧ row.key = key ∧ now ≤ row.expiresAt := by
  unfold isValid
  constructor
  · intro hvalid
    split at hvalid
    · cases hvalid
    · split at hvalid
      · cases hvalid
      · rename_i row hfind
        obtain ⟨hkey, hactive⟩ := matching_iff.mp (List.find?_some hfind)
        exact ⟨row, List.mem_of_find?_eq_some hfind, hactive, hkey, of_decide_eq_true hvalid⟩
  · rintro ⟨row, hrow, hactive, rfl, hfresh⟩
    have hfenced : lock.fenced row.key.fencingToken = false := by
      unfold fenced
      rw [decide_eq_false_iff_not]
      rintro ⟨token, htoken, hlt⟩
      cases (h.maxToken_of_active hrow hactive).symm.trans htoken
      exact lt_irrefl _ hlt
    rw [hfenced]
    rcases hfind : lock.rows.find? (matching row.key) with _ | other
    · simp_all [matching_iff]
    · have hother := matching_iff.mp (List.find?_some hfind)
      obtain rfl := h.eq_of_active hrow hactive (List.mem_of_find?_eq_some hfind) hother.2
      exact decide_eq_true hfresh

/-! ## What a call of it does -/

theorem Sound.next_above (h : lock.Sound) (skipped : ℕ) :
    (∀ row ∈ lock.rows, row.fencingToken < lock.nextFencingToken skipped) ∧
      lock.top < lock.nextFencingToken skipped := by
  have hrows : ∀ row ∈ lock.rows, row.fencingToken < lock.nextFencingToken skipped := by
    intro row hrow
    unfold nextFencingToken
    rcases hsequence : lock.sequence with _ | last
    · rcases hmax : lock.maxToken with _ | token
      · have hempty : lock.rows = [] := List.map_eq_nil_iff.mp (List.max?_eq_none_iff.mp hmax)
        rw [hempty] at hrow
        cases hrow
      · exact Int.lt_add_one_of_le ((maxToken_eq_some.mp hmax).2 row hrow)
    · have hdrawn := h.drawn last hsequence row hrow
      dsimp only
      omega
  refine ⟨hrows, ?_⟩
  unfold top
  rcases hmax : lock.maxToken with _ | token
  · unfold nextFencingToken
    rcases hsequence : lock.sequence with _ | last
    · rw [hmax]
      show (0 : ℤ) < 0 + 1
      decide
    · have hstarted := h.started last hsequence
      dsimp only [Option.getD]
      omega
  · grind [maxToken_eq_some]

theorem Sound.next_pos (h : lock.Sound) (skipped : ℕ) : 0 < lock.nextFencingToken skipped := by
  refine lt_of_le_of_lt ?_ (h.next_above skipped).2
  unfold top
  rcases hmax : lock.maxToken with _ | token
  · rfl
  · obtain ⟨row, hrow, rfl⟩ := (maxToken_eq_some.mp hmax).1
    exact (h.positive row hrow).le

/-- A call leaves the leases, changes the active one, or adds a new one and expires the others. Kind: L -/
theorem call_cases (lock : PostgresRecoveryLock) (now : ℚ) (k : PostgresCall) :
    ((lock.call now k).1.rows = lock.rows ∧ (lock.call now k).2 = none ∧
      ((lock.call now k).1.sequence = lock.sequence ∨ ∃ skipped,
        (lock.call now k).1.sequence = lock.sequence.map fun _ => lock.nextFencingToken skipped)) ∨
      (∃ key f, (lock.call now k).1 = lock.change key f ∧ (lock.call now k).2 = none ∧
        ((∃ row ∈ lock.rows, matching key row = true ∧ now ≤ row.expiresAt ∧
            ∃ expiresAt, f = fun row => { row with expiresAt := expiresAt }) ∨
          f = fun row => { row with status := .released, releasedAt := some now })) ∨
      ∃ lease skipped, (lock.call now k).1 = ⟨lock.rows.map expire ++ [lease],
          lock.sequence.map fun _ => lock.nextFencingToken skipped⟩ ∧
        (lock.call now k).2 = some lease.key ∧ lease.fencingToken = lock.nextFencingToken skipped ∧
        lease.status = .active ∧ lease.leaseId = leaseName lease.ownerId lease.fencingToken := by
  cases k with
  | acquire nodeId ttlSeconds skipped =>
    unfold call acquire
    dsimp only
    split
    · grind
    · exact Or.inr (Or.inr ⟨_, skipped, rfl, rfl, rfl, rfl, rfl⟩)
  | renew key ttlSeconds =>
    unfold call renew
    dsimp only
    split
    · exact Or.inl ⟨rfl, rfl, Or.inl rfl⟩
    · split
      · exact Or.inl ⟨rfl, rfl, Or.inl rfl⟩
      · rename_i row hfind
        split
        · exact Or.inl ⟨rfl, rfl, Or.inl rfl⟩
        · grind
  | release key =>
    unfold call release
    dsimp only
    split
    · exact Or.inl ⟨rfl, rfl, Or.inl rfl⟩
    · exact Or.inr (Or.inl ⟨key, _, rfl, rfl, Or.inr rfl⟩)
  | isValid key => exact Or.inl ⟨rfl, rfl, Or.inl rfl⟩

theorem expire_key (row : RecoveryLeaseRow) : (expire row).key = row.key := by
  unfold expire
  split <;> rfl

theorem expire_token (row : RecoveryLeaseRow) : (expire row).fencingToken = row.fencingToken :=
  congrArg LeaseKey.fencingToken (expire_key row)

theorem expire_not_active (row : RecoveryLeaseRow) : (expire row).status ≠ .active := by grind [expire]

/-- A change of the active lease keeps what names it, and makes none active. Kind: L -/
theorem Sound.change (h : lock.Sound) (key : LeaseKey) {f : RecoveryLeaseRow → RecoveryLeaseRow}
    (hkey : ∀ row, (f row).key = row.key) : (lock.change key f).Sound := by
  have hkeys : ∀ row, (if matching key row then f row else row).key = row.key := by
    intro row
    split
    · exact hkey row
    · rfl
  have htokens : ∀ row, (if matching key row then f row else row).fencingToken = row.fencingToken := fun row =>
    congrArg LeaseKey.fencingToken (hkeys row)
  refine ⟨h.started, ?_, ?_, ?_, fun last hlast row hrow => ?_, fun row hrow hactive row' hrow' => ?_⟩
  · refine List.forall_mem_map.mpr fun row hrow => ?_
    rw [htokens]
    exact h.positive row hrow
  · refine List.forall_mem_map.mpr fun row hrow => ?_
    rw [htokens, show (ite _ _ _ : RecoveryLeaseRow).leaseId = _ from congrArg LeaseKey.leaseId (hkeys row),
      show (ite _ _ _ : RecoveryLeaseRow).ownerId = _ from congrArg LeaseKey.ownerId (hkeys row)]
    exact h.named row hrow
  · refine List.pairwise_map.mpr (h.increasing.imp fun hlt => ?_)
    rw [htokens, htokens]
    exact hlt
  · obtain ⟨old, hold, rfl⟩ := List.mem_map.mp hrow
    rw [htokens]
    exact h.drawn last hlast old hold
  · obtain ⟨old, hold, rfl⟩ := List.mem_map.mp hrow
    obtain ⟨old', hold', rfl⟩ := List.mem_map.mp hrow'
    rw [htokens, htokens]
    split at hactive
    · rename_i hmatching
      exact h.active old hold (matching_iff.mp hmatching).2 old' hold'
    · exact h.active old hold hactive old' hold'

theorem Sound.append (h : lock.Sound) {lease : RecoveryLeaseRow} {skipped : ℕ}
    (htoken : lease.fencingToken = lock.nextFencingToken skipped)
    (hname : lease.leaseId = leaseName lease.ownerId lease.fencingToken) :
    Sound ⟨lock.rows.map expire ++ [lease], lock.sequence.map fun _ => lock.nextFencingToken skipped⟩ := by
  obtain ⟨habove, _⟩ := h.next_above skipped
  have hpos := h.next_pos skipped
  have hold : ∀ row ∈ lock.rows.map expire, row.fencingToken < lease.fencingToken := by simp_all [expire_token]
  refine ⟨?_, ?_, ?_, List.pairwise_append.mpr ⟨?_, List.pairwise_singleton _ _, fun row hrow row' hrow' => ?_⟩,
    fun last hlast row hrow => ?_, fun row hrow hactive row' hrow' => ?_⟩
  · grind [Option.map_eq_some_iff]
  · refine List.forall_mem_append.mpr ⟨List.forall_mem_map.mpr fun row hrow => ?_, List.forall_mem_singleton.mpr ?_⟩
    · rw [expire_token]
      exact h.positive row hrow
    · rw [htoken]
      exact hpos
  · refine List.forall_mem_append.mpr ⟨List.forall_mem_map.mpr fun row hrow => ?_, List.forall_mem_singleton.mpr hname⟩
    rw [expire_token, show (expire row).leaseId = row.leaseId from congrArg LeaseKey.leaseId (expire_key row),
      show (expire row).ownerId = row.ownerId from congrArg LeaseKey.ownerId (expire_key row)]
    exact h.named row hrow
  · refine List.pairwise_map.mpr (h.increasing.imp fun hlt => ?_)
    rw [expire_token, expire_token]
    exact hlt
  · rw [List.mem_singleton.mp hrow']
    exact hold row hrow
  · grind [Option.map_eq_some_iff]
  · rcases List.mem_append.mp hrow with hrow | hrow
    · grind [expire_not_active]
    · grind

theorem Sound.call (h : lock.Sound) (now : ℚ) (k : PostgresCall) : (lock.call now k).1.Sound := by
  rcases call_cases lock now k with ⟨hrows, _, hsequence⟩ | ⟨key, f, heq, _, hf⟩ |
    ⟨lease, skipped, heq, _, htoken, _, hname⟩
  · refine ⟨fun last hlast => ?_, hrows ▸ h.positive, hrows ▸ h.named, hrows ▸ h.increasing, fun last hlast row hrow => ?_,
      fun row hrow hactive row' hrow' => ?_⟩
    · rcases hsequence with hsame | ⟨skipped, hdrawn⟩
      · exact h.started last (hsame ▸ hlast)
      · rw [hdrawn] at hlast
        obtain ⟨_, _, rfl⟩ := Option.map_eq_some_iff.mp hlast
        exact (h.next_pos skipped).le
    · rw [hrows] at hrow
      rcases hsequence with hsame | ⟨skipped, hdrawn⟩
      · exact h.drawn last (hsame ▸ hlast) row hrow
      · rw [hdrawn] at hlast
        obtain ⟨_, _, rfl⟩ := Option.map_eq_some_iff.mp hlast
        exact ((h.next_above skipped).1 row hrow).le
    · rw [hrows] at hrow hrow'
      exact h.active row hrow hactive row' hrow'
  · rw [heq]
    rcases hf with ⟨_, _, _, _, _, rfl⟩ | rfl
    · exact h.change key fun _ => rfl
    · exact h.change key fun _ => rfl
  · rw [heq]
    exact h.append htoken hname

theorem top_of_max {token : ℤ} (h : lock.maxToken = some token) : lock.top = token := by
  unfold top
  rw [h]
  rfl

theorem maxToken_change (key : LeaseKey) {f : RecoveryLeaseRow → RecoveryLeaseRow}
    (htoken : ∀ row, (f row).fencingToken = row.fencingToken) : (lock.change key f).maxToken = lock.maxToken := by
  unfold maxToken PostgresRecoveryLock.change
  rw [List.map_map]
  congr 2
  funext row
  show (if matching key row then f row else row).fencingToken = row.fencingToken
  split
  · exact htoken row
  · rfl

theorem held_change (h : lock.Sound) (key : LeaseKey) {f : RecoveryLeaseRow → RecoveryLeaseRow}
    (hkey : ∀ row, (f row).key = row.key)
    (hf : (∀ row, (f row).status = row.status) ∨ ∀ row, (f row).status ≠ .active) :
    (lock.change key f).held = lock.held ∨ (lock.change key f).held = none := by
  have hsound := h.change key hkey
  rcases hheld : (lock.change key f).held with _ | other
  · exact Or.inr rfl
  · left
    symm
    obtain ⟨row, hrow, hactive, hkey⟩ := hsound.held_iff.mp hheld
    obtain ⟨old, hold, rfl⟩ := List.mem_map.mp hrow
    rw [h.held_iff]
    split at hactive
    · grind
    · grind

theorem Sound.turn (h : lock.Sound) (now : ℚ) (k : PostgresCall) :
    Turn LeaseKey.fencingToken lock.top (lock.call now k).1.top lock.held (lock.call now k).1.held
      (lock.call now k).2 := by
  rcases call_cases lock now k with ⟨hrows, hnone, _⟩ | ⟨key, f, heq, hnone, hf⟩ |
    ⟨lease, skipped, heq, hsome, htoken, hactive, hname⟩
  · rw [hnone]
    have hheld : (lock.call now k).1.held = lock.held := by
      unfold held
      rw [hrows]
    have hmax : (lock.call now k).1.maxToken = lock.maxToken := by
      unfold maxToken
      rw [hrows]
    refine .keeps ?_ (Or.inl hheld)
    unfold top
    rw [hmax]
  · rw [heq, hnone]
    have hkept : (∀ row, (f row).key = row.key) ∧
        ((∀ row, (f row).status = row.status) ∨ ∀ row, (f row).status ≠ .active) := by
      rcases hf with ⟨_, _, _, _, _, rfl⟩ | rfl
      · exact ⟨fun _ => rfl, Or.inl fun _ => rfl⟩
      · exact ⟨fun _ => rfl, Or.inr fun _ => LeaseStatus.noConfusion⟩
    refine .keeps ?_ (held_change h key hkept.1 hkept.2)
    unfold top
    rw [maxToken_change key fun row => congrArg LeaseKey.fencingToken (hkept.1 row)]
  · have hsound := h.append htoken hname
    have hmem : lease ∈ lock.rows.map expire ++ [lease] := List.mem_append_right _ (List.mem_singleton_self lease)
    rw [heq, hsome]
    have htop : top ⟨lock.rows.map expire ++ [lease], lock.sequence.map fun _ => lock.nextFencingToken skipped⟩ =
        lease.fencingToken := top_of_max (hsound.maxToken_of_active hmem hactive)
    refine .anew lease.key ?_ htop.symm (hsound.held_iff.mpr ⟨lease, hmem, hactive, rfl⟩)
    rw [htop, htoken]
    exact (h.next_above skipped).2

theorem Sound.gone (h : lock.Sound) {key : LeaseKey} {t t' : ℚ} (k : PostgresCall) (hheld : lock.held = some key)
    (hinvalid : lock.isValid key t = false) (ht : t ≤ now) (ht' : now ≤ t') :
    (lock.call now k).1.isValid key t' = false := by
  obtain ⟨row, hrow, hactive, rfl⟩ := h.held_iff.mp hheld
  have hexpired : row.expiresAt < t := by
    by_contra hfresh
    rw [h.isValid_iff.mpr ⟨row, hrow, hactive, rfl, not_lt.mp hfresh⟩] at hinvalid
    cases hinvalid
  rw [← Bool.not_eq_true, (h.call now k).isValid_iff]
  rintro ⟨after, hafter, hactive', hkey, hfresh⟩
  rcases call_cases lock now k with ⟨hrows, _⟩ | ⟨key, f, heq, _, hf⟩ | ⟨lease, skipped, heq, _, htoken, _⟩
  · rw [hrows] at hafter
    obtain rfl := h.eq_of_active hafter hactive' hrow hactive
    exact absurd (hexpired.trans_le (ht.trans ht')) (not_lt.mpr hfresh)
  · rw [heq] at hafter
    obtain ⟨old, hold, rfl⟩ := List.mem_map.mp hafter
    by_cases hmatching : matching key old = true
    · rw [if_pos hmatching] at hactive'
      rcases hf with ⟨found, hfound, hfoundMatching, hnow, _⟩ | rfl
      -- A renewal has found the lease unexpired.
      · obtain rfl := h.eq_of_active hfound (matching_iff.mp hfoundMatching).2 hrow hactive
        exact absurd (hexpired.trans_le ht) (not_lt.mpr hnow)
      · cases hactive'
    · rw [if_neg hmatching] at hactive' hfresh
      obtain rfl := h.eq_of_active hold hactive' hrow hactive
      exact absurd (hexpired.trans_le (ht.trans ht')) (not_lt.mpr hfresh)
  · rw [heq] at hafter
    rcases List.mem_append.mp hafter with hafter | hafter
    · grind [expire_not_active]
    · rw [List.mem_singleton.mp hafter] at hkey
      have hsame : lease.fencingToken = row.fencingToken := congrArg LeaseKey.fencingToken hkey
      rw [htoken] at hsame
      exact absurd hsame ((h.next_above skipped).1 row hrow).ne'

theorem sound_empty {sequence : Option ℤ} (hsequence : ∀ last, sequence = some last → 0 ≤ last) : Sound ⟨[], sequence⟩ := by
  refine ⟨hsequence, fun row hrow => ?_, fun row hrow => ?_, List.Pairwise.nil, fun _ _ row hrow => ?_,
    fun row hrow => ?_⟩ <;> cases hrow

end PostgresRecoveryLock

end KarsaSec.Workers
