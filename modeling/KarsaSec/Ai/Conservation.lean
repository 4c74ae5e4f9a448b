import KarsaSec.Ai.Request
import Mathlib.Algebra.BigOperators.Group.List.Basic

/-!
# Where reserved tokens are

Runs of transactions on requests that share budgets, in any order.

* `outstanding` is what the requests of a budget that are not finished hold reserved; `Balanced` says
  that the budget has set exactly that aside.
* `Accounts.step` is one transaction; its log keeps what was done to budgets.
* `conserved_reached_iff`: tokens are conserved in every state of a run exactly when no transition
  finishes a request that still holds a reservation.
-/

namespace KarsaSec.Ai

open KarsaSec.Found AIRequestStateService

/-! ## Outstanding reservations -/

/-- What a request adds to the reservations of a budget. Kind: D -/
def AIRequest.holds (r : AIRequest) (budgetId : String) : ℤ :=
  if r.budgetId = budgetId ∧ r.status.isTerminal = false then r.reservedTokens else 0

/-- The reservations of the requests of a budget that are not finished. Kind: D -/
def outstanding (requests : Dict String AIRequest) (budgetId : String) : ℤ :=
  (requests.values.map fun r => r.holds budgetId).sum

theorem outstanding_set {requests : Dict String AIRequest} {id : String} {old : AIRequest}
    (h : requests.get? id = some old) (new : AIRequest) (budgetId : String) :
    outstanding (requests.set id new) budgetId =
      outstanding requests budgetId - old.holds budgetId + new.holds budgetId := by
  obtain ⟨rest, hrest, hset⟩ := Dict.exists_values_perm h
  have hold := (hrest.map fun r => r.holds budgetId).sum_eq
  have hnew := ((hset new).map fun r => r.holds budgetId).sum_eq
  simp only [List.map_cons, List.sum_cons] at hold hnew
  unfold outstanding
  omega

theorem outstanding_set_new {requests : Dict String AIRequest} {id : String}
    (h : requests.get? id = none) (new : AIRequest) (budgetId : String) :
    outstanding (requests.set id new) budgetId =
      outstanding requests budgetId + new.holds budgetId := by
  unfold outstanding
  rw [Dict.values_set_of_not_mem (Dict.get?_eq_none.mp h)]
  simp

/-! ## Tables that operations keep -/

/-- What the operations keep of the request table. Kind: C -/
structure Tables.Regular (t : Tables) : Prop where
  nonneg : ∀ id r, t.requests.get? id = some r → 0 ≤ r.reservedTokens
  fresh : ∀ id r, t.requests.get? id = some r → r.status = .created → r.reservedTokens = 0
  funded : ∀ id r, t.requests.get? id = some r → 0 < r.reservedTokens →
    ∃ b, t.budgets.get? r.budgetId = some b

/-- Each budget has set aside what its unfinished requests hold. Kind: C -/
def Tables.Balanced (t : Tables) : Prop :=
  ∀ id b, t.budgets.get? id = some b → b.reservedTokens = outstanding t.requests id

theorem Tables.Regular.of_set {t : Tables} (h : t.Regular) {budgets : Budgets} {id : String}
    {row : AIRequest} (hbudgets : ∀ k b, t.budgets.get? k = some b → ∃ b', budgets.get? k = some b')
    (hnonneg : 0 ≤ row.reservedTokens)
    (hfresh : row.status = .created → row.reservedTokens = 0)
    (hfunded : 0 < row.reservedTokens → ∃ b, budgets.get? row.budgetId = some b) :
    Tables.Regular ⟨budgets, t.requests.set id row⟩ := by
  constructor
  · intro k r hget
    rw [Dict.get?_set] at hget
    split at hget
    · cases hget
      exact hnonneg
    · exact h.nonneg k r hget
  · intro k r hget hcreated
    rw [Dict.get?_set] at hget
    split at hget
    · cases hget
      exact hfresh hcreated
    · exact h.fresh k r hget hcreated
  · intro k r hget hpos
    rw [Dict.get?_set] at hget
    split at hget
    · cases hget
      exact hfunded hpos
    · obtain ⟨b, hb⟩ := h.funded k r hget hpos
      exact hbudgets _ b hb

/-- Changing a budget keeps every budget in the table. Kind: L -/
theorem get?_set_of_some {budgets : Budgets} {id k : String} {b b' : AIBudget}
    (h : budgets.get? k = some b) : ∃ b'', (budgets.set id b').get? k = some b'' := by
  rw [Dict.get?_set]
  split
  · exact ⟨b', rfl⟩
  · exact ⟨b, h⟩

/-- A request holds nothing of the budgets of others. Kind: L -/
theorem holds_of_ne {r : AIRequest} {budgetId : String} (h : budgetId ≠ r.budgetId) :
    r.holds budgetId = 0 := by
  unfold AIRequest.holds
  rw [if_neg]
  rintro ⟨heq, -⟩
  exact h heq.symm

/-- After a change to one request and at most its budget, tables are balanced exactly when that budget
has followed the request. Kind: L -/
theorem balanced_after_iff {t : Tables} (h : t.Balanced) {id : String} {old new : AIRequest}
    (hold : t.requests.get? id = some old) (hid : new.budgetId = old.budgetId) {budgets : Budgets}
    (hothers : ∀ k, k ≠ old.budgetId → budgets.get? k = t.budgets.get? k)
    {b b' : AIBudget} (hb : t.budgets.get? old.budgetId = some b)
    (hb' : budgets.get? old.budgetId = some b') :
    Tables.Balanced ⟨budgets, t.requests.set id new⟩ ↔
      b'.reservedTokens - b.reservedTokens =
        new.holds old.budgetId - old.holds old.budgetId := by
  have hbalanced := h old.budgetId b hb
  constructor
  · intro hafter
    have heq := hafter old.budgetId b' hb'
    rw [outstanding_set hold] at heq
    omega
  · intro hdiff k bk hk
    change budgets.get? k = some bk at hk
    show bk.reservedTokens = outstanding (t.requests.set id new) k
    rw [outstanding_set hold]
    by_cases hne : k = old.budgetId
    · subst hne
      cases hb'.symm.trans hk
      omega
    · have hother := h k bk ((hothers k hne).symm.trans hk)
      rw [holds_of_ne hne, holds_of_ne (hid ▸ hne)]
      omega

/-! ## Transactions -/

/-- The transactions on requests; `openBudget` is the arrival of a budget with its limits.
Source: `request.py`, `AIRequestStateService`
Kind: D -/
inductive RequestOp
  | openBudget (budgetId : String) (tokenLimit costLimitMicroUnits : ℕ)
  | create (requestId taskId budgetId promptHash contextHash : String)
  | reserve (requestId : String) (requestTokens : ℤ)
  | transition (requestId expectedStatus newStatus : String) (providerId modelId : Option String)
  | commit (requestId : String) (actualTokens actualCostMicroUnits : ℤ)
      (providerId modelId : Option String)
  | release (requestId targetStatus : String)

/-- What a transaction asks of the tables. Kind: D -/
def RequestOp.perform (accepts : AIRequest → Bool) (tables : Tables) : RequestOp → OpResult
  | .openBudget id tokenLimit costLimit =>
    if tables.budgets.contains id then
      .error ⟨.integrity, "UNIQUE constraint failed: ai_budgets.budget_id"⟩
    else
      .ok ({ tables with budgets := tables.budgets.set id ⟨tokenLimit, 0, 0, costLimit, 0⟩ }, [])
  | .create requestId taskId budgetId promptHash contextHash =>
    createRequest accepts tables requestId taskId budgetId promptHash contextHash
  | .reserve requestId n => reserveBudget tables requestId n
  | .transition requestId expected new providerId modelId =>
    transitionStatus tables requestId expected new providerId modelId
  | .commit requestId actualTokens cost providerId modelId =>
    commitExecution tables requestId actualTokens cost providerId modelId
  | .release requestId target => releaseReservation tables requestId target

/-- The tables, and what has been done to budgets so far. Kind: D -/
structure Accounts where
  tables : Tables
  log : List AccountEvent

/-- No tables and nothing done. Kind: D -/
def Accounts.empty : Accounts := ⟨⟨.empty, .empty⟩, []⟩

/-- One transaction: it is rolled back as a whole if it fails. Kind: D -/
def Accounts.step (accepts : AIRequest → Bool) (s : Accounts) (op : RequestOp) : Accounts :=
  match op.perform accepts s.tables with
  | .ok (tables, events) => ⟨tables, s.log ++ events⟩
  | .error _ => s

/-- A transition that goes through does not finish a request that still holds reserved tokens. Kind: C -/
def RequestOp.KeepsReservation (tables : Tables) : RequestOp → Prop
  | .transition requestId expected new _ _ =>
    ∀ request, tables.requests.get? requestId = some request → request.status.value = expected →
      ∀ status ∈ request.status.targets, RequestStatus.ofString? new = some status →
        status.isTerminal = true → request.reservedTokens = 0
  | _ => True

/-- A new row holds nothing. Kind: L -/
theorem create_effect {accepts : AIRequest → Bool} {t t' : Tables} {events : List AccountEvent}
    {requestId taskId budgetId promptHash contextHash : String} (h : t.Regular)
    (hok : createRequest accepts t requestId taskId budgetId promptHash contextHash =
      .ok (t', events)) : t'.Regular ∧ (t.Balanced → t'.Balanced) := by
  obtain ⟨-, rfl | ⟨hnone, rfl⟩⟩ := createRequest_ok hok
  · exact ⟨h, id⟩
  · refine ⟨h.of_set (fun _ b hb => ⟨b, hb⟩) le_rfl (fun _ => rfl) (fun hpos => absurd hpos ?_),
      fun hbal k b hb => ?_⟩
    · exact lt_irrefl _
    · have hsame := hbal k b hb
      show b.reservedTokens = outstanding (t.requests.set requestId _) k
      rw [outstanding_set_new hnone]
      simp [AIRequest.holds, hsame]

/-- A reservation is set aside in the budget. Source: `request.py`, `reserve_budget`. Kind: L -/
theorem reserve_effect {t t' : Tables} {events : List AccountEvent} {requestId : String} {n : ℤ}
    (h : t.Regular) (hok : reserveBudget t requestId n = .ok (t', events)) :
    t'.Regular ∧ (t.Balanced → t'.Balanced) := by
  rcases reserveBudget_ok hok with ⟨rfl, -⟩ | ⟨request, budget, hget, hcreated, hn, hb, rfl, -⟩
  · exact ⟨h, id⟩
  · refine ⟨h.of_set (fun k b hk => get?_set_of_some hk) hn.le (fun hk => by cases hk)
      (fun _ => ⟨_, Dict.get?_set_self _ _ _⟩), fun hbal => ?_⟩
    refine (balanced_after_iff hbal hget (by rfl) (fun k hk => Dict.get?_set_ne _ hk _) hb
      (Dict.get?_set_self _ _ _)).mpr ?_
    have hzero := h.fresh requestId request hget hcreated
    simp [AIRequest.holds, hcreated, hzero, RequestStatus.isTerminal]

/-- A commit gives the reservation back. Source: `request.py`, `commit_execution`. Kind: L -/
theorem commit_effect {t t' : Tables} {events : List AccountEvent} {requestId : String}
    {actualTokens cost : ℤ} {providerId modelId : Option String} (h : t.Regular)
    (hok : commitExecution t requestId actualTokens cost providerId modelId = .ok (t', events)) :
    t'.Regular ∧ (t.Balanced → t'.Balanced) := by
  rcases commitExecution_ok hok with ⟨rfl, -⟩ | ⟨request, budget, hget, hstatus, -, hb, rfl, -⟩
  · exact ⟨h, id⟩
  · refine ⟨h.of_set (fun k b hk => get?_set_of_some hk) le_rfl (fun _ => rfl)
      (fun _ => ⟨_, Dict.get?_set_self _ _ _⟩), fun hbal => ?_⟩
    refine (balanced_after_iff hbal hget (by rfl) (fun k hk => Dict.get?_set_ne _ hk _) hb
      (Dict.get?_set_self _ _ _)).mpr ?_
    simp [AIRequest.holds, hstatus, RequestStatus.isTerminal]

/-- A release gives the reservation back. Source: `request.py`, `release_reservation`. Kind: L -/
theorem release_effect {t t' : Tables} {events : List AccountEvent}
    {requestId targetStatus : String} (h : t.Regular)
    (hok : releaseReservation t requestId targetStatus = .ok (t', events)) :
    t'.Regular ∧ (t.Balanced → t'.Balanced) := by
  rcases releaseReservation_ok hok with
    ⟨rfl, -⟩ | ⟨request, status, budgets, hget, hactive, -, -, hbudgets, rfl, -⟩
  · exact ⟨h, id⟩
  · have hnonneg := h.nonneg requestId request hget
    have hrest : ∀ k, k ≠ request.budgetId → budgets.get? k = t.budgets.get? k := by grind [Dict.get?_set_ne]
    have hkeys : ∀ k b, t.budgets.get? k = some b → ∃ b', budgets.get? k = some b' := by
      intro k b hk
      rcases hbudgets with ⟨-, rfl⟩ | ⟨-, c, -, rfl⟩
      · exact ⟨b, hk⟩
      · exact get?_set_of_some hk
    refine ⟨h.of_set hkeys le_rfl (fun _ => rfl) (fun hpos => absurd hpos (lt_irrefl _)),
      fun hbal => ?_⟩
    rcases hbudgets with ⟨hle, rfl⟩ | ⟨hpos, b, hb, rfl⟩
    · -- nothing was reserved
      intro k b hk
      have hsame := hbal k b hk
      have hzero : request.reservedTokens = 0 := by omega
      show b.reservedTokens = outstanding (t.requests.set requestId _) k
      rw [outstanding_set hget]
      simp [AIRequest.holds, hzero, hsame]
    · simp_all [balanced_after_iff, AIRequest.holds]

/-- A transition keeps tables balanced exactly when it does not finish a request that holds a
reservation. Source: `request.py`, `transition_status`. Kind: P -/
theorem transition_effect {t t' : Tables} {events : List AccountEvent}
    {requestId expected new : String} {providerId modelId : Option String} (h : t.Regular)
    (hok : transitionStatus t requestId expected new providerId modelId = .ok (t', events)) :
    t'.Regular ∧ (t.Balanced → (t'.Balanced ↔
      (RequestOp.transition requestId expected new providerId modelId).KeepsReservation t)) := by
  obtain ⟨request, status, hget, rfl, hstatus, htarget, -, rfl⟩ := transitionStatus_ok hok
  have hnonneg := h.nonneg requestId request hget
  have hactive : request.status.isTerminal = false := by
    rcases hs : request.status <;> first | rfl | (rw [hs] at htarget; exact absurd htarget List.not_mem_nil)
  have hkeeps : (RequestOp.transition requestId request.status.value new providerId
      modelId).KeepsReservation t ↔ (status.isTerminal = true → request.reservedTokens = 0) := by
    constructor
    · intro hk
      exact hk request hget rfl status htarget hstatus
    · intro hk r hr _ s _ hs hterminal
      cases hget.symm.trans hr
      cases hstatus.symm.trans hs
      exact hk hterminal
  constructor
  · refine h.of_set (fun _ b hb => ⟨b, hb⟩) hnonneg (fun hcreated => ?_)
      (h.funded requestId request hget)
    -- no transition leads back to a new request
    change status = .created at hcreated
    subst hcreated
    rcases hs : request.status <;> rw [hs] at htarget <;> exact absurd htarget (by decide)
  · intro hbal
    rw [hkeeps]
    rcases hb : t.budgets.get? request.budgetId with _ | b
    · -- without its budget, the request holds nothing
      have hzero : request.reservedTokens = 0 := by
        by_contra hne
        obtain ⟨b, hb'⟩ := h.funded requestId request hget (by omega)
        rw [hb] at hb'
        cases hb'
      refine iff_of_true (fun k b hk => ?_) fun _ => hzero
      have hsame := hbal k b hk
      show b.reservedTokens = outstanding (t.requests.set requestId _) k
      rw [outstanding_set hget]
      simp [AIRequest.holds, hzero, hsame]
    · refine (balanced_after_iff hbal hget (by rfl) (fun _ _ => rfl) hb hb).trans ?_
      rcases hterminal : status.isTerminal with _ | _
      · simp [AIRequest.holds, hactive, hterminal]
      · simp [AIRequest.holds, hactive, hterminal]

theorem openBudget_ok {accepts : AIRequest → Bool} {t t' : Tables} {events : List AccountEvent}
    {id : String} {tokenLimit costLimit : ℕ}
    (h : (RequestOp.openBudget id tokenLimit costLimit).perform accepts t = .ok (t', events)) :
    t.budgets.get? id = none ∧ events = [] ∧
      t' = ⟨t.budgets.set id ⟨tokenLimit, 0, 0, costLimit, 0⟩, t.requests⟩ := by
  unfold RequestOp.perform at h
  by_cases hid : t.budgets.contains id
  · simp [hid] at h
  · simp_all [Dict.contains]

/-- A new budget is balanced: nothing is held of a budget that was not there. Kind: L -/
theorem openBudget_effect {t : Tables} {id : String} (hid : t.budgets.get? id = none)
    (tokenLimit costLimit : ℤ) (h : t.Regular) :
    Tables.Regular ⟨t.budgets.set id ⟨tokenLimit, 0, 0, costLimit, 0⟩, t.requests⟩ ∧
      (t.Balanced →
        Tables.Balanced ⟨t.budgets.set id ⟨tokenLimit, 0, 0, costLimit, 0⟩, t.requests⟩) := by
  refine ⟨⟨h.nonneg, h.fresh, fun k r hk hpos => ?_⟩, fun hbal k b hk => ?_⟩
  · obtain ⟨b, hb⟩ := h.funded k r hk hpos
    exact get?_set_of_some hb
  · change Dict.get? (t.budgets.set id _) k = some b at hk
    rw [Dict.get?_set] at hk
    split at hk
    · next heq =>
        cases hk
        subst heq
        refine (List.sum_eq_zero fun x hx => ?_).symm
        obtain ⟨r, hr, rfl⟩ := List.mem_map.mp hx
        obtain ⟨rid, hrid⟩ := Dict.mem_values.mp hr
        by_cases hbid : r.budgetId = k
        · have hle : ¬ 0 < r.reservedTokens := fun hpos => by
            obtain ⟨b, hb⟩ := h.funded rid r hrid hpos
            rw [hbid, hid] at hb
            cases hb
          have hnonneg := h.nonneg rid r hrid
          have hzero : r.reservedTokens = 0 := by omega
          simp [AIRequest.holds, hzero]
        · simp [AIRequest.holds, hbid]
    · exact hbal k b hk

theorem Tables.Regular.step {accepts : AIRequest → Bool} {s : Accounts} (h : s.tables.Regular)
    (op : RequestOp) : (s.step accepts op).tables.Regular := by
  unfold Accounts.step
  rcases hok : op.perform accepts s.tables with err | ⟨t', events⟩
  · exact h
  · rcases op with ⟨id, tl, cl⟩ | _ | _ | _ | _ | _
    · obtain ⟨hid, -, rfl⟩ := openBudget_ok hok
      exact (openBudget_effect hid _ _ h).1
    · exact (create_effect h hok).1
    · exact (reserve_effect h hok).1
    · exact (transition_effect h hok).1
    · exact (commit_effect h hok).1
    · exact (release_effect h hok).1

/-- Balanced tables stay balanced exactly when the transaction keeps reservations. Kind: P -/
theorem Tables.Balanced.step_iff {accepts : AIRequest → Bool} {s : Accounts}
    (h : s.tables.Regular) (hbal : s.tables.Balanced) (op : RequestOp) :
    (s.step accepts op).tables.Balanced ↔ op.KeepsReservation s.tables := by
  unfold Accounts.step
  rcases hok : op.perform accepts s.tables with err | ⟨t', events⟩
  · -- what is rolled back changes nothing
    refine iff_of_true hbal ?_
    rcases op with _ | _ | _ | ⟨requestId, expected, new, providerId, modelId⟩ | _ | _ <;>
      try trivial
    intro request hget hexp status hmem hnew hterminal
    subst hexp
    have hgoes := transitionStatus_of hget hnew hmem providerId modelId
    exact absurd (hgoes.symm.trans hok) (by simp)
  · rcases op with ⟨id, tl, cl⟩ | _ | _ | _ | _ | _
    · obtain ⟨hid, -, rfl⟩ := openBudget_ok hok
      exact iff_of_true ((openBudget_effect hid _ _ h).2 hbal) trivial
    · exact iff_of_true ((create_effect h hok).2 hbal) trivial
    · exact iff_of_true ((reserve_effect h hok).2 hbal) trivial
    · exact (transition_effect h hok).2 hbal
    · exact iff_of_true ((commit_effect h hok).2 hbal) trivial
    · exact iff_of_true ((release_effect h hok).2 hbal) trivial

/-! ## How often a request is charged and released -/

/-- Whether an event charges a budget for a request. Kind: D -/
def AccountEvent.charges (requestId : String) : AccountEvent → Bool
  | charged id _ _ => id = requestId
  | _ => false

/-- Whether an event gives a reservation of a request back. Kind: D -/
def AccountEvent.releases (requestId : String) : AccountEvent → Bool
  | released id _ => id = requestId
  | _ => false

open AccountEvent

/-- No request is charged twice, and none gives its reservation back twice. Kind: C -/
def Accounts.Once (s : Accounts) : Prop :=
  ∀ id, s.log.countP (charges id) ≤ 1 ∧ s.log.countP (releases id) ≤ 1

/-- What the log and the rows say of each other: a charged request is completed, and one that gave its
reservation back holds none and will not be reserved again. Kind: C -/
structure Accounts.Logged (s : Accounts) : Prop where
  charged : ∀ id, s.log.countP (charges id) = 0 ∨ s.log.countP (charges id) = 1 ∧
    ∃ r, s.tables.requests.get? id = some r ∧ r.status = .completed
  released : ∀ id, s.log.countP (releases id) = 0 ∨ s.log.countP (releases id) = 1 ∧
    ∃ r, s.tables.requests.get? id = some r ∧ r.status ≠ .created ∧ r.reservedTokens = 0

theorem Accounts.Logged.once {s : Accounts} (h : s.Logged) : s.Once := by
  intro id
  constructor
  · rcases h.charged id with h | ⟨h, -⟩ <;> omega
  · rcases h.released id with h | ⟨h, -⟩ <;> omega

/-- Only one row has changed, and the new events are about it. Kind: L -/
theorem Accounts.Logged.row {s : Accounts} (h : s.Logged) {requestId : String} {new : AIRequest}
    {events : List AccountEvent} (budgets : Budgets)
    (hothers : ∀ id, id ≠ requestId →
      events.countP (charges id) = 0 ∧ events.countP (releases id) = 0)
    (hcharged : (s.log ++ events).countP (charges requestId) = 0 ∨
      (s.log ++ events).countP (charges requestId) = 1 ∧ new.status = .completed)
    (hreleased : (s.log ++ events).countP (releases requestId) = 0 ∨
      (s.log ++ events).countP (releases requestId) = 1 ∧ new.status ≠ .created ∧
        new.reservedTokens = 0) :
    Accounts.Logged ⟨⟨budgets, s.tables.requests.set requestId new⟩, s.log ++ events⟩ := by
  constructor
  · intro id
    by_cases hid : id = requestId
    · subst hid
      exact hcharged.imp_right (And.imp_right fun hnew => ⟨new, Dict.get?_set_self _ _ _, hnew⟩)
    · simp only [List.countP_append, (hothers id hid).1, Nat.add_zero, Dict.get?_set_ne _ hid]
      exact h.charged id
  · intro id
    by_cases hid : id = requestId
    · subst hid
      exact hreleased.imp_right (And.imp_right fun hnew => ⟨new, Dict.get?_set_self _ _ _, hnew⟩)
    · simp only [List.countP_append, (hothers id hid).2, Nat.add_zero, Dict.get?_set_ne _ hid]
      exact h.released id

/-- A request that is not completed has not been charged. Kind: L -/
theorem Accounts.Logged.not_charged {s : Accounts} (h : s.Logged) {requestId : String}
    {r : AIRequest} (hget : s.tables.requests.get? requestId = some r) (hne : r.status ≠ .completed) :
    s.log.countP (charges requestId) = 0 := by
  rcases h.charged requestId with h0 | ⟨-, r', hr', hdone⟩
  · exact h0
  · cases hget.symm.trans hr'
    exact absurd hdone hne

/-- A request that has given a reservation back holds none. Kind: L -/
theorem Accounts.Logged.released_row {s : Accounts} (h : s.Logged) {requestId : String}
    {r : AIRequest} (hget : s.tables.requests.get? requestId = some r) :
    s.log.countP (releases requestId) = 0 ∨
      s.log.countP (releases requestId) = 1 ∧ r.status ≠ .created ∧ r.reservedTokens = 0 := by
  refine (h.released requestId).imp_right ?_
  rintro ⟨hcount, r', hr', hrow⟩
  cases hget.symm.trans hr'
  exact ⟨hcount, hrow⟩

theorem countP_releasedEvents (requestId id : String) (n : ℤ) :
    (releasedEvents requestId n).countP (charges id) = 0 ∧
      (releasedEvents requestId n).countP (releases id) =
        if 0 < n ∧ requestId = id then 1 else 0 := by
  unfold releasedEvents
  by_cases hn : 0 < n
  · by_cases hid : requestId = id <;> simp [hn, hid, charges, releases]
  · simp [hn]

/-- No transition leads back to a new request. Source: `state_machine.py`, `ALLOWED_TRANSITIONS`.
Kind: L -/
theorem ne_created_of_target {s s' : RequestStatus} (h : s' ∈ s.targets) : s' ≠ .created := by
  rintro rfl
  rcases s <;> exact absurd h (by decide)

theorem ne_completed_of_target {s s' : RequestStatus} (h : s' ∈ s.targets) : s ≠ .completed := by
  rintro rfl
  exact absurd h List.not_mem_nil

/-- The log stays true. Source: `request.py`, `AIRequestStateService`. Kind: P -/
theorem Accounts.Logged.step {accepts : AIRequest → Bool} {s : Accounts} (h : s.Logged)
    (op : RequestOp) : (s.step accepts op).Logged := by
  have hnil : ∀ {budgets : Budgets}, Accounts.Logged ⟨⟨budgets, s.tables.requests⟩, s.log ++ []⟩ := by
    intro budgets
    rw [List.append_nil]
    exact ⟨h.charged, h.released⟩
  unfold Accounts.step
  rcases hok : op.perform accepts s.tables with err | ⟨t', events⟩
  · exact h
  · rcases op with ⟨id, tl, cl⟩ | ⟨id, _, _, _, _⟩ | ⟨id, n⟩ | ⟨id, _, _, _, _⟩ | ⟨id, a, c, _, _⟩ | ⟨id, _⟩
    · obtain ⟨-, rfl, rfl⟩ := openBudget_ok hok
      exact hnil
    · -- a new row: nothing is logged of it
      obtain ⟨rfl, rfl | ⟨hnone, rfl⟩⟩ := createRequest_ok hok
      · exact hnil
      · refine h.row _ (fun _ _ => ⟨rfl, rfl⟩) (Or.inl ?_) (Or.inl ?_)
        · rcases h.charged id with h0 | ⟨-, r, hr, -⟩
          · simpa using h0
          · rw [hnone] at hr
            cases hr
        · rcases h.released id with h0 | ⟨-, r, hr, -⟩
          · simpa using h0
          · rw [hnone] at hr
            cases hr
    · rcases reserveBudget_ok hok with ⟨rfl, rfl⟩ | ⟨r, b, hget, hcreated, -, -, rfl, rfl⟩
      · exact hnil
      · have hcharged := h.not_charged hget (by rw [hcreated]; decide)
        refine h.row _ (fun _ _ => ⟨rfl, rfl⟩) (Or.inl ?_) (Or.inl ?_)
        · simp [List.countP_append, hcharged, charges]
        · rcases h.released_row hget with h0 | ⟨-, hne, -⟩
          · simp [List.countP_append, h0, releases]
          · exact absurd hcreated hne
    · obtain ⟨r, status, hget, -, -, htarget, rfl, rfl⟩ := transitionStatus_ok hok
      have hcharged := h.not_charged hget (ne_completed_of_target htarget)
      refine h.row _ (fun _ _ => ⟨rfl, rfl⟩) (Or.inl (by simpa using hcharged)) ?_
      rw [List.append_nil]
      exact (h.released_row hget).imp_right fun ⟨hcount, _, hzero⟩ =>
        ⟨hcount, ne_created_of_target htarget, hzero⟩
    · rcases commitExecution_ok hok with ⟨rfl, rfl⟩ | ⟨r, b, hget, hflight, -, -, rfl, rfl⟩
      · exact hnil
      · -- the request is charged, and gives back what it still holds
        have hcharged := h.not_charged hget (by rw [hflight]; decide)
        refine h.row _ (fun k hk => ?_) (Or.inr ⟨?_, rfl⟩) ?_
        · simp [List.countP_append, countP_releasedEvents, charges, releases, Ne.symm hk]
        · simp [List.countP_append, countP_releasedEvents, hcharged, charges]
        · rcases h.released_row hget with h0 | ⟨hcount, -, hzero⟩
          · by_cases hpos : 0 < r.reservedTokens
            · refine Or.inr ⟨?_, nofun, rfl⟩
              simp [List.countP_append, countP_releasedEvents, h0, hpos, releases]
            · refine Or.inl ?_
              simp [List.countP_append, countP_releasedEvents, h0, hpos, releases]
          · refine Or.inr ⟨?_, nofun, rfl⟩
            simp [List.countP_append, countP_releasedEvents, hcount, hzero, releases]
    · rcases releaseReservation_ok hok with
        ⟨rfl, rfl⟩ | ⟨r, status, budgets, hget, -, -, htarget, -, rfl, rfl⟩
      · exact hnil
      · have hcharged := h.not_charged hget (ne_completed_of_target htarget)
        have hnew := ne_created_of_target htarget
        refine h.row _ (fun k hk => ?_) (Or.inl ?_) ?_
        · simp [countP_releasedEvents, Ne.symm hk]
        · simp [List.countP_append, countP_releasedEvents, hcharged]
        · rcases h.released_row hget with h0 | ⟨hcount, -, hzero⟩
          · by_cases hpos : 0 < r.reservedTokens
            · simp_all [countP_releasedEvents]
            · simp_all [countP_releasedEvents]
          · simp_all [countP_releasedEvents]

/-! ## Conservation -/

/-- What every state owes: budgets have set aside what their unfinished requests hold, no request is
charged twice and none gives its reservation back twice. Kind: C -/
structure Accounts.Conserved (s : Accounts) : Prop where
  balanced : s.tables.Balanced
  once : s.Once

theorem Accounts.empty_regular : Accounts.empty.tables.Regular := by
  refine ⟨fun _ _ h => ?_, fun _ _ h => ?_, fun _ _ h => ?_⟩ <;> cases h

theorem Accounts.empty_logged : Accounts.empty.Logged :=
  ⟨fun _ => Or.inl rfl, fun _ => Or.inl rfl⟩

/-- **Reservations are conserved in every state of a run exactly when no transition finishes a request
that still holds one.** Charges and releases happen at most once in every run.
Source: `request.py`, `AIRequestStateService.transition_status`
Kind: P -/
theorem conserved_reached_iff (accepts : AIRequest → Bool) (ops : List RequestOp) :
    (∀ s ∈ reached (Accounts.step accepts) .empty ops, s.Conserved) ↔
      Along (Accounts.step accepts) (fun s op => op.KeepsReservation s.tables) .empty ops := by
  refine forall_reached_iff (I := fun s => s.tables.Regular ∧ s.Logged)
    (fun s op hs => ⟨hs.1.step op, hs.2.step op⟩) (fun s op hs hcons => ?_)
    ⟨Accounts.empty_regular, Accounts.empty_logged⟩ ?_ ops
  · have hlogged := (hs.2.step op : (s.step accepts op).Logged)
    constructor
    · intro h
      exact (hcons.balanced.step_iff hs.1 op).mp h.balanced
    · intro h
      exact ⟨(hcons.balanced.step_iff hs.1 op).mpr h, hlogged.once⟩
  · refine ⟨fun _ _ h => ?_, Accounts.empty_logged.once⟩
    cases h

/-- A request that reserves and is then moved to `FAILED`. Kind: C -/
def leakOps : List RequestOp :=
  [.openBudget "b" 100 1000,
    .create "r" "t" "b" (String.ofList (List.replicate 64 '0')) (String.ofList (List.replicate 64 '0')),
    .reserve "r" 40, .transition "r" "RESERVED" "FAILED" none none]

/-- A reserved request is moved to `FAILED`, and its tokens stay set aside.
Source: `request.py`, `AIRequestStateService.transition_status`
Kind: C -/
theorem failed_transition_leaks :
    ¬ ∀ s ∈ reached (Accounts.step fun _ => true) .empty leakOps, s.Conserved := by
  intro h
  have hlast : leakOps.foldl (Accounts.step fun _ => true) .empty ∈
      reached (Accounts.step fun _ => true) .empty leakOps :=
    .tail _ (.tail _ (.tail _ (.tail _ (List.mem_singleton.mpr rfl))))
  have hbalanced := (h _ hlast).balanced "b" ⟨100, 0, 40, 1000, 0⟩ (by decide +kernel)
  exact absurd hbalanced (by decide +kernel)

end KarsaSec.Ai
