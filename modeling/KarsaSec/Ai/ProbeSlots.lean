import KarsaSec.Ai.CircuitBreaker
import Mathlib.Data.List.Perm.Basic

/-!
# Probe slots of a circuit

What a breaker keeps over a run of checks and outcomes.

* `Sound` holds in every run: an OPEN circuit knows when it opened, the slots stay within their bound,
  and only a HALF_OPEN circuit has slots taken.
* `SlotsHeld`: the slots taken are those of the probes under way. A probe that ends with a failure that is
  not the provider's, or is cancelled, keeps its slot, and so does a check whose provider is not chosen.
* `orderly_run_safe`: without such steps, and with no late success, the slots come back and only a probe of
  the present period closes the circuit.
-/

namespace KarsaSec.Ai

open KarsaSec.Found

/-! ## One circuit -/

/-- What holds of a circuit in every run. Kind: D -/
structure Sound (cb : ProviderCircuitBreaker) (st : ProviderCircuitState) : Prop where
  opened_at : st.state = .opened → st.openedAt.isSome
  probes_le : st.activeProbes ≤ cb.halfOpenMaxProbes
  idle : st.state ≠ .halfOpen → st.activeProbes = 0

/-- A circuit is HALF_OPEN after an operation that takes `gain` slots: it was, or it has just become so.
Kind: D -/
def Moves (gain : ℕ) (st st' : ProviderCircuitState) : Prop :=
  st'.state = .halfOpen →
    st.state = .halfOpen ∧ st'.activeProbes = st.activeProbes + gain ∨
      st.state = .opened ∧ st'.activeProbes = gain

namespace ProviderCircuitBreaker

variable {cb : ProviderCircuitBreaker} {now : ℚ} {st : ProviderCircuitState}

theorem sound_default : Sound cb {} :=
  ⟨by simp, Nat.zero_le _, fun _ => rfl⟩

/-- A circuit that wakes is left as it was, or goes from OPEN to HALF_OPEN without probes. Kind: L -/
theorem wake_cases (cb : ProviderCircuitBreaker) (now : ℚ) (st : ProviderCircuitState) :
    cb.wake now st = st ∨
      st.state = .opened ∧ cb.wake now st = { st with state := .halfOpen, activeProbes := 0 } := by
  unfold wake
  split
  · grind
  · exact Or.inl rfl

theorem sound_wake (h : Sound cb st) : Sound cb (cb.wake now st) := by
  rcases wake_cases cb now st with heq | ⟨_, heq⟩
  · rwa [heq]
  · rw [heq]
    exact ⟨by simp, Nat.zero_le _, fun h' => absurd rfl h'⟩

theorem moves_wake (cb : ProviderCircuitBreaker) (now : ℚ) (st : ProviderCircuitState) :
    Moves 0 st (cb.wake now st) := by
  intro hhalf
  rcases wake_cases cb now st with heq | ⟨hopen, heq⟩
  · rw [heq] at hhalf ⊢
    exact Or.inl ⟨hhalf, rfl⟩
  · rw [heq]
    exact Or.inr ⟨hopen, rfl⟩

theorem wake_closed (h : (cb.wake now st).state = .closed) : st.state = .closed := by grind [wake_cases]

/-- What forgetting a cooldown leaves as it was. Kind: L -/
theorem clearCooldown_fields (st : ProviderCircuitState) :
    (clearCooldown st).state = st.state ∧ (clearCooldown st).openedAt = st.openedAt ∧
      (clearCooldown st).activeProbes = st.activeProbes := by
  unfold clearCooldown
  split <;> exact ⟨rfl, rfl, rfl⟩

theorem sound_clearCooldown (h : Sound cb st) : Sound cb (clearCooldown st) := by
  obtain ⟨hstate, hat, hactive⟩ := clearCooldown_fields st
  refine ⟨?_, ?_, ?_⟩
  · rw [hstate, hat]
    exact h.opened_at
  · rw [hactive]
    exact h.probes_le
  · rw [hstate, hactive]
    exact h.idle

/-- A circuit on offer: not throttled, and HALF_OPEN with a free slot. Kind: D -/
def OffersProbe (cb : ProviderCircuitBreaker) (now : ℚ) (st : ProviderCircuitState) : Prop :=
  throttled now st = false ∧ (cb.wake now st).state = .halfOpen ∧
    (cb.wake now st).activeProbes < cb.halfOpenMaxProbes

instance : Decidable (OffersProbe cb now st) := inferInstanceAs (Decidable (_ ∧ _))

/-- A cooldown that is over plays no part in waking. Kind: L -/
theorem wake_clearCooldown (cb : ProviderCircuitBreaker) (now : ℚ) (st : ProviderCircuitState) :
    (cb.wake now (clearCooldown st)).state = (cb.wake now st).state ∧
      (cb.wake now (clearCooldown st)).activeProbes = (cb.wake now st).activeProbes := by
  obtain ⟨hstate, hat, hactive⟩ := clearCooldown_fields st
  unfold wake
  rw [hstate, hat]
  split
  · grind
  · exact ⟨hstate, hactive⟩

/-- What a check does: it changes nothing, wakes the circuit, or takes a slot of one on offer. Kind: L -/
theorem isOpen_cases (cb : ProviderCircuitBreaker) (now : ℚ) (st : ProviderCircuitState) :
    cb.isOpen now st = (true, st) ∨
      (∃ answer, cb.isOpen now st = (answer, cb.wake now (clearCooldown st)) ∧
        ((cb.wake now st).state = .halfOpen → answer = true)) ∨
      OffersProbe cb now st ∧ cb.isOpen now st = (false, { cb.wake now (clearCooldown st) with
        activeProbes := (cb.wake now (clearCooldown st)).activeProbes + 1 }) := by
  obtain ⟨hstate, hactive⟩ := wake_clearCooldown cb now st
  unfold isOpen OffersProbe
  rw [← hstate, ← hactive]
  split
  · exact Or.inl rfl
  · rename_i hthrottled
    right
    dsimp only
    split
    · grind
    · exact Or.inl ⟨true, rfl, fun _ => rfl⟩
    · grind

theorem sound_isOpen (h : Sound cb st) : Sound cb (cb.isOpen now st).2 := by
  have hwake : Sound cb (cb.wake now (clearCooldown st)) := sound_wake (sound_clearCooldown h)
  rcases isOpen_cases cb now st with heq | ⟨_, heq, _⟩ | ⟨⟨_, hhalf, hfree⟩, heq⟩
  · rwa [heq]
  · rwa [heq]
  · obtain ⟨hstate, hactive⟩ := wake_clearCooldown cb now st
    rw [heq]
    refine ⟨hwake.opened_at, ?_, fun h' => absurd (hstate.trans hhalf) h'⟩
    show (cb.wake now (clearCooldown st)).activeProbes + 1 ≤ _
    rw [hactive]
    exact hfree

/-- A check that says no takes no slot, one that says yes takes one. Kind: L -/
theorem moves_isOpen (cb : ProviderCircuitBreaker) (now : ℚ) (st : ProviderCircuitState) :
    Moves (if (cb.isOpen now st).1 then 0 else 1) st (cb.isOpen now st).2 := by
  obtain ⟨hstate, hactive⟩ := wake_clearCooldown cb now st
  have hwake : Moves 0 st (cb.wake now (clearCooldown st)) := by
    intro hhalf
    rw [hactive]
    exact moves_wake cb now st (hstate ▸ hhalf)
  rcases isOpen_cases cb now st with heq | ⟨answer, heq, hanswer⟩ | ⟨⟨_, hhalf, hfree⟩, heq⟩
  · rw [heq]
    exact fun hhalf => Or.inl ⟨hhalf, rfl⟩
  · rw [heq]
    intro hhalf
    rw [hanswer (hstate ▸ hhalf)]
    exact hwake hhalf
  · rw [heq]
    intro hhalf'
    rcases hwake hhalf' with ⟨hbefore, hcount⟩ | ⟨hbefore, hcount⟩
    · exact Or.inl ⟨hbefore, by simpa using hcount⟩
    · exact Or.inr ⟨hbefore, by simpa using hcount⟩

/-- A check that says yes in HALF_OPEN was of a circuit on offer. Kind: L -/
theorem offersProbe_of_isOpen (hanswer : (cb.isOpen now st).1 = false)
    (hhalf : (cb.isOpen now st).2.state = .halfOpen) : OffersProbe cb now st := by
  obtain ⟨hstate, _⟩ := wake_clearCooldown cb now st
  rcases isOpen_cases cb now st with heq | ⟨answer, heq, htrue⟩ | ⟨hoffers, _⟩
  · rw [heq] at hanswer
    exact absurd hanswer Bool.noConfusion
  · simp_all
  · exact hoffers

/-- A circuit on offer lets the next check through. Kind: L -/
theorem isOpen_of_offersProbe (h : OffersProbe cb now st) : (cb.isOpen now st).1 = false := by
  obtain ⟨hthrottled, hhalf, hfree⟩ := h
  obtain ⟨hstate, hactive⟩ := wake_clearCooldown cb now st
  rw [← hstate] at hhalf
  rw [← hactive] at hfree
  unfold isOpen
  rw [hthrottled, if_neg Bool.false_ne_true]
  dsimp only
  split
  · rfl
  · simp_all
  · rw [if_pos hfree]

theorem isOpen_closed (h : (cb.isOpen now st).2.state = .closed) : st.state = .closed := by
  obtain ⟨hstate, _⟩ := wake_clearCooldown cb now st
  rcases isOpen_cases cb now st with heq | ⟨_, heq, _⟩ | ⟨_, heq⟩
  · rwa [heq] at h
  · rw [heq] at h
    exact wake_closed (hstate ▸ h)
  · rw [heq] at h
    exact wake_closed (hstate ▸ h)

theorem sound_recordThrottling (h : Sound cb st) (seconds : ℚ) (reason : String) :
    Sound cb (recordThrottling now st seconds reason) :=
  ⟨h.opened_at, h.probes_le, h.idle⟩

theorem sound_recordSuccess (h : Sound cb st) : Sound cb (cb.recordSuccess now st) := by
  have hwake := @sound_wake cb now st h
  unfold recordSuccess
  dsimp only
  split
  · exact ⟨by simp, Nat.zero_le _, fun _ => rfl⟩
  · exact ⟨hwake.opened_at, hwake.probes_le, hwake.idle⟩
  · exact hwake

/-- After a success the circuit is not HALF_OPEN. Kind: L -/
theorem recordSuccess_state (cb : ProviderCircuitBreaker) (now : ℚ) (st : ProviderCircuitState) :
    (cb.recordSuccess now st).state ≠ .halfOpen := by
  unfold recordSuccess
  dsimp only
  split
  · exact fun h => nomatch h
  · simp_all
  · simp_all

/-- A success that closes a circuit found it HALF_OPEN on waking. Kind: L -/
theorem recordSuccess_closed (hbefore : st.state ≠ .closed)
    (hafter : (cb.recordSuccess now st).state = .closed) : (cb.wake now st).state = .halfOpen := by
  unfold recordSuccess at hafter
  dsimp only at hafter
  split at hafter
  · assumption
  · rename_i hclosed
    exact absurd (wake_closed hclosed) hbefore
  · simp_all

theorem sound_noteThrottling (h : Sound cb st) (classification : FailureClassification) :
    Sound cb (cb.noteThrottling now st classification) := by
  unfold noteThrottling
  split
  · exact ⟨h.opened_at, h.probes_le, h.idle⟩
  · exact h

theorem sound_countFailure (h : Sound cb st) : Sound cb (cb.countFailure now st) := by
  unfold countFailure
  split
  · exact ⟨fun _ => rfl, Nat.zero_le _, fun _ => rfl⟩
  · split
    · exact ⟨fun _ => rfl, Nat.zero_le _, fun _ => rfl⟩
    · exact ⟨h.opened_at, h.probes_le, h.idle⟩
  · exact h

theorem sound_recordFailure (h : Sound cb st) (classification : FailureClassification) :
    Sound cb (cb.recordFailure now st classification) := by
  unfold recordFailure
  split
  · exact h
  · exact sound_countFailure (sound_wake (sound_noteThrottling h classification))

/-- A counted failure leaves the circuit not HALF_OPEN, and CLOSED only where it was. Kind: L -/
theorem countFailure_state (cb : ProviderCircuitBreaker) (now : ℚ) (st : ProviderCircuitState) :
    (cb.countFailure now st).state ≠ .halfOpen ∧
      ((cb.countFailure now st).state = .closed → st.state = .closed) := by
  unfold countFailure
  split
  · exact ⟨by simp, by simp⟩
  · grind
  · rename_i hopen
    exact ⟨by simp [hopen], id⟩

/-- A failure leaves the circuit as it was when it is not the provider's, and else not HALF_OPEN.
Kind: L -/
theorem recordFailure_cases (cb : ProviderCircuitBreaker) (now : ℚ) (st : ProviderCircuitState)
    (classification : FailureClassification) :
    classification.providerFailure = false ∧ cb.recordFailure now st classification = st ∨
      (cb.recordFailure now st classification).state ≠ .halfOpen ∧
        ((cb.recordFailure now st classification).state = .closed → st.state = .closed) := by
  have hnoted : (cb.noteThrottling now st classification).state = st.state := by
    unfold noteThrottling
    split <;> rfl
  unfold recordFailure
  split
  · simp_all
  · grind [countFailure_state, wake_closed]

end ProviderCircuitBreaker

/-! ## The breaker with its attempts -/

namespace BreakerSystem

open ProviderCircuitBreaker

variable {cb : ProviderCircuitBreaker} {s : BreakerSystem}

theorem circuit_put_self (s : BreakerSystem) (key : ProviderKey) (st : ProviderCircuitState) :
    (s.put key st).circuit key = st := Dict.getD_set_self _ _ _ _

theorem circuit_put_ne (s : BreakerSystem) {key key' : ProviderKey} (h : key' ≠ key)
    (st : ProviderCircuitState) : (s.put key st).circuit key' = s.circuit key' :=
  Dict.getD_set_ne _ h _ _

theorem period_put_self (s : BreakerSystem) (key : ProviderKey) (st : ProviderCircuitState) :
    (s.put key st).period key = if (s.circuit key).state = .opened ∧ st.state = .halfOpen then
      s.period key + 1 else s.period key := Dict.getD_set_self _ _ _ _

theorem period_put_ne (s : BreakerSystem) {key key' : ProviderKey} (h : key' ≠ key)
    (st : ProviderCircuitState) : (s.put key st).period key' = s.period key' :=
  Dict.getD_set_ne _ h _ _

theorem period_le_put (s : BreakerSystem) (key key' : ProviderKey) (st : ProviderCircuitState) :
    s.period key' ≤ (s.put key st).period key' := by
  by_cases hkey : key' = key
  · rw [hkey, period_put_self]
    split
    · exact Nat.le_succ _
    · exact le_rfl
  · rw [period_put_ne s hkey]

/-! ### What holds in every run -/

/-- Every circuit is sound, and no attempt belongs to a period to come. Kind: D -/
structure Regular (cb : ProviderCircuitBreaker) (s : BreakerSystem) : Prop where
  sound : ∀ key, Sound cb (s.circuit key)
  periods : ∀ a ∈ s.inFlight, ∀ p, a.period = some p → p ≤ s.period a.key

theorem regular_init : Regular cb {} :=
  ⟨fun _ => sound_default, fun _ ha => absurd ha List.not_mem_nil⟩

theorem Regular.put (h : Regular cb s) {key : ProviderKey} {st : ProviderCircuitState}
    (hst : Sound cb st) : Regular cb (s.put key st) := by
  refine ⟨fun key' => ?_, fun a ha p hp => ?_⟩
  · by_cases hkey : key' = key
    · rw [hkey, circuit_put_self]
      exact hst
    · rw [circuit_put_ne s hkey]
      exact h.sound key'
  · exact (h.periods a ha p hp).trans (period_le_put s key a.key st)

theorem Regular.drop (h : Regular cb s) (l : List CircuitAttempt) (hl : ∀ a ∈ l, a ∈ s.inFlight) :
    Regular cb { s with inFlight := l } :=
  ⟨h.sound, fun a ha => h.periods a (hl a ha)⟩

theorem Regular.settle (h : Regular cb s) (i : ℕ) {f : ProviderCircuitState → ProviderCircuitState}
    (hf : ∀ st, Sound cb st → Sound cb (f st)) : Regular cb (s.settle i f) := by
  unfold BreakerSystem.settle
  split
  · exact h
  · rename_i a _
    have hput : Regular cb (s.put a.key (f (s.circuit a.key))) := h.put (hf _ (h.sound a.key))
    exact hput.drop _ fun b hb => List.mem_of_mem_eraseIdx hb

theorem regular_step (h : Regular cb s) (op : CircuitOp) : Regular cb (step cb s op) := by
  cases op with
  | check now key chosen =>
    have hput : Regular cb (s.put key (cb.isOpen now (s.circuit key)).2) :=
      h.put (sound_isOpen (h.sound key))
    unfold step
    dsimp only
    split
    · refine ⟨hput.sound, fun a ha p hp => ?_⟩
      rcases List.mem_append.mp ha with ha | ha
      · exact hput.periods a ha p hp
      · obtain rfl := List.mem_singleton.mp ha
        unfold granted at hp
        dsimp only at hp
        split at hp
        · exact (Option.some.inj hp).symm.le
        · exact absurd hp (by simp)
    · exact hput
  | read now key => exact h.put (sound_wake (h.sound key))
  | throttle now key seconds reason => exact h.put (sound_recordThrottling (h.sound key) seconds reason)
  | success now i => exact h.settle i fun st hst => sound_recordSuccess hst
  | failure now i classification => exact h.settle i fun st hst => sound_recordFailure hst classification
  | cancel i => exact h.drop _ fun a ha => List.mem_of_mem_eraseIdx ha

/-! ### The slots that are taken -/

/-- An attempt that holds a slot of the present HALF_OPEN period of its circuit. Kind: D -/
def CurrentProbe (s : BreakerSystem) (a : CircuitAttempt) : Prop :=
  (s.circuit a.key).state = .halfOpen ∧ a.period = some (s.period a.key)

instance (a : CircuitAttempt) : Decidable (s.CurrentProbe a) := inferInstanceAs (Decidable (_ ∧ _))

/-- The attempts under way that were granted in a period of a circuit. Kind: D -/
def probesIn (l : List CircuitAttempt) (key : ProviderKey) (period : ℕ) : ℕ :=
  l.countP fun a => a.key = key ∧ a.period = some period

/-- The slots taken in a HALF_OPEN circuit are those of its probes under way. Kind: D -/
def SlotsHeld (s : BreakerSystem) : Prop :=
  ∀ key, (s.circuit key).state = .halfOpen →
    (s.circuit key).activeProbes = probesIn s.inFlight key (s.period key)

/-- The circuit of a key moves, and so do the attempts under way. Kind: L -/
theorem SlotsHeld.moves (hreg : Regular cb s) (h : s.SlotsHeld) {key : ProviderKey}
    {st : ProviderCircuitState} {gain : ℕ} (hmoves : Moves gain (s.circuit key) st)
    {l : List CircuitAttempt} (hother : ∀ key' ≠ key, ∀ p, probesIn l key' p = probesIn s.inFlight key' p)
    (hself : st.state = .halfOpen → ∀ p, p = (s.put key st).period key →
      probesIn l key p = probesIn s.inFlight key p + gain) :
    SlotsHeld { s.put key st with inFlight := l } := by
  intro key' hhalf
  have hcircuit : BreakerSystem.circuit { s.put key st with inFlight := l } key' =
      (s.put key st).circuit key' := rfl
  have hperiod : BreakerSystem.period { s.put key st with inFlight := l } key' =
      (s.put key st).period key' := rfl
  rw [hcircuit] at hhalf ⊢
  rw [hperiod]
  by_cases hkey : key' = key
  · subst hkey
    rw [circuit_put_self] at hhalf ⊢
    show _ = probesIn l key' _
    rw [hself hhalf _ rfl, period_put_self]
    rcases hmoves hhalf with ⟨hbefore, hcount⟩ | ⟨hbefore, hcount⟩
    · rw [if_neg (fun h' => absurd (h'.1.symm.trans hbefore) (by decide)), hcount, h key' hbefore]
    · -- nothing under way belongs to the period that begins
      have hnone : probesIn s.inFlight key' (s.period key' + 1) = 0 := by
        refine List.countP_eq_zero.mpr fun a ha => ?_
        simp only [decide_eq_true_eq, not_and]
        intro hakey haperiod
        have hle := hreg.periods a ha _ haperiod
        rw [hakey] at hle
        omega
      rw [if_pos ⟨hbefore, hhalf⟩, hcount, hnone, Nat.zero_add]
  · rw [circuit_put_ne s hkey] at hhalf ⊢
    rw [period_put_ne s hkey]
    show _ = probesIn l key' _
    rw [hother key' hkey, h key' hhalf]

theorem probesIn_eraseIdx {l : List CircuitAttempt} {i : ℕ} {a : CircuitAttempt} (ha : l[i]? = some a)
    (key : ProviderKey) (p : ℕ) :
    probesIn l key p =
      probesIn (l.eraseIdx i) key p + if a.key = key ∧ a.period = some p then 1 else 0 := by
  obtain ⟨hi, hget⟩ := List.getElem?_eq_some_iff.mp ha
  have hperm := List.getElem_cons_eraseIdx_perm hi
  unfold probesIn
  rw [← hperm.countP_eq, hget, List.countP_cons]
  simp only [decide_eq_true_eq]

theorem probesIn_eraseIdx_ne {l : List CircuitAttempt} {i : ℕ} {a : CircuitAttempt} (ha : l[i]? = some a)
    {key : ProviderKey} (hkey : key ≠ a.key) (p : ℕ) :
    probesIn (l.eraseIdx i) key p = probesIn l key p := by
  rw [probesIn_eraseIdx ha key p, if_neg (fun h => hkey h.1.symm), Nat.add_zero]

/-! ### Steps that keep the slots -/

/-- A step that leaks no slot and closes no circuit late: a check of a circuit on offer is of a chosen
provider, a success in HALF_OPEN is of a probe of the present period, and a probe of the present period
does not end with a failure that is not the provider's, nor by being cancelled. Kind: D -/
def Orderly (cb : ProviderCircuitBreaker) (s : BreakerSystem) : CircuitOp → Prop
  | .check now key chosen => chosen = true ∨ ¬ OffersProbe cb now (s.circuit key)
  | .read _ _ => True
  | .throttle _ _ _ _ => True
  | .success now i => ∀ a ∈ s.inFlight[i]?, (cb.wake now (s.circuit a.key)).state = .halfOpen →
      s.CurrentProbe a
  | .failure _ i classification => classification.providerFailure = false →
      ∀ a ∈ s.inFlight[i]?, ¬ s.CurrentProbe a
  | .cancel i => ∀ a ∈ s.inFlight[i]?, ¬ s.CurrentProbe a

instance : (op : CircuitOp) → Decidable (s.Orderly cb op)
  | .check _ _ _ => inferInstanceAs (Decidable (_ ∨ _))
  | .read _ _ => inferInstanceAs (Decidable True)
  | .throttle _ _ _ _ => inferInstanceAs (Decidable True)
  | .success _ i => inferInstanceAs (Decidable (∀ a ∈ s.inFlight[i]?, _ → _))
  | .failure _ i _ => inferInstanceAs (Decidable (_ → ∀ a ∈ s.inFlight[i]?, ¬ _))
  | .cancel i => inferInstanceAs (Decidable (∀ a ∈ s.inFlight[i]?, ¬ _))

/-- An attempt that holds no slot ends, and its circuit stays as it is or leaves HALF_OPEN. Kind: L -/
theorem SlotsHeld.settle (hreg : Regular cb s) (h : s.SlotsHeld) (i : ℕ)
    {f : ProviderCircuitState → ProviderCircuitState}
    (hf : ∀ a ∈ s.inFlight[i]?, f (s.circuit a.key) = s.circuit a.key ∧ ¬ s.CurrentProbe a ∨
      (f (s.circuit a.key)).state ≠ .halfOpen) : (s.settle i f).SlotsHeld := by
  unfold BreakerSystem.settle
  split
  · exact h
  · rename_i a ha
    have hmoves : Moves 0 (s.circuit a.key) (f (s.circuit a.key)) := by
      intro hhalf
      rcases hf a ha with ⟨heq, _⟩ | hne
      · rw [heq] at hhalf ⊢
        exact Or.inl ⟨hhalf, rfl⟩
      · exact absurd hhalf hne
    refine SlotsHeld.moves hreg h hmoves (fun key' hkey p => probesIn_eraseIdx_ne ha hkey p) ?_
    intro hhalf p hp
    rcases hf a ha with ⟨heq, hprobe⟩ | hne
    · rw [heq] at hhalf hp
      rw [period_put_self, if_neg (fun h' => absurd (h'.1.symm.trans hhalf) (by decide))] at hp
      rw [probesIn_eraseIdx ha a.key p, if_neg (fun h' => hprobe ⟨hhalf, hp ▸ h'.2⟩)]
      rfl
    · exact absurd hhalf hne

theorem slotsHeld_check (hreg : Regular cb s) (h : s.SlotsHeld) {now : ℚ} {key : ProviderKey}
    {chosen : Bool} (hord : s.Orderly cb (.check now key chosen)) :
    (step cb s (.check now key chosen)).SlotsHeld := by
  have hmoves := moves_isOpen cb now (s.circuit key)
  unfold step
  dsimp only
  split
  · rename_i hyes
    rw [hyes.1, if_neg Bool.false_ne_true] at hmoves
    refine SlotsHeld.moves hreg h hmoves (fun key' hkey p => ?_) fun hhalf p hp => ?_
    · unfold probesIn
      rw [List.countP_append]
      simp [BreakerSystem.put, granted, Ne.symm hkey]
    · have hgranted : (s.put key (cb.isOpen now (s.circuit key)).2).granted key = ⟨key, some p⟩ := by
        unfold granted
        rw [circuit_put_self, if_pos hhalf, hp]
      unfold probesIn
      rw [hgranted, List.countP_append]
      simp [BreakerSystem.put]
  · rename_i hno
    refine SlotsHeld.moves hreg h hmoves (fun key' hkey p => rfl) fun hhalf p hp => ?_
    have hanswer : (cb.isOpen now (s.circuit key)).1 = true := by
      by_contra hanswer
      rw [Bool.not_eq_true] at hanswer
      rcases hord with hchosen | hoffers
      · exact hno ⟨hanswer, hchosen⟩
      · exact hoffers (offersProbe_of_isOpen hanswer hhalf)
    rw [hanswer]
    rfl

theorem slotsHeld_step (hreg : Regular cb s) (h : s.SlotsHeld) {op : CircuitOp}
    (hord : s.Orderly cb op) : (step cb s op).SlotsHeld := by
  cases op with
  | check now key chosen => exact slotsHeld_check hreg h hord
  | read now key =>
    exact SlotsHeld.moves hreg h (moves_wake cb now (s.circuit key)) (fun _ _ _ => rfl)
      fun _ _ _ => rfl
  | throttle now key seconds reason =>
    have hmoves : Moves 0 (s.circuit key) (recordThrottling now (s.circuit key) seconds reason) :=
      fun hhalf => Or.inl ⟨hhalf, rfl⟩
    exact SlotsHeld.moves hreg h hmoves (fun _ _ _ => rfl) fun _ _ _ => rfl
  | success now i =>
    exact SlotsHeld.settle hreg h i fun a _ => Or.inr (recordSuccess_state cb now (s.circuit a.key))
  | failure now i classification =>
    refine SlotsHeld.settle hreg h i fun a ha => ?_
    rcases recordFailure_cases cb now (s.circuit a.key) classification with ⟨hclient, heq⟩ | ⟨hne, _⟩
    · exact Or.inl ⟨heq, hord hclient a ha⟩
    · exact Or.inr hne
  | cancel i =>
    intro key hhalf
    show _ = probesIn (s.inFlight.eraseIdx i) key (s.period key)
    rcases ha : s.inFlight[i]? with _ | a
    · rw [List.eraseIdx_of_length_le (List.getElem?_eq_none_iff.mp ha)]
      exact h key hhalf
    · have hprobe := hord a ha
      refine (h key hhalf).trans ?_
      rw [probesIn_eraseIdx ha key, if_neg, Nat.add_zero]
      rintro ⟨rfl, hperiod⟩
      exact hprobe ⟨hhalf, hperiod⟩

/-! ### What closes a circuit -/

/-- A step closes a circuit only by the success of a probe of its present HALF_OPEN period. Kind: D -/
def ClosesByProbe (cb : ProviderCircuitBreaker) (s : BreakerSystem) (op : CircuitOp) : Prop :=
  ∀ key, (s.circuit key).state ≠ .closed → ((step cb s op).circuit key).state = .closed →
    ∃ now i, op = .success now i ∧ ∃ a ∈ s.inFlight[i]?, a.key = key ∧ s.CurrentProbe a

theorem circuit_settle_cases (s : BreakerSystem) (i : ℕ)
    (f : ProviderCircuitState → ProviderCircuitState) (key : ProviderKey) :
    (s.settle i f).circuit key = s.circuit key ∨
      ∃ a ∈ s.inFlight[i]?, a.key = key ∧ (s.settle i f).circuit key = f (s.circuit key) := by
  unfold BreakerSystem.settle
  split
  · exact Or.inl rfl
  · rename_i a ha
    by_cases hkey : key = a.key
    · subst hkey
      exact Or.inr ⟨a, ha, rfl, circuit_put_self s a.key _⟩
    · exact Or.inl (circuit_put_ne s hkey _)

theorem circuit_put_cases (s : BreakerSystem) (key key' : ProviderKey) (st : ProviderCircuitState) :
    (s.put key st).circuit key' = s.circuit key' ∨ key' = key ∧ (s.put key st).circuit key' = st := by
  by_cases hkey : key' = key
  · exact Or.inr ⟨hkey, hkey ▸ circuit_put_self s key st⟩
  · exact Or.inl (circuit_put_ne s hkey st)

theorem closesByProbe_step {op : CircuitOp} (hord : s.Orderly cb op) : s.ClosesByProbe cb op := by
  intro key hbefore hafter
  cases op with
  | check now key' chosen =>
    have hcircuit : (step cb s (.check now key' chosen)).circuit key =
        (s.put key' (cb.isOpen now (s.circuit key')).2).circuit key := by
      unfold step
      dsimp only
      split <;> rfl
    rw [hcircuit] at hafter
    rcases circuit_put_cases s key' key (cb.isOpen now (s.circuit key')).2 with heq | ⟨rfl, heq⟩
    · exact absurd (heq ▸ hafter) hbefore
    · exact absurd (isOpen_closed (heq ▸ hafter)) hbefore
  | read now key' =>
    rcases circuit_put_cases s key' key (cb.wake now (s.circuit key')) with heq | ⟨rfl, heq⟩
    · exact absurd (heq ▸ hafter) hbefore
    · exact absurd (wake_closed (heq ▸ hafter)) hbefore
  | throttle now key' seconds reason =>
    rcases circuit_put_cases s key' key (recordThrottling now (s.circuit key') seconds reason) with
      heq | ⟨rfl, heq⟩
    · exact absurd (heq ▸ hafter) hbefore
    · have hsame : ((step cb s (.throttle now key seconds reason)).circuit key).state =
          (s.circuit key).state := (congrArg ProviderCircuitState.state heq).trans rfl
      exact absurd (hsame ▸ hafter) hbefore
  | success now i =>
    rcases circuit_settle_cases s i (cb.recordSuccess now) key with heq | ⟨a, ha, rfl, heq⟩
    · exact absurd (heq ▸ hafter) hbefore
    · have hwake := recordSuccess_closed hbefore (heq ▸ hafter)
      exact ⟨now, i, rfl, a, ha, rfl, hord a ha hwake⟩
  | failure now i classification =>
    rcases circuit_settle_cases s i (fun st => cb.recordFailure now st classification) key with
      heq | ⟨a, _, rfl, heq⟩
    · exact absurd (heq ▸ hafter) hbefore
    · rcases recordFailure_cases cb now (s.circuit a.key) classification with ⟨_, hsame⟩ | ⟨_, hclosed⟩
      · exact absurd (hsame ▸ heq ▸ hafter) hbefore
      · exact absurd (hclosed (heq ▸ hafter)) hbefore
  | cancel i => exact absurd hafter hbefore

/-! ### Runs -/

/-- What is expected of a circuit: without attempts under way no slot is taken, and a HALF_OPEN circuit
lets the next check through; OPEN has a time; the slots stay within their bound. Kind: D -/
structure Expected (cb : ProviderCircuitBreaker) (s : BreakerSystem) (key : ProviderKey) : Prop where
  idle : (∀ a ∈ s.inFlight, a.key ≠ key) → (s.circuit key).activeProbes = 0
  admits : (∀ a ∈ s.inFlight, a.key ≠ key) → (s.circuit key).state = .halfOpen →
    ∀ now, throttled now (s.circuit key) = false → (cb.isOpen now (s.circuit key)).1 = false
  opened_at : (s.circuit key).state = .opened → (s.circuit key).openedAt.isSome
  probes_le : (s.circuit key).activeProbes ≤ cb.halfOpenMaxProbes

theorem expected_of_slotsHeld (hreg : Regular cb s) (h : s.SlotsHeld) (key : ProviderKey) :
    s.Expected cb key := by
  have hidle : (∀ a ∈ s.inFlight, a.key ≠ key) → (s.circuit key).activeProbes = 0 := by
    intro hnone
    by_cases hhalf : (s.circuit key).state = .halfOpen
    · rw [h key hhalf]
      refine List.countP_eq_zero.mpr fun a ha => ?_
      simp [hnone a ha]
    · exact (hreg.sound key).idle hhalf
  refine ⟨hidle, fun hnone hhalf now hthrottled => ?_, (hreg.sound key).opened_at,
    (hreg.sound key).probes_le⟩
  have hwake : cb.wake now (s.circuit key) = s.circuit key := by grind [wake_cases]
  refine isOpen_of_offersProbe ⟨hthrottled, ?_, ?_⟩
  · rw [hwake, hhalf]
  · rw [hwake, hidle hnone]
    exact cb.probes_pos

/-- **In an orderly run slots come back, and only a probe of the present period closes a circuit.**
Kind: P -/
theorem orderly_run_safe (cb : ProviderCircuitBreaker) (ops : List CircuitOp)
    (h : Along (step cb) (Orderly cb) {} ops) :
    (∀ s ∈ reached (step cb) {} ops, ∀ key, s.Expected cb key) ∧
      Along (step cb) (ClosesByProbe cb) {} ops := by
  have hinv : ∀ s ∈ reached (step cb) {} ops, Regular cb s ∧ s.SlotsHeld := by
    refine Along.invariant (fun s op hs hord => ?_) ⟨regular_init, fun key hhalf => ?_⟩ h
    · exact ⟨regular_step hs.1 op, slotsHeld_step hs.1 hs.2 hord⟩
    · exact absurd (show CircuitState.closed = .halfOpen from hhalf) (by decide)
  refine ⟨fun s hs key => ?_, h.mono fun s op hord => closesByProbe_step hord⟩
  exact expected_of_slotsHeld (hinv s hs).1 (hinv s hs).2 key

/-- A breaker that opens after one failure. Kind: D -/
def quickBreaker : ProviderCircuitBreaker := { minSamples := 1, cooldownSeconds := 10 }

/-- A failure of the provider. Kind: D -/
def serverFailure : FailureClassification :=
  { errorClass := "PROVIDER_UNAVAILABLE", retryable := true, providerFailure := true }

/-- A failure of the client. Kind: D -/
def clientFailure : FailureClassification := { errorClass := "INVALID_REQUEST", clientFailure := true }

/-- A failure opens a circuit, and a probe is under way. Kind: D -/
def probing : List CircuitOp :=
  [.check 0 ("p", "m") true, .failure 1 0 serverFailure, .check 20 ("p", "m") true]

/-- The success of the probe closes the circuit. -/
theorem orderly_run_safe_probe :
    (∀ s ∈ reached (step quickBreaker) {} (probing ++ [.success 21 0]), ∀ key,
      s.Expected quickBreaker key) ∧
      Along (step quickBreaker) (ClosesByProbe quickBreaker) {} (probing ++ [.success 21 0]) :=
  orderly_run_safe quickBreaker _
    ⟨by decide, by decide, by decide, by decide +kernel, trivial⟩

/-- After a failure of the client nothing is under way, the slot of the probe is taken, and every later
check is turned away. -/
theorem client_failure_keeps_slot :
    ∃ s ∈ reached (step quickBreaker) {} (probing ++ [.failure 21 0 clientFailure]),
      s.inFlight = [] ∧ (s.circuit ("p", "m")).state = .halfOpen ∧
        (s.circuit ("p", "m")).activeProbes = 1 ∧
        ∀ now, quickBreaker.isOpen now (s.circuit ("p", "m")) = (true, s.circuit ("p", "m")) := by
  let s := (probing ++ [CircuitOp.failure 21 0 clientFailure]).foldl (step quickBreaker) {}
  have hcircuit : s.circuit ("p", "m") =
      { state := .halfOpen, failures := [true], openedAt := some 1, activeProbes := 1 } := by decide +kernel
  refine ⟨s, foldl_mem_reached _ _, by decide +kernel, ?_, ?_, fun now => ?_⟩
  · rw [hcircuit]
  · rw [hcircuit]
  · rw [hcircuit]
    rfl

end BreakerSystem

end KarsaSec.Ai
