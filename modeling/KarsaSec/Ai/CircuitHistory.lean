import KarsaSec.Ai.CircuitRepository

/-!
# What circuits remember

Which outcomes are in the circuit of each process, in each exported snapshot and in each row.

* `Shows` says that a snapshot is the one of a breaker that was asked and told some entries of the log in order.
* `Story` gives such an order for each circuit, row and snapshot; `Told` is the invariant: what a session writes is
  part of what its process remembers, and what is in step with the row has all that the row has.
* `told_step` has one case for each step; the condition is needed for the flush alone.
* `serial_iff_upToDate`: outcomes stay and old saves are rejected exactly in the runs where every save that finds a
  row is based on its present version.
-/

namespace KarsaSec.Ai

open KarsaSec.Found

/-! ## Snapshots -/

section

variable {cb : ProviderCircuitBreaker}

/-- Circuits with one snapshot differ in their probes only. Kind: L -/
theorem eq_of_snapshot_eq {a b : ProviderCircuitState} (h : a.snapshot = b.snapshot) :
    a = { b with activeProbes := a.activeProbes } := by
  obtain ⟨hstate, _, _, hfailures, hopened, huntil, hreason⟩ := CircuitSnapshot.mk.inj h
  cases a
  cases hstate
  cases hfailures
  cases hopened
  cases huntil
  cases hreason
  rfl

theorem snapshot_wake {a b : ProviderCircuitState} (h : a.snapshot = b.snapshot) (now : ℚ) :
    (cb.wake now a).snapshot = (cb.wake now b).snapshot := by
  rw [eq_of_snapshot_eq h, ProviderCircuitBreaker.wake, ProviderCircuitBreaker.wake]
  dsimp only
  split
  · split <;> rfl
  · rfl

theorem snapshot_isOpen (now : ℚ) (st : ProviderCircuitState) :
    (cb.isOpen now st).2.snapshot = if ProviderCircuitBreaker.throttled now st then st.snapshot
      else (cb.wake now (ProviderCircuitBreaker.clearCooldown st)).snapshot := by
  rw [ProviderCircuitBreaker.isOpen]
  split
  · rfl
  · dsimp only
    split
    · rfl
    · rfl
    · split <;> rfl

/-- What an event makes of the snapshot does not depend on the probes. Kind: L -/
theorem snapshot_apply {a b : ProviderCircuitState} (h : a.snapshot = b.snapshot) (event : CircuitEvent) :
    (event.apply cb a).snapshot = (event.apply cb b).snapshot := by
  cases event with
  | check now =>
    have hclear : (ProviderCircuitBreaker.clearCooldown a).snapshot =
        (ProviderCircuitBreaker.clearCooldown b).snapshot := by
      rw [eq_of_snapshot_eq h, ProviderCircuitBreaker.clearCooldown, ProviderCircuitBreaker.clearCooldown]
      split <;> rfl
    have hthrottled : ProviderCircuitBreaker.throttled now a = ProviderCircuitBreaker.throttled now b := by
      rw [eq_of_snapshot_eq h]
      rfl
    show (cb.isOpen now a).2.snapshot = (cb.isOpen now b).2.snapshot
    rw [snapshot_isOpen, snapshot_isOpen, hthrottled, h, snapshot_wake hclear]
  | success now =>
    have hwake : (cb.wake now a).snapshot = (cb.wake now b).snapshot := snapshot_wake h now
    show (cb.recordSuccess now a).snapshot = (cb.recordSuccess now b).snapshot
    rw [ProviderCircuitBreaker.recordSuccess, ProviderCircuitBreaker.recordSuccess, eq_of_snapshot_eq hwake]
    dsimp only
    split <;> rfl
  | failure now classification =>
    have hnote : (ProviderCircuitBreaker.noteThrottling cb now a classification).snapshot =
        (ProviderCircuitBreaker.noteThrottling cb now b classification).snapshot := by
      rw [eq_of_snapshot_eq h, ProviderCircuitBreaker.noteThrottling, ProviderCircuitBreaker.noteThrottling]
      split <;> rfl
    have hwake : (cb.wake now (ProviderCircuitBreaker.noteThrottling cb now a classification)).snapshot =
        (cb.wake now (ProviderCircuitBreaker.noteThrottling cb now b classification)).snapshot :=
      snapshot_wake hnote now
    show (cb.recordFailure now a classification).snapshot = (cb.recordFailure now b classification).snapshot
    rw [ProviderCircuitBreaker.recordFailure, ProviderCircuitBreaker.recordFailure]
    split
    · exact h
    · rw [eq_of_snapshot_eq hwake, ProviderCircuitBreaker.countFailure, ProviderCircuitBreaker.countFailure]
      dsimp only
      split
      · rfl
      · split <;> rfl
      · rfl

theorem replay_snoc (events : List CircuitEvent) (event : CircuitEvent) :
    replay cb (events ++ [event]) = event.apply cb (replay cb events) := by
  rw [replay, List.foldl_append]
  rfl

end

/-! ## Orders -/

/-- A snapshot is the one of a breaker that was asked and told some entries of the log, each once. Kind: D -/
structure Shows (cb : ProviderCircuitBreaker) (log : List (ProviderKey × CircuitEvent)) (key : ProviderKey)
    (order : List (ℕ × CircuitEvent)) (snapshot : CircuitSnapshot) : Prop where
  nodup : (order.map Prod.fst).Nodup
  logged : ∀ entry ∈ order, log[entry.1]? = some (key, entry.2)
  same : snapshot = (replay cb (order.map Prod.snd)).snapshot

section

variable {cb : ProviderCircuitBreaker} {log : List (ProviderKey × CircuitEvent)} {key : ProviderKey}
  {order : List (ℕ × CircuitEvent)}

theorem getElem?_append_of_some {i : ℕ} {entry : ProviderKey × CircuitEvent} (h : log[i]? = some entry)
    (later : List (ProviderKey × CircuitEvent)) : (log ++ later)[i]? = some entry := by
  obtain ⟨hi, _⟩ := List.getElem?_eq_some_iff.mp h
  rw [List.getElem?_append_left hi]
  exact h

theorem Shows.append {snapshot : CircuitSnapshot} (h : Shows cb log key order snapshot)
    (later : List (ProviderKey × CircuitEvent)) : Shows cb (log ++ later) key order snapshot :=
  ⟨h.nodup, fun entry hentry => getElem?_append_of_some (h.logged entry hentry) later, h.same⟩

/-- One more event goes to the end of the log and of the order. Kind: L -/
theorem Shows.snoc {st : ProviderCircuitState} (h : Shows cb log key order st.snapshot) (event : CircuitEvent) :
    Shows cb (log ++ [(key, event)]) key (order ++ [(log.length, event)]) (event.apply cb st).snapshot := by
  refine ⟨?_, fun entry hentry => ?_, ?_⟩
  · rw [List.map_append]
    refine h.nodup.append (List.nodup_singleton _) fun i hold hnew => ?_
    obtain ⟨entry, hentry, rfl⟩ := List.mem_map.mp hold
    obtain ⟨hlt, _⟩ := List.getElem?_eq_some_iff.mp (h.logged entry hentry)
    exact absurd (List.mem_singleton.mp hnew) hlt.ne
  · rcases List.mem_append.mp hentry with hold | hnew
    · exact getElem?_append_of_some (h.logged entry hold) _
    · simp_all
  · rw [List.map_append]
    show _ = (replay cb (order.map Prod.snd ++ [event])).snapshot
    rw [replay_snoc]
    exact snapshot_apply h.same event

end

/-! ## The invariant -/

/-- The save that a session has under way, from the export on. Kind: D -/
def SavePhase.exporting : SavePhase → Option (ProviderKey × ℕ × CircuitStateData × ℤ)
  | .exported key outcome data base | .selected key outcome data base _ => some (key, outcome, data, base)
  | _ => none

/-- What the circuits of the processes, the rows of the table, the written rows and the exported data know. Kind: D -/
structure Story (π γ : Type) where
  mem : π → ProviderKey → List (ℕ × CircuitEvent)
  row : ProviderKey → List (ℕ × CircuitEvent)
  written : γ → ProviderKey → List (ℕ × CircuitEvent)
  data : γ → List (ℕ × CircuitEvent)

section

variable {π γ : Type}

/-- What the row that a session sees knows. Kind: D -/
def Story.seen (story : Story π γ) (s : CircuitWorkers π γ) (c : γ) (key : ProviderKey) : List (ℕ × CircuitEvent) :=
  if ((s.sessions c).written.get? key).isSome then story.written c key else story.row key

/-- What holds of a session: its rows are locked, newer than the table's and know more; its data know what its
process knew, and all that the row knows which they are in step with; its outcomes are in them. Kind: D -/
structure SessionTold (cb : ProviderCircuitBreaker) (worker : γ → π) (story : Story π γ) (s : CircuitWorkers π γ)
    (c : γ) : Prop where
  written : ∀ {key row}, (s.sessions c).written.get? key = some row →
    Shows cb s.log key (story.written c key) row.toCircuitSnapshot ∧
      story.written c key ⊆ story.mem (worker c) key ∧ story.row key ⊆ story.written c key ∧
      s.locks key = some c ∧ versionOf (s.table.get? key) < row.stateVersion
  exporting : ∀ {key outcome data base}, (s.sessions c).phase.exporting = some (key, outcome, data, base) →
    Shows cb s.log key (story.data c) data.toCircuitSnapshot ∧ story.data c ⊆ story.mem (worker c) key ∧
      base ≤ versionOf (s.seen c key) ∧ (base = versionOf (s.seen c key) → story.seen s c key ⊆ story.data c) ∧
      ∃ event, s.log[outcome]? = some (key, event) ∧ (outcome, event) ∈ story.data c
  found : ∀ {key outcome data base found}, (s.sessions c).phase = .selected key outcome data base found →
    found = s.seen c key ∨ versionOf found < versionOf (s.seen c key) ∧ (s.seen c key).isSome
  recorded : ∀ {key outcome}, (s.sessions c).phase = .recorded key outcome →
    ∃ event, s.log[outcome]? = some (key, event) ∧ (outcome, event) ∈ story.mem (worker c) key
  flushed : ∀ outcome ∈ (s.sessions c).flushed, ∃ key event, s.log[outcome]? = some (key, event) ∧
    ((s.sessions c).written.get? key).isSome ∧ (outcome, event) ∈ story.written c key

/-- What holds of processes, table and sessions. Kind: D -/
structure Told (cb : ProviderCircuitBreaker) (worker : γ → π) (story : Story π γ) (s : CircuitWorkers π γ) :
    Prop where
  mem : ∀ p key, Shows cb s.log key (story.mem p key) (s.circuit p key).snapshot
  row : ∀ key, Shows cb s.log key (story.row key) (persisted (s.table.get? key))
  base : ∀ p key, s.base p key ≤ versionOf (s.table.get? key) ∧
    (s.base p key = versionOf (s.table.get? key) → story.row key ⊆ story.mem p key)
  positive : ∀ key row, s.table.get? key = some row → 0 < row.stateVersion
  session : ∀ c, SessionTold cb worker story s c

/-- Every outcome is known to the table, in the hand of a session, or dropped. Kind: D -/
def Covered (story : Story π γ) (s : CircuitWorkers π γ) : Prop :=
  ∀ i key event, s.log[i]? = some (key, event) → event.isOutcome = true → i ∉ s.dropped →
    (∀ c, i ∉ (s.sessions c).inHand) → (i, event) ∈ story.row key

variable {cb : ProviderCircuitBreaker} {worker : γ → π} {story : Story π γ} {s : CircuitWorkers π γ}

theorem versionOf_nonneg (h : Told cb worker story s) (key : ProviderKey) : 0 ≤ versionOf (s.table.get? key) := by
  cases hrow : s.table.get? key with
  | none => exact le_rfl
  | some row => exact (h.positive key row hrow).le

theorem seen_of_written {c : γ} {key : ProviderKey} {row : CircuitRow}
    (h : (s.sessions c).written.get? key = some row) : s.seen c key = some row := by
  rw [CircuitWorkers.seen, h, Option.some_or]

theorem seen_of_not_written {c : γ} {key : ProviderKey} (h : (s.sessions c).written.get? key = none) :
    s.seen c key = s.table.get? key := by
  rw [CircuitWorkers.seen, h, Option.none_or]

theorem Story.seen_of_written {c : γ} {key : ProviderKey} {row : CircuitRow}
    (h : (s.sessions c).written.get? key = some row) : story.seen s c key = story.written c key := by
  rw [Story.seen, h]
  rfl

theorem Story.seen_of_not_written {c : γ} {key : ProviderKey} (h : (s.sessions c).written.get? key = none) :
    story.seen s c key = story.row key := by
  rw [Story.seen, h]
  rfl

/-- A session that has nothing under way is told of. Kind: L -/
theorem sessionTold_of_eq {c : γ} (h : s.sessions c = {}) : SessionTold cb worker story s c where
  written hrow := by
    rw [h] at hrow
    cases hrow
  exporting hphase := by
    rw [h] at hphase
    cases hphase
  found hphase := by
    rw [h] at hphase
    cases hphase
  recorded hphase := by
    rw [h] at hphase
    cases hphase
  flushed outcome hin := by
    rw [h] at hin
    cases hin

/-- What may happen around a session: the log and the memory of its process grow, its locks stay, and a row changes
only if it has not written it, and gets a higher version then. Kind: D -/
structure Around (worker : γ → π) (story story' : Story π γ) (s s' : CircuitWorkers π γ) (c : γ) : Prop where
  session : s'.sessions c = s.sessions c
  written : story'.written c = story.written c
  data : story'.data c = story.data c
  log : ∃ later, s'.log = s.log ++ later
  mem : ∀ key, story.mem (worker c) key ⊆ story'.mem (worker c) key
  locks : ∀ key, s.locks key = some c → s'.locks key = some c
  row : ∀ key, (s'.table.get? key = s.table.get? key ∧ story'.row key = story.row key) ∨
    ((s.sessions c).written.get? key = none ∧ versionOf (s.table.get? key) < versionOf (s'.table.get? key) ∧
      (s'.table.get? key).isSome)

/-- What happens around a session leaves what holds of it. Kind: L -/
theorem SessionTold.around {c : γ} {story' : Story π γ} {s' : CircuitWorkers π γ}
    (h : SessionTold cb worker story s c) (ha : Around worker story story' s s' c) :
    SessionTold cb worker story' s' c := by
  obtain ⟨later, hlog⟩ := ha.log
  have hseen : ∀ key, (s'.seen c key = s.seen c key ∧ story'.seen s' c key = story.seen s c key) ∨
      versionOf (s.seen c key) < versionOf (s'.seen c key) ∧ (s'.seen c key).isSome := by
    intro key
    cases hrow : (s.sessions c).written.get? key with
    | some row =>
      have hrow' : (s'.sessions c).written.get? key = some row := by
        rw [ha.session]
        exact hrow
      refine Or.inl ⟨?_, ?_⟩
      · rw [seen_of_written hrow, seen_of_written hrow']
      · rw [Story.seen_of_written hrow, Story.seen_of_written hrow', ha.written]
    | none =>
      have hrow' : (s'.sessions c).written.get? key = none := by
        rw [ha.session]
        exact hrow
      rw [seen_of_not_written hrow, seen_of_not_written hrow', Story.seen_of_not_written hrow,
        Story.seen_of_not_written hrow']
      rcases ha.row key with hsame | ⟨_, hlt, hsome⟩
      · exact Or.inl hsame
      · exact Or.inr ⟨hlt, hsome⟩
  constructor
  case written =>
    intro key row hrow
    rw [ha.session] at hrow
    obtain ⟨hshows, hmem, hless, hlock, hversion⟩ := h.written hrow
    rw [ha.written, hlog]
    rcases ha.row key with ⟨htable, hstory⟩ | ⟨hnone, _⟩
    · rw [htable, hstory]
      exact ⟨hshows.append later, List.Subset.trans hmem (ha.mem key), hless, ha.locks key hlock, hversion⟩
    · cases hnone.symm.trans hrow
  case exporting =>
    intro key outcome data base hphase
    rw [ha.session] at hphase
    obtain ⟨hshows, hmem, hbase, hstep, event, hevent, hin⟩ := h.exporting hphase
    rw [ha.data, hlog]
    refine ⟨hshows.append later, List.Subset.trans hmem (ha.mem key), ?_, fun heq => ?_, event,
      getElem?_append_of_some hevent later, hin⟩
    · grind
    · grind
  case found =>
    intro key outcome data base found hphase
    rw [ha.session] at hphase
    rcases hseen key with ⟨hsame, _⟩ | ⟨hlt, hsome⟩
    · rw [hsame]
      exact h.found hphase
    · refine Or.inr ⟨?_, hsome⟩
      rcases h.found hphase with rfl | ⟨hless, _⟩
      · exact hlt
      · exact hless.trans hlt
  case recorded =>
    intro key outcome hphase
    rw [ha.session] at hphase
    obtain ⟨event, hevent, hin⟩ := h.recorded hphase
    rw [hlog]
    exact ⟨event, getElem?_append_of_some hevent later, ha.mem key hin⟩
  case flushed =>
    intro outcome hflushed
    rw [ha.session] at hflushed ⊢
    obtain ⟨key, event, hevent, hwritten, hin⟩ := h.flushed outcome hflushed
    rw [hlog, ha.written]
    exact ⟨key, event, getElem?_append_of_some hevent later, hwritten, hin⟩

end

/-! ## The steps -/

section

variable {π γ : Type} {cb : ProviderCircuitBreaker} {worker : γ → π}
  {story : Story π γ} {s : CircuitWorkers π γ}

section

variable [DecidableEq π]

/-- A process remembers one more event. Kind: D -/
def Story.remember (story : Story π γ) (p : π) (key : ProviderKey) (entry : ℕ × CircuitEvent) : Story π γ :=
  { story with mem := Function.update story.mem p (Function.update (story.mem p) key (story.mem p key ++ [entry])) }

theorem Story.mem_remember (story : Story π γ) (p p' : π) (key key' : ProviderKey) (entry : ℕ × CircuitEvent) :
    (story.remember p key entry).mem p' key' =
      if p' = p ∧ key' = key then story.mem p key ++ [entry] else story.mem p' key' := by
  rw [Story.remember]
  dsimp only
  by_cases hp : p' = p
  · subst hp
    rw [Function.update_self]
    by_cases hkey : key' = key
    · simp_all
    · rw [Function.update_of_ne hkey, if_neg fun h => hkey h.2]
  · rw [Function.update_of_ne hp, if_neg fun h => hp h.1]

theorem Story.subset_remember (story : Story π γ) (p p' : π) (key key' : ProviderKey) (entry : ℕ × CircuitEvent) :
    story.mem p' key' ⊆ (story.remember p key entry).mem p' key' := by
  rw [Story.mem_remember]
  split
  · simp_all
  · exact List.Subset.refl _

theorem circuit_observe (s : CircuitWorkers π γ) (p p' : π) (key key' : ProviderKey) (event : CircuitEvent) :
    (s.observe cb p key event).circuit p' key' =
      if p' = p ∧ key' = key then event.apply cb (s.circuit p key) else s.circuit p' key' := by
  rw [CircuitWorkers.circuit, CircuitWorkers.observe]
  dsimp only
  by_cases hp : p' = p
  · subst hp
    rw [Function.update_self]
    by_cases hkey : key' = key
    · subst hkey
      rw [Dict.getD_set_self, if_pos ⟨rfl, rfl⟩]
    · rw [Dict.getD_set_ne _ hkey, if_neg fun h => hkey h.2]
      rfl
  · rw [Function.update_of_ne hp, if_neg fun h => hp h.1]
    rfl

/-- What a process asks or tells its breaker, it remembers. Kind: L -/
theorem Told.observe (h : Told cb worker story s) (p : π) (key : ProviderKey) (event : CircuitEvent) :
    Told cb worker (story.remember p key (s.log.length, event)) (s.observe cb p key event) where
  mem p' key' := by
    rw [Story.mem_remember, circuit_observe]
    split
    · rename_i heq
      obtain ⟨rfl, rfl⟩ := heq
      exact (h.mem _ _).snoc event
    · exact (h.mem p' key').append _
  row key' := (h.row key').append _
  base p' key' :=
    ⟨(h.base p' key').1, fun heq => List.Subset.trans ((h.base p' key').2 heq) (story.subset_remember p p' key key' _)⟩
  positive := h.positive
  session c := (h.session c).around
    { session := rfl
      written := rfl
      data := rfl
      log := ⟨_, rfl⟩
      mem := fun key' => story.subset_remember p (worker c) key key' _
      locks := fun _ hlock => hlock
      row := fun _ => Or.inl ⟨rfl, rfl⟩ }

end

section

variable [DecidableEq γ]

/-- A step of one session on its own. Kind: L -/
theorem Told.goto (h : Told cb worker story s) {c : γ} {phase : SavePhase} {data : List (ℕ × CircuitEvent)}
    (hc : SessionTold cb worker { story with data := Function.update story.data c data } (s.goto c phase) c) :
    Told cb worker { story with data := Function.update story.data c data } (s.goto c phase) where
  mem := h.mem
  row := h.row
  base := h.base
  positive := h.positive
  session c' := by
    by_cases hne : c' = c
    · exact hne ▸ hc
    · exact (h.session c').around
        { session := Function.update_of_ne hne _ _
          written := rfl
          data := Function.update_of_ne hne _ _
          log := ⟨[], (List.append_nil _).symm⟩
          mem := fun _ => List.Subset.refl _
          locks := fun _ hlock => hlock
          row := fun _ => Or.inl ⟨rfl, rfl⟩ }

theorem sessions_goto (s : CircuitWorkers π γ) (c : γ) (phase : SavePhase) :
    (s.goto c phase).sessions c = { s.sessions c with phase := phase } := Function.update_self _ _ _

theorem seen_goto (s : CircuitWorkers π γ) (c : γ) (phase : SavePhase) (key : ProviderKey) :
    (s.goto c phase).seen c key = s.seen c key := by
  rw [CircuitWorkers.seen, sessions_goto]
  rfl

/-- What holds of a session after it has gone on. Kind: L -/
theorem SessionTold.goto {c : γ} (h : SessionTold cb worker story s c) {phase : SavePhase}
    (order : List (ℕ × CircuitEvent))
    (hexporting : ∀ {key outcome data base}, phase.exporting = some (key, outcome, data, base) →
      Shows cb s.log key order data.toCircuitSnapshot ∧ order ⊆ story.mem (worker c) key ∧
        base ≤ versionOf (s.seen c key) ∧ (base = versionOf (s.seen c key) → story.seen s c key ⊆ order) ∧
        ∃ event, s.log[outcome]? = some (key, event) ∧ (outcome, event) ∈ order)
    (hfound : ∀ {key outcome data base found}, phase = .selected key outcome data base found → found = s.seen c key)
    (hrecorded : ∀ {key outcome}, phase = .recorded key outcome →
      ∃ event, s.log[outcome]? = some (key, event) ∧ (outcome, event) ∈ story.mem (worker c) key) :
    SessionTold cb worker { story with data := Function.update story.data c order } (s.goto c phase) c := by
  constructor
  case written =>
    intro key row hrow
    rw [sessions_goto] at hrow
    exact h.written hrow
  case exporting =>
    intro key outcome data base hphase
    rw [sessions_goto] at hphase
    rw [seen_goto]
    dsimp only
    rw [Function.update_self, Story.seen, sessions_goto]
    exact hexporting hphase
  case found =>
    intro key outcome data base found hphase
    rw [sessions_goto] at hphase
    rw [seen_goto]
    exact Or.inl (hfound hphase)
  case recorded =>
    intro key outcome hphase
    rw [sessions_goto] at hphase
    exact hrecorded hphase
  case flushed =>
    intro outcome hflushed
    rw [sessions_goto] at hflushed ⊢
    exact h.flushed outcome hflushed

theorem inHand_goto (s : CircuitWorkers π γ) (c c' : γ) (phase : SavePhase) :
    ((s.goto c phase).sessions c').inHand =
      if c' = c then phase.outcome.toList ++ (s.sessions c).flushed else (s.sessions c').inHand := by
  by_cases hc : c' = c
  · subst hc
    rw [sessions_goto, if_pos rfl]
    rfl
  · rw [if_neg hc]
    exact congrArg CircuitSession.inHand (Function.update_of_ne hc _ _)

/-- A session that goes on with its outcome keeps what is known. Kind: L -/
theorem Covered.goto (h : Covered story s) {c : γ} {phase : SavePhase}
    (hkeeps : phase.outcome = (s.sessions c).phase.outcome) (data : γ → List (ℕ × CircuitEvent)) :
    Covered { story with data := data } (s.goto c phase) := by
  intro i key event hlog houtcome hdropped hhand
  refine h i key event hlog houtcome hdropped fun c' hin => hhand c' ?_
  rw [inHand_goto]
  split
  · rename_i heq
    rw [hkeeps, ← heq]
    exact hin
  · exact hin

end

variable [DecidableEq π] [DecidableEq γ]

/-- An outcome is recorded. Kind: L -/
theorem Told.record (h : Told cb worker story s) (hcovered : Covered story s) (c : γ) (key : ProviderKey)
    (event : CircuitEvent) :
    ∃ story', Told cb worker story' (s.record cb worker c key event) ∧
      Covered story' (s.record cb worker c key event) := by
  rw [CircuitWorkers.record]
  split
  · rename_i hidle
    have hseen := h.observe (worker c) key event
    have hmem : (s.log.length, event) ∈
        (story.remember (worker c) key (s.log.length, event)).mem (worker c) key := by
      rw [Story.mem_remember, if_pos ⟨rfl, rfl⟩]
      exact List.mem_append_right _ (List.mem_singleton_self _)
    refine ⟨_, hseen.goto ((hseen.session c).goto (story.data c) ?_ ?_ ?_), ?_⟩
    · intro key outcome data base hphase
      cases hphase
    · intro key outcome data base found hphase
      cases hphase
    · intro key outcome hphase
      cases hphase
      exact ⟨event, List.getElem?_concat_length, hmem⟩
    · intro i key' event' hlog houtcome hdropped hhand
      have hlog' : (s.log ++ [(key, event)])[i]? = some (key', event') := hlog
      rcases Nat.lt_or_ge i s.log.length with hlt | hge
      · rw [List.getElem?_append_left hlt] at hlog'
        refine hcovered i key' event' hlog' houtcome hdropped fun c' hin => hhand c' ?_
        rw [inHand_goto]
        split
        · rename_i heq
          rw [heq, CircuitSession.inHand, hidle] at hin
          exact List.mem_append_right _ hin
        · exact hin
      · have hlast : i = s.log.length := by grind
        refine absurd ?_ (hhand c)
        rw [inHand_goto, if_pos rfl, hlast]
        exact List.mem_cons_self
  · exact ⟨story, h, hcovered⟩

omit [DecidableEq γ] in
/-- A circuit is checked. Kind: L -/
theorem Covered.check (hcovered : Covered story s) (p : π) (key : ProviderKey) (now : ℚ) :
    Covered (story.remember p key (s.log.length, .check now)) (s.observe cb p key (.check now)) := by
  intro i key' event hlog houtcome hdropped hhand
  have hlog' : (s.log ++ [(key, CircuitEvent.check now)])[i]? = some (key', event) := hlog
  rcases Nat.lt_or_ge i s.log.length with hlt | hge
  · rw [List.getElem?_append_left hlt] at hlog'
    exact hcovered i key' event hlog' houtcome hdropped hhand
  · rw [List.getElem?_append_right hge] at hlog'
    obtain ⟨rfl, rfl⟩ := Prod.mk.inj (List.mem_singleton.mp (List.mem_of_getElem? hlog'))
    cases houtcome

/-- The circuit is exported. Kind: L -/
theorem Told.exportData (h : Told cb worker story s) (hcovered : Covered story s) (c : γ) :
    ∃ story', Told cb worker story' (s.step cb worker (.exportData c)) ∧
      Covered story' (s.step cb worker (.exportData c)) := by
  rw [CircuitWorkers.step]
  split
  · rename_i key outcome hphase
    refine ⟨_, h.goto ((h.session c).goto (story.mem (worker c) key) ?_ ?_ ?_), hcovered.goto ?_ _⟩
    · intro key' outcome' data base hexport
      obtain ⟨rfl, rfl, rfl, rfl⟩ : key = key' ∧ outcome = outcome' ∧
          KarsaSec.Ai.exportData key (s.circuit (worker c) key) = data ∧ _ = base := by
        simpa [SavePhase.exporting] using hexport
      refine ⟨h.mem _ _, List.Subset.refl _, ?_⟩
      have hrecorded := (h.session c).recorded hphase
      cases hrow : (s.sessions c).written.get? key with
      | some row =>
        rw [seen_of_written hrow, Story.seen_of_written hrow]
        exact ⟨le_rfl, fun _ => ((h.session c).written hrow).2.1, hrecorded⟩
      | none =>
        rw [seen_of_not_written hrow, Story.seen_of_not_written hrow]
        exact ⟨(h.base _ _).1, (h.base _ _).2, hrecorded⟩
    · intro key' outcome' data base found heq
      cases heq
    · intro key' outcome' heq
      cases heq
    · rw [hphase]
      rfl
  · exact ⟨story, h, hcovered⟩

/-- The row is found. Kind: L -/
theorem Told.select (h : Told cb worker story s) (hcovered : Covered story s) (c : γ) :
    ∃ story', Told cb worker story' (s.step cb worker (.select c)) ∧
      Covered story' (s.step cb worker (.select c)) := by
  rw [CircuitWorkers.step]
  split
  · rename_i key outcome data base hphase
    refine ⟨_, h.goto ((h.session c).goto (story.data c) ?_ ?_ ?_), hcovered.goto ?_ _⟩
    · intro key' outcome' data' base' hexport
      refine (h.session c).exporting ?_
      rw [hphase]
      exact hexport
    · simp_all
    · intro key' outcome' heq
      cases heq
    · rw [hphase]
      rfl
  · exact ⟨story, h, hcovered⟩

/-! ### Saves -/

theorem changed_self {α : Type} [DecidableEq α] (x y : α) : changed x y x = y := by
  rw [changed]
  split
  · rename_i heq
    exact heq.symm
  · rfl

/-- The row that a save makes of the one that it has found. Kind: D -/
def replacing (row : Option CircuitRow) (data : CircuitStateData) : CircuitRow :=
  { data.toCircuitSnapshot with stateVersion := versionOf row + 1 }

omit [DecidableEq π] [DecidableEq γ] in
/-- A save of a row that is as it was found writes all columns and the next version. Kind: L -/
theorem saved_of_seen (c : γ) (key : ProviderKey) (data : CircuitStateData) :
    s.saved c key data (s.seen c key) = .ok (replacing (s.seen c key) data) := by
  rw [CircuitWorkers.saved]
  cases s.seen c key with
  | none => rfl
  | some row =>
    show writeRow (some row) { data.toCircuitSnapshot with stateVersion := row.stateVersion + 1 } (some row) = _
    rw [writeRow]
    simp only [changed_self]
    rfl

omit [DecidableEq π] [DecidableEq γ] in
/-- A save raises only where a row was inserted or deleted since. Kind: L -/
theorem saved_error_iff (c : γ) (key : ProviderKey) (data : CircuitStateData) (found : Option CircuitRow) :
    (∃ e, s.saved c key data found = .error e) ↔
      found = none ∧ (s.seen c key).isSome ∨ found.isSome ∧ s.seen c key = none := by
  rw [CircuitWorkers.saved]
  cases found with
  | none =>
    cases s.seen c key with
    | none => simp [save, writeRow, bind, Except.bind]
    | some row => simp [save, writeRow, bind, Except.bind]
  | some found =>
    cases s.seen c key with
    | none => simp [save, writeRow, bind, Except.bind]
    | some row => simp [save, writeRow, bind, Except.bind]

omit [DecidableEq π] in
theorem sessions_write (s : CircuitWorkers π γ) (c : γ) (key : ProviderKey) (outcome : ℕ) (row : CircuitRow) :
    (s.write c key outcome row).sessions c =
      { written := (s.sessions c).written.set key row, flushed := (s.sessions c).flushed ++ [outcome] } :=
  Function.update_self _ _ _

/-- A row that was written knows what the exported data did. Kind: D -/
def Story.write (story : Story π γ) (c : γ) (key : ProviderKey) : Story π γ :=
  { story with written := Function.update story.written c (Function.update (story.written c) key (story.data c)) }

omit [DecidableEq π] in
theorem Story.written_write (story : Story π γ) (c : γ) (key key' : ProviderKey) :
    (story.write c key).written c key' = if key' = key then story.data c else story.written c key' := by
  rw [Story.write]
  dsimp only
  rw [Function.update_self]
  by_cases hkey : key' = key
  · subst hkey
    rw [Function.update_self, if_pos rfl]
  · rw [Function.update_of_ne hkey, if_neg hkey]

section

variable {c : γ} {key : ProviderKey} {outcome : ℕ} {data : CircuitStateData} {base : ℤ}

omit [DecidableEq π] in
/-- What holds of a session after it has written a row over the one that it sees. Kind: L -/
theorem SessionTold.write (h : SessionTold cb worker story s c)
    (hexport : (s.sessions c).phase.exporting = some (key, outcome, data, base))
    (hbase : base = versionOf (s.seen c key)) :
    SessionTold cb worker (story.write c key) (s.write c key outcome (replacing (s.seen c key) data)) c := by
  obtain ⟨hshows, hmem, _, hstep, event, hevent, hin⟩ := h.exporting hexport
  have hless := hstep hbase
  have hrow : story.row key ⊆ story.data c ∧ versionOf (s.table.get? key) ≤ versionOf (s.seen c key) := by
    cases hwritten : (s.sessions c).written.get? key with
    | some row =>
      obtain ⟨_, _, hknown, _, hversion⟩ := h.written hwritten
      rw [Story.seen_of_written hwritten] at hless
      rw [seen_of_written hwritten]
      exact ⟨List.Subset.trans hknown hless, hversion.le⟩
    | none =>
      rw [Story.seen_of_not_written hwritten] at hless
      rw [seen_of_not_written hwritten]
      exact ⟨hless, le_rfl⟩
  constructor
  case written =>
    intro key' row hget
    rw [sessions_write, Dict.get?_set] at hget
    rw [Story.written_write]
    by_cases hkey : key' = key
    · subst hkey
      rw [if_pos rfl] at hget ⊢
      cases hget
      exact ⟨hshows, hmem, hrow.1, Function.update_self _ _ _, Int.lt_add_one_iff.mpr hrow.2⟩
    · rw [if_neg hkey] at hget ⊢
      obtain ⟨hshows', hmem', hknown, hlock, hversion⟩ := h.written hget
      exact ⟨hshows', hmem', hknown, (Function.update_of_ne hkey _ _).trans hlock, hversion⟩
  case exporting =>
    intro key' outcome' data' base' hphase
    rw [sessions_write] at hphase
    cases hphase
  case found =>
    intro key' outcome' data' base' found hphase
    rw [sessions_write] at hphase
    cases hphase
  case recorded =>
    intro key' outcome' hphase
    rw [sessions_write] at hphase
    cases hphase
  case flushed =>
    intro i hflushed
    have hput : ∀ {key' event}, s.log[i]? = some (key', event) → (i, event) ∈ (story.write c key).written c key' →
        (key' ≠ key → ((s.sessions c).written.get? key').isSome) →
          ∃ other event', s.log[i]? = some (other, event') ∧
            (((s.sessions c).written.set key (replacing (s.seen c key) data)).get? other).isSome ∧
            (i, event') ∈ (story.write c key).written c other := by
      intro key' event hlog hknown hwritten
      refine ⟨key', event, hlog, ?_, hknown⟩
      rw [Dict.get?_set]
      split
      · rfl
      · exact hwritten ‹_›
    rw [sessions_write] at hflushed ⊢
    rcases List.mem_append.mp hflushed with hold | hnew
    · obtain ⟨key', event', hlog, hwritten, hknown⟩ := h.flushed i hold
      refine hput hlog ?_ fun _ => hwritten
      rw [Story.written_write]
      split
      · rename_i hkey
        refine hless ?_
        rw [Story.seen, if_pos (hkey ▸ hwritten), ← hkey]
        exact hknown
      · exact hknown
    · obtain rfl := List.mem_singleton.mp hnew
      refine hput hevent ?_ fun hne => absurd rfl hne
      rw [Story.written_write, if_pos rfl]
      exact hin

omit [DecidableEq π] in
/-- A row is written over the one that is seen. Kind: L -/
theorem Told.write (h : Told cb worker story s)
    (hexport : (s.sessions c).phase.exporting = some (key, outcome, data, base)) (hfree : s.Free c key)
    (hbase : base = versionOf (s.seen c key)) :
    Told cb worker (story.write c key) (s.write c key outcome (replacing (s.seen c key) data)) where
  mem := h.mem
  row := h.row
  base := h.base
  positive := h.positive
  session c' := by
    by_cases hc : c' = c
    · subst hc
      exact (h.session c').write hexport hbase
    · refine (h.session c').around
        { session := Function.update_of_ne hc _ _
          written := Function.update_of_ne hc _ _
          data := rfl
          log := ⟨[], (List.append_nil _).symm⟩
          mem := fun _ => List.Subset.refl _
          locks := fun key' hlock => ?_
          row := fun _ => Or.inl ⟨rfl, rfl⟩ }
      refine (Function.update_of_ne ?_ _ _).trans hlock
      rintro rfl
      rcases hfree with hnone | hself
      · cases hnone.symm.trans hlock
      · exact hc (Option.some.inj (hlock.symm.trans hself))

omit [DecidableEq π] in
/-- The outcome of a save stays in hand until the commit. Kind: L -/
theorem Covered.write (hcovered : Covered story s)
    (hphase : (s.sessions c).phase.outcome = some outcome) (row : CircuitRow) :
    Covered (story.write c key) (s.write c key outcome row) := by
  intro i key' event' hlog houtcome hdropped hhand
  refine hcovered i key' event' hlog houtcome hdropped fun c' hold => hhand c' ?_
  by_cases hc : c' = c
  · grind [sessions_write, CircuitSession.inHand]
  · have hsame : (s.write c key outcome row).sessions c' = s.sessions c' := Function.update_of_ne hc _ _
    rw [hsame]
    exact hold

end

omit [DecidableEq π] [DecidableEq γ] in
/-- What a session sees, with what it knows, is as new as the table and knows as much. Kind: L -/
theorem Told.seen (h : Told cb worker story s) (c : γ) (key : ProviderKey) :
    Shows cb s.log key (story.seen s c key) (persisted (s.seen c key)) ∧
      story.row key ⊆ story.seen s c key ∧
      ((s.seen c key = s.table.get? key ∧ story.seen s c key = story.row key ∧
          (s.sessions c).written.get? key = none) ∨
        ∃ row, (s.sessions c).written.get? key = some row ∧ s.seen c key = some row ∧
          story.seen s c key = story.written c key ∧ versionOf (s.table.get? key) < row.stateVersion) := by
  cases hwritten : (s.sessions c).written.get? key with
  | none =>
    rw [seen_of_not_written hwritten, Story.seen_of_not_written hwritten]
    exact ⟨h.row key, List.Subset.refl _, Or.inl ⟨rfl, rfl, rfl⟩⟩
  | some row =>
    obtain ⟨hshows, _, hknown, _, hversion⟩ := (h.session c).written hwritten
    rw [seen_of_written hwritten, Story.seen_of_written hwritten]
    exact ⟨hshows, hknown, Or.inr ⟨row, rfl, rfl, rfl, hversion⟩⟩

/-! ### Ends of transactions -/

/-- The table knows what the rows of a session knew. Kind: D -/
def Story.commit (story : Story π γ) (s : CircuitWorkers π γ) (c : γ) : Story π γ :=
  { story with row := story.seen s c }

theorem get?_committed (s : CircuitWorkers π γ) (c : γ) (key : ProviderKey) :
    (s.committed worker c).table.get? key = s.seen c key := Dict.get?_update _ _ _

theorem base_committed (s : CircuitWorkers π γ) (c : γ) (p : π) (key : ProviderKey) :
    (s.committed worker c).base p key =
      if p = worker c ∧ ((s.sessions c).written.get? key).isSome then versionOf (s.seen c key) else s.base p key := by
  rw [CircuitWorkers.committed]
  dsimp only
  by_cases hp : p = worker c
  · subst hp
    rw [Function.update_self]
    cases hwritten : (s.sessions c).written.get? key with
    | some row =>
      rw [if_pos ⟨rfl, rfl⟩, seen_of_written hwritten]
      rfl
    | none => rw [if_neg fun h => Bool.noConfusion h.2]
  · rw [Function.update_of_ne hp, if_neg fun h => hp h.1]

/-- A session commits. Kind: L -/
theorem Told.commit (h : Told cb worker story s) (c : γ) :
    Told cb worker (story.commit s c) (s.committed worker c) where
  mem := h.mem
  row key := by
    rw [get?_committed]
    exact (h.seen c key).1
  base p key := by
    rw [get?_committed, base_committed]
    obtain ⟨_, _, hcases⟩ := h.seen c key
    obtain ⟨hle, heq⟩ := h.base p key
    rcases hcases with ⟨hseen, hstory, hnone⟩ | ⟨row, hsome, hseen, hstory, hlt⟩
    · rw [if_neg fun hin => by rw [hnone] at hin; exact Bool.noConfusion hin.2, hseen]
      refine ⟨hle, fun hsame => ?_⟩
      show story.seen s c key ⊆ story.mem p key
      rw [hstory]
      exact heq hsame
    · have hversion : versionOf (s.seen c key) = row.stateVersion := by
        rw [hseen]
        rfl
      split
      · rename_i hin
        refine ⟨le_rfl, fun _ => ?_⟩
        show story.seen s c key ⊆ story.mem p key
        rw [hin.1, hstory]
        exact ((h.session c).written hsome).2.1
      · omega
  positive key row hrow := by
    rw [get?_committed] at hrow
    obtain ⟨_, _, hcases⟩ := h.seen c key
    rcases hcases with ⟨hseen, _, _⟩ | ⟨row', _, hseen, _, hlt⟩
    · exact h.positive key row (hseen ▸ hrow)
    · cases hseen.symm.trans hrow
      exact (versionOf_nonneg h key).trans_lt hlt
  session c' := by
    by_cases hc : c' = c
    · exact sessionTold_of_eq (hc ▸ Function.update_self _ _ _)
    · refine (h.session c').around
        { session := Function.update_of_ne hc _ _
          written := rfl
          data := rfl
          log := ⟨[], (List.append_nil _).symm⟩
          mem := fun _ => List.Subset.refl _
          locks := fun key hlock => ?_
          row := fun key => ?_ }
      · show (s.locks key).filter (· ≠ c) = some c'
        rw [hlock]
        exact Option.filter_some_pos (decide_eq_true hc)
      · rw [get?_committed]
        obtain ⟨_, _, hcases⟩ := h.seen c key
        rcases hcases with ⟨hseen, hstory, _⟩ | ⟨row, hsome, hseen, _, hlt⟩
        · exact Or.inl ⟨hseen, hstory⟩
        · refine Or.inr ⟨?_, ?_, ?_⟩
          · cases hother : (s.sessions c').written.get? key with
            | none => rfl
            | some row' =>
              have hlock := ((h.session c).written hsome).2.2.2.1
              have hlock' := ((h.session c').written hother).2.2.2.1
              exact absurd (Option.some.inj (hlock'.symm.trans hlock)) hc
          · rw [hseen]
            exact hlt
          · rw [hseen]
            rfl

/-- What a session had saved, the table has. Kind: L -/
theorem Covered.commit (hcovered : Covered story s) (h : Told cb worker story s) {c : γ}
    (hidle : (s.sessions c).phase = .idle) : Covered (story.commit s c) (s.committed worker c) := by
  intro i key event hlog houtcome hdropped hhand
  obtain ⟨_, hless, _⟩ := h.seen c key
  by_cases hin : i ∈ (s.sessions c).inHand
  · have hflushed : i ∈ (s.sessions c).flushed := by
      rw [CircuitSession.inHand, hidle] at hin
      exact hin
    obtain ⟨key', event', hlog', hwritten, hknown⟩ := (h.session c).flushed i hflushed
    have hentry : some (key', event') = some (key, event) := hlog'.symm.trans hlog
    cases hentry
    show (i, event) ∈ story.seen s c key
    rw [Story.seen, if_pos hwritten]
    exact hknown
  · refine hless (hcovered i key event hlog houtcome hdropped fun c' hin' => ?_)
    by_cases hc : c' = c
    · exact hin (hc ▸ hin')
    · refine hhand c' ?_
      have hsame : (s.committed worker c).sessions c' = s.sessions c' := Function.update_of_ne hc _ _
      rw [hsame]
      exact hin'

omit [DecidableEq π] [DecidableEq γ] in
/-- Some transactions end without effect. Kind: L -/
theorem Told.abort (h : Told cb worker story s) (ends : γ → Bool) : Told cb worker story (s.abort ends) where
  mem := h.mem
  row := h.row
  base := h.base
  positive := h.positive
  session c := by
    by_cases hends : ends c = true
    · exact sessionTold_of_eq (if_pos hends)
    · exact (h.session c).around
        { session := if_neg hends
          written := rfl
          data := rfl
          log := ⟨[], (List.append_nil _).symm⟩
          mem := fun _ => List.Subset.refl _
          locks := fun key hlock => by
            show (s.locks key).filter (fun c => !ends c) = some c
            rw [hlock]
            exact Option.filter_some_pos (by simpa using hends)
          row := fun _ => Or.inl ⟨rfl, rfl⟩ }

omit [DecidableEq π] [DecidableEq γ] in
theorem Covered.abort (hcovered : Covered story s) (ends : γ → Bool) : Covered story (s.abort ends) := by
  intro i key event hlog houtcome hdropped hhand
  have hsplit : i ∉ s.dropped ∧ ¬ ∃ c, ends c = true ∧ i ∈ (s.sessions c).inHand := not_or.mp hdropped
  refine hcovered i key event hlog houtcome hsplit.1 fun c hin => ?_
  by_cases hends : ends c = true
  · exact hsplit.2 ⟨c, hends, hin⟩
  · refine hhand c ?_
    have hsame : (s.abort ends).sessions c = s.sessions c := if_neg hends
    rw [hsame]
    exact hin

omit [DecidableEq γ] in
/-- A process starts again: it knows what the table knows. Kind: L -/
theorem Told.restart (h : Told cb worker story s) (p : π) :
    Told cb worker { story with mem := Function.update story.mem p story.row } (s.restarted worker p) where
  mem p' key := by
    rw [CircuitWorkers.restarted, CircuitWorkers.circuit]
    dsimp only
    by_cases hp : p' = p
    · subst hp
      rw [Function.update_self, Function.update_self, Dict.getD, Dict.get?_mapValues]
      have hrow := h.row key
      cases htable : s.table.get? key with
      | none =>
        rw [htable] at hrow
        exact hrow
      | some row =>
        rw [htable] at hrow
        have hrestored : (restoreFromData row.toCircuitSnapshot).snapshot = row.toCircuitSnapshot := by
          have hsame : row.toCircuitSnapshot = (replay cb ((story.row key).map Prod.snd)).snapshot := hrow.same
          rw [hsame]
          rfl
        show Shows cb s.log key (story.row key) (restoreFromData row.toCircuitSnapshot).snapshot
        rw [hrestored]
        exact hrow
    · rw [Function.update_of_ne hp, Function.update_of_ne hp]
      exact h.mem p' key
  row := h.row
  base p' key := by
    rw [CircuitWorkers.restarted]
    dsimp only
    by_cases hp : p' = p
    · subst hp
      rw [Function.update_self, Function.update_self]
      exact ⟨le_rfl, fun _ => List.Subset.refl _⟩
    · rw [Function.update_of_ne hp, Function.update_of_ne hp]
      exact h.base p' key
  positive := h.positive
  session c := by
    by_cases hp : worker c = p
    · exact sessionTold_of_eq (if_pos (decide_eq_true hp))
    · exact ((h.abort fun c => worker c = p).session c).around
        { session := rfl
          written := rfl
          data := rfl
          log := ⟨[], (List.append_nil _).symm⟩
          mem := fun key => by
            dsimp only
            rw [Function.update_of_ne hp]
            exact List.Subset.refl _
          locks := fun _ hlock => hlock
          row := fun _ => Or.inl ⟨rfl, rfl⟩ }

/-! ## Runs -/

/-- Where each save that finds a row is based on the present one, a step keeps what the table knows. Kind: L -/
theorem told_step (h : Told cb worker story s) (hcovered : Covered story s) {e : CircuitStep π γ}
    (he : s.UpToDate e) :
    ∃ story', Told cb worker story' (s.step cb worker e) ∧ Covered story' (s.step cb worker e) := by
  cases e with
  | check p now key => exact ⟨_, h.observe p key (.check now), hcovered.check p key now⟩
  | recordSuccess c now key => exact h.record hcovered c key (.success now)
  | recordFailure c now key classification => exact h.record hcovered c key (.failure now classification)
  | exportData c => exact h.exportData hcovered c
  | select c => exact h.select hcovered c
  | flush c =>
    rw [CircuitWorkers.step]
    split
    · rename_i key outcome data base found hphase
      have hexport : (s.sessions c).phase.exporting = some (key, outcome, data, base) := by
        rw [hphase]
        rfl
      split
      · rename_i hfree
        cases hsaved : s.saved c key data found with
        | error _ => exact ⟨story, h.abort _, hcovered.abort _⟩
        | ok row =>
          have hfresh : ¬ s.Stale c key base found := by
            intro hstale
            obtain ⟨e, herror⟩ := (saved_error_iff c key data found).mpr
              (Or.inl (he key outcome data base found hphase hfree hstale))
            cases herror.symm.trans hsaved
          obtain ⟨hbase, hversion⟩ := not_or.mp hfresh
          have hfound : found = s.seen c key := by
            rcases (h.session c).found hphase with hsame | ⟨hlt, _⟩
            · exact hsame
            · exact absurd hlt hversion
          have hrow : row = replacing (s.seen c key) data := by grind [saved_of_seen]
          have hsame : base = versionOf (s.seen c key) :=
            le_antisymm ((h.session c).exporting hexport).2.2.1 (not_lt.mp hbase)
          refine ⟨story.write c key, ?_, hcovered.write ?_ row⟩
          · rw [hrow]
            exact h.write hexport hfree hsame
          · rw [hphase]
            rfl
      · exact ⟨story, h, hcovered⟩
    · exact ⟨story, h, hcovered⟩
  | commit c =>
    rw [CircuitWorkers.step]
    split
    · exact ⟨_, h.commit c, hcovered.commit h ‹_›⟩
    · exact ⟨story, h, hcovered⟩
  | rollback c => exact ⟨story, h.abort _, hcovered.abort _⟩
  | startup p => exact ⟨_, h.restart p, hcovered.abort _⟩

omit [DecidableEq π] [DecidableEq γ] in
theorem Told.nothingLost (h : Told cb worker story s) (hcovered : Covered story s) : s.NothingLost cb := fun key =>
  ⟨story.row key, (h.row key).nodup, (h.row key).logged, fun i event hlog houtcome hdropped hhand =>
    hcovered i key event hlog houtcome hdropped hhand, (h.row key).same⟩

omit [DecidableEq π] [DecidableEq γ] in
/-- At the start there is nothing to know. Kind: L -/
theorem told_start : Told cb worker ⟨fun _ _ => [], fun _ => [], fun _ _ => [], fun _ => []⟩ {} ∧
    Covered ⟨fun _ _ => [], fun _ => [], fun _ _ => [], fun _ => []⟩ ({} : CircuitWorkers π γ) := by
  have hempty : ∀ key, Shows cb [] key [] (ProviderCircuitState.snapshot {}) := fun key =>
    ⟨List.nodup_nil, fun _ hin => absurd hin List.not_mem_nil, rfl⟩
  refine ⟨⟨fun _ key => hempty key, fun key => hempty key, fun _ _ => ⟨le_rfl, fun _ => List.Subset.refl _⟩,
    fun key row hrow => ?_, fun c => sessionTold_of_eq rfl⟩, fun i key event hlog => ?_⟩
  · cases hrow
  · cases hlog

omit [DecidableEq π] [DecidableEq γ] in
/-- A save that is told of rejects old versions exactly if it is up to date where it finds a row. Kind: L -/
theorem Told.rejectsStale_iff (h : Told cb worker story s) (e : CircuitStep π γ) : s.RejectsStale e ↔ s.UpToDate e := by
  cases e with
  | flush c =>
    constructor
    · intro hrejects key outcome data base found hphase hfree hstale
      rcases (saved_error_iff c key data found).mp (hrejects key outcome data base found hphase hfree hstale) with
        hinserted | ⟨hsome, hnone⟩
      · exact hinserted
      · rcases (h.session c).found hphase with rfl | ⟨_, hseen⟩
        · rw [hnone] at hsome
          cases hsome
        · rw [hnone] at hseen
          cases hseen
    · intro hfresh key outcome data base found hphase hfree hstale
      exact (saved_error_iff c key data found).mpr
        (Or.inl (hfresh key outcome data base found hphase hfree hstale))
  | _ => exact Iff.rfl

/-- Recorded outcomes stay in the table and saves based on older versions are rejected exactly in the runs in which
every save that finds a row is based on its present version. Kind: P -/
theorem serial_iff_upToDate (cb : ProviderCircuitBreaker) (worker : γ → π) (run : List (CircuitStep π γ)) :
    ((∀ s ∈ reached (CircuitWorkers.step cb worker) {} run, CircuitWorkers.NothingLost cb s) ∧
        Along (CircuitWorkers.step cb worker) CircuitWorkers.RejectsStale {} run) ↔
      Along (CircuitWorkers.step cb worker) CircuitWorkers.UpToDate {} run := by
  have hstart : ∃ story : Story π γ, Told cb worker story {} ∧ Covered story {} := ⟨_, told_start⟩
  have hstep : ∀ (s : CircuitWorkers π γ) e, (∃ story, Told cb worker story s ∧ Covered story s) → s.UpToDate e →
      ∃ story, Told cb worker story (s.step cb worker e) ∧ Covered story (s.step cb worker e) := by
    rintro s e ⟨story, htold, hcovered⟩ hfresh
    exact told_step htold hcovered hfresh
  constructor
  · rintro ⟨_, hrejects⟩
    refine hrejects.imp (I := fun s => ∃ story, Told cb worker story s ∧ Covered story s) ?_ ?_ hstart
    · rintro s e ⟨story, htold, hcovered⟩ hreject
      exact told_step htold hcovered ((htold.rejectsStale_iff e).mp hreject)
    · rintro s e ⟨story, htold, _⟩ hreject
      exact (htold.rejectsStale_iff e).mp hreject
  · intro hfresh
    refine ⟨fun s hs => ?_, hfresh.imp hstep ?_ hstart⟩
    · obtain ⟨story, htold, hcovered⟩ := hfresh.invariant hstep hstart s hs
      exact htold.nothingLost hcovered
    · rintro s e ⟨story, htold, _⟩ hup
      exact (htold.rejectsStale_iff e).mpr hup

end

/-! ## Two processes -/

/-- The default settings are in range.
Source: `circuit_breaker.py`, `ProviderCircuitBreaker.__init__`
Kind: L -/
theorem default_ranges : 0 < 10 ∧ (1 / 2 : ℚ) ∈ Set.Ioc 0 1 ∧ 0 < 5 ∧ (30 : ℚ) ∈ Set.Ioi 0 ∧ 0 < 1 := by
  refine ⟨by decide, ⟨?_, ?_⟩, by decide, ?_, by decide⟩
  · norm_num
  · norm_num
  · exact Set.mem_Ioi.mpr (by norm_num)

/-- The breaker with the default settings.
Source: `circuit_breaker.py`, `ProviderCircuitBreaker.__init__`
Kind: D -/
def defaultBreaker : ProviderCircuitBreaker where
  window_pos := default_ranges.1
  threshold_range := default_ranges.2.1
  samples_pos := default_ranges.2.2.1
  cooldown_pos := default_ranges.2.2.2.1
  probes_pos := default_ranges.2.2.2.2

/-- A failure by timeout. Kind: D -/
def timedOut : CircuitEvent := .failure 0 (FailureClassifier.classify (some "TIMEOUT"))

/-- Each of two processes records and saves one failure, the second without the row of the first. Kind: D -/
def twoFailures : List (CircuitStep Bool Bool) :=
  [true, false].flatMap fun c =>
    [.recordFailure c 0 ("p", "m") (FailureClassifier.classify (some "TIMEOUT")), .exportData c, .select c, .flush c,
      .commit c]

theorem second_process_overwrites :
    ¬ (∀ s ∈ reached (CircuitWorkers.step defaultBreaker id) {} twoFailures, CircuitWorkers.NothingLost defaultBreaker s) ∧
      ¬ Along (CircuitWorkers.step defaultBreaker id) CircuitWorkers.RejectsStale {} twoFailures := by
  constructor
  · intro h
    have hlost := h _ (foldl_mem_reached _ _) ("p", "m")
    have hlog : (twoFailures.foldl (CircuitWorkers.step defaultBreaker id) {}).log =
        [(("p", "m"), timedOut), (("p", "m"), timedOut)] := by decide
    have hidle : ∀ c, ((twoFailures.foldl (CircuitWorkers.step defaultBreaker id) {}).sessions c).inHand = [] := by decide
    have hkept : ∀ i, i ∉ (twoFailures.foldl (CircuitWorkers.step defaultBreaker id) {}).dropped := fun i => id
    have htable : (persisted ((twoFailures.foldl (CircuitWorkers.step defaultBreaker id) {}).table.get? ("p", "m"))).failures =
        [true] := by decide
    generalize twoFailures.foldl (CircuitWorkers.step defaultBreaker id) {} = last at *
    obtain ⟨order, hnodup, hlogged, hall, hsame⟩ := hlost
    rw [hlog] at hlogged hall
    have hin : ∀ i, [(("p", "m"), timedOut), (("p", "m"), timedOut)][i]? = some (("p", "m"), timedOut) →
        (i, timedOut) ∈ order := by
      intro i hi
      refine hall i timedOut hi rfl (hkept i) fun c => ?_
      rw [hidle c]
      exact List.not_mem_nil
    have hmem : ∀ entry, entry ∈ order ↔ entry ∈ [(0, timedOut), (1, timedOut)] := by
      rintro ⟨i, event⟩
      constructor
      · intro hentry
        have hlogged := hlogged _ hentry
        rcases i with _ | _ | i
        · cases hlogged
          exact List.mem_cons_self
        · cases hlogged
          exact List.mem_cons_of_mem _ List.mem_cons_self
        · cases hlogged
      · intro hentry
        rcases List.mem_cons.mp hentry with heq | htail
        · cases heq
          exact hin 0 rfl
        · cases List.mem_singleton.mp htail
          exact hin 1 rfl
    have hperm := (List.perm_ext_iff_of_nodup hnodup.of_map (by decide)).mpr hmem
    have hevents : order.map Prod.snd = List.replicate 2 timedOut := List.perm_replicate.mp (hperm.map Prod.snd)
    rw [hevents] at hsame
    rw [hsame] at htable
    exact absurd htable (by decide)
  · intro h
    have hlast := (along_append.mp (show Along _ _ _ (twoFailures.take 8 ++ twoFailures.drop 8) from h)).2
    have hrejects := hlast.1 ("p", "m") 1 _ 0 _ rfl (by decide) (Or.inl (by decide))
    exact absurd ((saved_error_iff _ _ _ _).mp hrejects) (by decide)

end KarsaSec.Ai
