import KarsaSec.Ai.BucketBound
import KarsaSec.Ai.ProbeSlots
import KarsaSec.Ai.Router
import Mathlib.Algebra.Group.Prod

/-!
# What a selection leaves as it was

The filter takes from the bucket of every provider that reaches the bucket check, and takes a probe slot of
every HALF_OPEN circuit that it asks, before it is known which provider is chosen.

* `BucketKept` says that a row is the same or has only been refilled, `BucketCharged` that it has paid besides; `Framed` is what is
  expected of a selection.
* `TakesRequest`, `SetsBack` and `GivesProbe` say from the state before what a selection does to a provider.
* `selection_framed_iff`: a selection is as expected exactly when it sets no refill back and charges nobody but the least
  candidate.
-/

namespace KarsaSec.Ai

open KarsaSec.Found
open ProviderCircuitBreaker DistributedTokenBucket

/-! ## A visit stays with its provider -/

/-- Two states agree in the circuit and the row of a provider. Kind: D -/
def SameCell (key : ProviderKey) (s s' : RouterState) : Prop :=
  s.circuit key = s'.circuit key ∧ s.rows.get? key = s'.rows.get? key

theorem sameCell_equiv (key : ProviderKey) : Equivalence (SameCell key) where
  refl _ := ⟨rfl, rfl⟩
  symm h := ⟨h.1.symm, h.2.symm⟩
  trans h h' := ⟨h.1.trans h'.1, h.2.trans h'.2⟩

/-- The last refills of a row are not in the future. Kind: D -/
def RateLimitRow.Forward (now : ℚ) (row : RateLimitRow) : Prop :=
  row.lastRequestRefillAt ≤ now ∧ row.lastTokenRefillAt ≤ now

/-- A row is as it was, or has been refilled until `now` and nothing else. Kind: D -/
def RateLimitRow.Kept (fl : Rounding ℚ) (now : ℚ) (before after : RateLimitRow) : Prop :=
  after = before ∨ before.Forward now ∧ after = before.refilled fl now

namespace ProviderRouter

variable (fl : Rounding ℚ) (router : ProviderRouter) (pass : RoutingPass) {s s' : RouterState} {key key' : ProviderKey}

theorem circuitOpen_frame (h : key' ≠ key) : SameCell key' (router.circuitOpen pass key s).2 s := by
  unfold circuitOpen
  split
  · exact ⟨rfl, rfl⟩
  · exact ⟨Dict.getD_set_ne _ h _ _, rfl⟩

theorem circuitOpen_congr (h : SameCell key s s') :
    (router.circuitOpen pass key s).1 = (router.circuitOpen pass key s').1 ∧
      SameCell key (router.circuitOpen pass key s).2 (router.circuitOpen pass key s').2 := by
  unfold circuitOpen
  split
  · exact ⟨rfl, h⟩
  · dsimp only
    rw [h.1]
    exact ⟨rfl, (Dict.getD_set_self _ _ _ _).trans (Dict.getD_set_self _ _ _ _).symm, h.2⟩

theorem cooling_congr (h : SameCell key s s') : router.cooling pass key s = router.cooling pass key s' := by
  unfold cooling
  rw [h.2]

theorem takeTokens_frame (h : key' ≠ key) : SameCell key' (router.takeTokens fl pass key s).2 s := by
  unfold takeTokens
  split
  · exact ⟨rfl, rfl⟩
  · exact ⟨rfl, Dict.get?_set_ne _ h _⟩

theorem takeTokens_congr (h : SameCell key s s') :
    (router.takeTokens fl pass key s).1 = (router.takeTokens fl pass key s').1 ∧
      SameCell key (router.takeTokens fl pass key s).2 (router.takeTokens fl pass key s').2 := by
  unfold takeTokens
  split
  · exact ⟨rfl, h⟩
  · dsimp only
    rw [h.2]
    exact ⟨rfl, h.1, (Dict.get?_set_self _ _ _).trans (Dict.get?_set_self _ _ _).symm⟩

theorem localVisit :
    LocalVisit SameCell ProviderDescriptor.key (router.visit fl pass) where
  equiv := sameCell_equiv
  frame s d key h := by
    have hcircuit : SameCell key (router.circuitOpen pass d.key s).2 s := circuitOpen_frame router pass h
    unfold visit
    split
    · dsimp only
      split
      · exact hcircuit
      · split
        · exact hcircuit
        · have htaken := (sameCell_equiv key).trans
            (takeTokens_frame fl router pass h) hcircuit
          split
          · exact htaken
          · exact htaken
    · exact ⟨rfl, rfl⟩
  congr s s' d h := by
    obtain ⟨hopen, hcircuit⟩ := circuitOpen_congr router pass h
    obtain ⟨hallowed, htaken⟩ := takeTokens_congr fl router pass hcircuit
    unfold visit
    split
    · dsimp only
      rw [hopen, cooling_congr router pass hcircuit, hallowed]
      split
      · exact ⟨rfl, hcircuit⟩
      · grind
    · exact ⟨rfl, h⟩

/-! ## What a visit does to its provider -/

/-- A provider that is listed, whose circuit is not open and that does not cool down reaches the bucket
check. Kind: D -/
def ReachesBucket (s : RouterState) (d : ProviderDescriptor) : Prop :=
  router.listed pass d.key = true ∧ (router.circuitOpen pass d.key s).1 = false ∧
    router.cooling pass d.key s = false

/-- The provider passes every stage. Kind: D -/
def Candidate (s : RouterState) (d : ProviderDescriptor) : Prop :=
  router.ReachesBucket pass s d ∧ (router.takeTokens fl pass d.key s).1 = true ∧ (offer pass d).isSome

/-- The row that the bucket check finds, or makes. Kind: D -/
def rowAt (limit : ProviderRateLimitPolicy) (s : RouterState) (key : ProviderKey) : RateLimitRow :=
  (s.rows.get? key).getD (limit.fullRow fl (pass.clock key).bucket)

/-- The row refilled, and the request taken from it. Kind: D -/
def charged (limit : ProviderRateLimitPolicy) (s : RouterState) (key : ProviderKey) : RateLimitRow :=
  ((rowAt fl pass limit s key).refilled fl (pass.clock key).bucket).spent fl (requestedTokens pass)

/-- A bucket is in force that has enough for the request, which changes it (in a very large bucket it can get lost in the
rounding). Kind: D -/
def TakesRequest (s : RouterState) (d : ProviderDescriptor) : Prop :=
  router.ReachesBucket pass s d ∧ ∃ limit ∈ router.limits pass, (router.takeTokens fl pass d.key s).1 = true ∧
    charged fl pass limit s d.key ≠ rowAt fl pass limit s d.key ∧
    charged fl pass limit s d.key ≠ (rowAt fl pass limit s d.key).refilled fl (pass.clock d.key).bucket

/-- The bucket check finds a row that was refilled later than its clock says, and that does not cool down by this clock.
Kind: D -/
def SetsBack (s : RouterState) (d : ProviderDescriptor) : Prop :=
  router.ReachesBucket pass s d ∧ ∃ limit ∈ router.limits pass,
    (rowAt fl pass limit s d.key).inCooldown (pass.clock d.key).bucket = false ∧
      ¬(rowAt fl pass limit s d.key).Forward (pass.clock d.key).bucket

/-- The circuit of a listed provider has a free probe slot. Kind: D -/
def GivesProbe (s : RouterState) (d : ProviderDescriptor) : Prop :=
  router.listed pass d.key = true ∧ ∃ cb ∈ router.circuitBreaker,
    OffersProbe cb (pass.clock d.key).circuit (s.circuit d.key) ∧
      (cb.wake (pass.clock d.key).circuit (s.circuit d.key)).activeProbes + 1 ≠
        (s.circuit d.key).activeProbes

/-- The bucket of a provider is as it was: the row is the same or has been refilled until the time of the check, or a full
row has been made. Kind: D -/
def BucketKept (s s' : RouterState) (key : ProviderKey) : Prop :=
  s'.rows.get? key = s.rows.get? key ∨
    ∃ limit ∈ router.limits pass, ∃ after, s'.rows.get? key = some after ∧
      (rowAt fl pass limit s key).Kept fl (pass.clock key).bucket after

/-- The bucket of a provider has been refilled until the time of the check and has paid one request and the tokens, where limits
are in force. Kind: D -/
def BucketCharged (s s' : RouterState) (key : ProviderKey) : Prop :=
  match router.limits pass with
  | none => s'.rows.get? key = s.rows.get? key
  | some limit => (rowAt fl pass limit s key).Forward (pass.clock key).bucket ∧
      s'.rows.get? key = some (charged fl pass limit s key)

/-- A provider has the bucket and as many probes under way as before. Kind: D -/
structure Untouched (s s' : RouterState) (key : ProviderKey) : Prop where
  bucket : BucketKept fl router pass s s' key
  probes : (s'.circuit key).activeProbes = (s.circuit key).activeProbes

variable {fl router pass}

theorem untouched_congr {t t' : RouterState} (h : SameCell key t t') :
    router.Untouched fl pass s t key ↔ router.Untouched fl pass s t' key := by
  have hbucket : BucketKept fl router pass s t key ↔ BucketKept fl router pass s t' key := by
    unfold BucketKept
    rw [h.2]
  exact ⟨fun hu => ⟨hbucket.mp hu.bucket, h.1 ▸ hu.probes⟩, fun hu => ⟨hbucket.mpr hu.bucket, h.1 ▸ hu.probes⟩⟩

theorem circuitOpen_rows : (router.circuitOpen pass key s).2.rows = s.rows := by
  unfold circuitOpen
  split <;> rfl

theorem takeTokens_circuit (key' : ProviderKey) :
    (router.takeTokens fl pass key s).2.circuit key' = s.circuit key' := by
  unfold takeTokens
  split <;> rfl

theorem cooling_circuitOpen :
    router.cooling pass key (router.circuitOpen pass key s).2 = router.cooling pass key s := by
  unfold cooling
  rw [circuitOpen_rows]

variable (fl router pass) in
theorem takeTokens_circuitOpen (s : RouterState) (key : ProviderKey) :
    (router.takeTokens fl pass key (router.circuitOpen pass key s).2).1 =
        (router.takeTokens fl pass key s).1 ∧
      (router.takeTokens fl pass key (router.circuitOpen pass key s).2).2.rows =
        (router.takeTokens fl pass key s).2.rows := by
  unfold takeTokens
  rw [circuitOpen_rows]
  split
  · exact ⟨rfl, circuitOpen_rows⟩
  · exact ⟨rfl, rfl⟩

variable (fl) in
theorem visit_of_reaches {d : ProviderDescriptor} (h : router.ReachesBucket pass s d) :
    (router.visit fl pass s d).1.rows = (router.takeTokens fl pass d.key s).2.rows ∧
      (router.visit fl pass s d).2 = if (router.takeTokens fl pass d.key s).1 then offer pass d else none := by
  obtain ⟨hlisted, hopen, hcooling⟩ := h
  obtain ⟨hallowed, hrows⟩ := takeTokens_circuitOpen fl router pass s d.key
  unfold visit
  rw [if_pos hlisted]
  dsimp only
  rw [if_neg (by rw [hopen]; exact Bool.false_ne_true), cooling_circuitOpen,
    if_neg (by rw [hcooling]; exact Bool.false_ne_true), hallowed]
  split
  · exact ⟨hrows, rfl⟩
  · exact ⟨hrows, rfl⟩

theorem visit_of_not_reaches {d : ProviderDescriptor} (h : ¬ router.ReachesBucket pass s d) :
    (router.visit fl pass s d).1.rows = s.rows ∧ (router.visit fl pass s d).2 = none := by
  unfold visit
  split
  · rename_i hlisted
    dsimp only
    split
    · exact ⟨circuitOpen_rows, rfl⟩
    · rename_i hopen
      rw [cooling_circuitOpen]
      split
      · exact ⟨circuitOpen_rows, rfl⟩
      · rename_i hcooling
        exact absurd ⟨hlisted, by simpa using hopen, by simpa using hcooling⟩ h
  · exact ⟨rfl, rfl⟩

theorem visit_circuit (d : ProviderDescriptor) (key : ProviderKey) :
    (router.visit fl pass s d).1.circuit key =
      if router.listed pass d.key then (router.circuitOpen pass d.key s).2.circuit key else s.circuit key := by
  unfold visit
  split
  · dsimp only
    split
    · rfl
    · grind [takeTokens_circuit]
  · rfl

theorem candidate_iff {d : ProviderDescriptor} :
    router.Candidate fl pass s d ↔ (router.visit fl pass s d).2.isSome := by
  by_cases hreach : router.ReachesBucket pass s d
  · rw [(visit_of_reaches fl hreach).2]
    constructor
    · rintro ⟨_, hallowed, hoffer⟩
      rwa [if_pos hallowed]
    · intro hsome
      split at hsome
      · rename_i hallowed
        exact ⟨hreach, hallowed, hsome⟩
      · exact absurd hsome Bool.false_ne_true
  · rw [(visit_of_not_reaches hreach).2]
    exact ⟨fun h => absurd h.1 hreach, fun h => absurd h Bool.false_ne_true⟩

/-! ### Buckets -/

/-- What the bucket check does to a row: it is kept unless it is set back or the request changes it. Kind: L -/
theorem kept_consumed {limit : ProviderRateLimitPolicy} {now : ℚ} {found : Option RateLimitRow} {n : ℤ} {row spent : RateLimitRow}
    (hrow : row = found.getD (limit.fullRow fl now)) (hspent : spent = (row.refilled fl now).spent fl n) :
    row.Kept fl now (checkAndConsume fl limit now found n).2 ↔
      ¬(row.inCooldown now = false ∧ ¬row.Forward now) ∧
        ¬((checkAndConsume fl limit now found n).1.allowed = true ∧ spent ≠ row ∧ spent ≠ row.refilled fl now) := by
  have hforward : ∀ after : RateLimitRow, after.lastRequestRefillAt = now → after.lastTokenRefillAt = now → after = row →
      row.Forward now := by
    rintro _ hreq htok rfl
    exact ⟨hreq.le, htok.le⟩
  rcases DistributedTokenBucket.checkAndConsume_cases fl limit now found n with ⟨hcool, hno, hafter⟩ | ⟨hcool, hno, hafter⟩ | ⟨hcool, hyes, -, -, hafter⟩
  · rw [← hrow] at hcool hafter
    rw [hno, hafter, hcool]
    exact iff_of_true (Or.inl rfl) ⟨by simp, by simp⟩
  · rw [← hrow] at hcool hafter
    rw [hno, hafter, hcool]
    by_cases hf : row.Forward now
    · exact iff_of_true (Or.inr ⟨hf, rfl⟩) ⟨fun h => h.2 hf, by simp⟩
    · refine iff_of_false ?_ fun h => h.1 ⟨rfl, hf⟩
      rintro (hsame | hback)
      · exact hf (hforward _ rfl rfl hsame)
      · exact hf hback.1
  · rw [← hrow] at hcool hafter
    rw [← hspent] at hafter
    rw [hyes, hafter, hcool]
    by_cases hf : row.Forward now
    · simp [RateLimitRow.Kept, hf, or_iff_not_imp_left]
    · refine iff_of_false ?_ fun h => h.1 ⟨rfl, hf⟩
      rintro (hsame | hback)
      · exact hf (hforward spent (by rw [hspent]; rfl) (by rw [hspent]; rfl) hsame)
      · exact hf hback.1

/-- The bucket after its check. Kind: L -/
theorem takeTokens_rows (fl : Rounding ℚ) (s : RouterState) (key : ProviderKey) {limit : ProviderRateLimitPolicy} (h : router.limits pass = some limit) :
    (router.takeTokens fl pass key s).1 =
        (checkAndConsume fl limit (pass.clock key).bucket (s.rows.get? key) (requestedTokens pass)).1.allowed ∧
      (router.takeTokens fl pass key s).2.rows.get? key =
        some (checkAndConsume fl limit (pass.clock key).bucket (s.rows.get? key) (requestedTokens pass)).2 := by
  unfold takeTokens
  rw [h]
  exact ⟨rfl, Dict.get?_set_self _ _ _⟩

/-- A row in the table is kept when it is the one that was found, or that one refilled. Kind: L -/
theorem bucketKept_iff {limit : ProviderRateLimitPolicy} (h : router.limits pass = some limit) {after : RateLimitRow}
    (hafter : s'.rows.get? key = some after) :
    BucketKept fl router pass s s' key ↔ (rowAt fl pass limit s key).Kept fl (pass.clock key).bucket after := by
  unfold BucketKept
  rw [h, hafter]
  constructor
  · rintro (hsame | ⟨_, ⟨⟩, _, ⟨⟩, hkept⟩)
    · exact Or.inl (by rw [rowAt, ← hsame]; rfl)
    · exact hkept
  · exact fun hkept => Or.inr ⟨limit, rfl, after, rfl, hkept⟩

/-! ### Probe slots -/

/-- A wake that does not end in HALF_OPEN leaves the slots as they were. Kind: L -/
theorem wake_probes {cb : ProviderCircuitBreaker} {now : ℚ} {st : ProviderCircuitState}
    (h : (cb.wake now st).state = .halfOpen → cb.halfOpenMaxProbes ≤ (cb.wake now st).activeProbes) :
    (cb.wake now st).activeProbes = st.activeProbes := by
  rcases wake_cases cb now st with heq | ⟨_, heq⟩
  · rw [heq]
  · rw [heq] at h
    exact absurd (h rfl) (Nat.not_le.mpr cb.probes_pos)

/-- A check changes the number of slots taken when it takes one, and otherwise leaves it. Kind: L -/
theorem isOpen_probes (cb : ProviderCircuitBreaker) (now : ℚ) (st : ProviderCircuitState) :
    (cb.isOpen now st).2.activeProbes =
      if OffersProbe cb now st then (cb.wake now st).activeProbes + 1 else st.activeProbes := by
  obtain ⟨hstate, hactive⟩ := wake_clearCooldown cb now st
  by_cases hthrottled : throttled now st = true
  · rw [if_neg fun h => Bool.noConfusion (hthrottled.symm.trans h.1)]
    unfold isOpen
    rw [if_pos hthrottled]
  · by_cases hhalf : (cb.wake now st).state = .halfOpen
    · by_cases hfree : (cb.wake now st).activeProbes < cb.halfOpenMaxProbes
      · rw [if_pos ⟨by simpa using hthrottled, hhalf, hfree⟩]
        unfold isOpen
        rw [if_neg hthrottled]
        dsimp only
        rw [hstate, hhalf, hactive]
        dsimp only
        rw [if_pos hfree]
      · rw [if_neg fun h => hfree h.2.2, ← wake_probes fun _ => Nat.not_lt.mp hfree]
        unfold isOpen
        rw [if_neg hthrottled]
        dsimp only
        rw [hstate, hhalf, hactive]
        dsimp only
        rw [if_neg hfree, hactive]
    · rw [if_neg fun h => hhalf h.2.1, ← wake_probes fun h => absurd h hhalf]
      unfold isOpen
      rw [if_neg hthrottled]
      dsimp only
      split
      · exact hactive
      · exact hactive
      · simp_all

/-! ### The whole visit -/

variable {d : ProviderDescriptor}

variable (fl) in
theorem visit_probes :
    ((router.visit fl pass s d).1.circuit d.key).activeProbes = (s.circuit d.key).activeProbes ↔
      ¬ router.GivesProbe pass s d := by
  rw [visit_circuit]
  unfold GivesProbe
  by_cases hlisted : router.listed pass d.key = true
  · rw [if_pos hlisted]
    unfold circuitOpen
    rcases hbreaker : router.circuitBreaker with _ | cb
    · simp
    · dsimp only
      have hcircuit : ∀ st, RouterState.circuit { s with circuits := s.circuits.set d.key st } d.key = st :=
        fun st => Dict.getD_set_self _ _ _ _
      rw [hcircuit, isOpen_probes]
      split
      · rename_i hoffers
        simp [hlisted, hoffers]
      · rename_i hoffers
        simp [hoffers]
  · simp_all

/-- A visit keeps the bucket of its provider exactly when it neither sets it back nor takes a request. Kind: L -/
theorem visit_bucket :
    BucketKept fl router pass s (router.visit fl pass s d).1 d.key ↔
      ¬router.TakesRequest fl pass s d ∧ ¬router.SetsBack fl pass s d := by
  by_cases hreach : router.ReachesBucket pass s d
  · have hrows := (visit_of_reaches fl hreach).1
    rcases hlimits : router.limits pass with _ | limit
    · refine iff_of_true (Or.inl ?_) ⟨?_, ?_⟩
      · rw [hrows, takeTokens, hlimits]
      · simp [TakesRequest, hlimits]
      · simp [SetsBack, hlimits]
    · obtain ⟨hallowed, hrow⟩ := takeTokens_rows fl s d.key hlimits
      rw [← hrows] at hrow
      have hkept := kept_consumed (rfl : rowAt fl pass limit s d.key = _) (rfl : charged fl pass limit s d.key = _)
      rw [bucketKept_iff hlimits hrow, hkept, ← hallowed, and_comm]
      simp [TakesRequest, SetsBack, hreach, hlimits]
  · exact iff_of_true (Or.inl (by rw [(visit_of_not_reaches hreach).1])) ⟨fun h => hreach h.1, fun h => hreach h.1⟩

/-- A visit leaves its provider untouched exactly when it does nothing to its bucket and its circuit. Kind: L -/
theorem untouched_visit :
    router.Untouched fl pass s (router.visit fl pass s d).1 d.key ↔
      ¬ (router.TakesRequest fl pass s d ∨ router.SetsBack fl pass s d ∨ router.GivesProbe pass s d) := by
  rw [not_or, not_or, ← visit_probes fl, ← and_assoc, ← visit_bucket]
  exact ⟨fun h => ⟨h.bucket, h.probes⟩, fun h => ⟨h.1, h.2⟩⟩

/-- A candidate has paid exactly when its bucket is not set back. Kind: L -/
theorem visit_charged (h : router.Candidate fl pass s d) :
    BucketCharged fl router pass s (router.visit fl pass s d).1 d.key ↔ ¬router.SetsBack fl pass s d := by
  have hrows := (visit_of_reaches fl h.1).1
  unfold BucketCharged
  rcases hlimits : router.limits pass with _ | limit
  · refine iff_of_true ?_ ?_
    · show _ = _
      rw [hrows, takeTokens, hlimits]
    · simp [SetsBack, hlimits]
  · obtain ⟨hallowed, hrow⟩ := takeTokens_rows fl s d.key hlimits
    rw [← hrows] at hrow
    rw [h.2.1] at hallowed
    rcases DistributedTokenBucket.checkAndConsume_cases fl limit (pass.clock d.key).bucket (s.rows.get? d.key) (requestedTokens pass)
      with ⟨-, hno, -⟩ | ⟨-, hno, -⟩ | ⟨hcool, -, -, -, hafter⟩
    · exact absurd (hallowed.trans hno) (by decide)
    · exact absurd (hallowed.trans hno) (by decide)
    · have hcharged : (router.visit fl pass s d).1.rows.get? d.key = some (charged fl pass limit s d.key) := by
        rw [hrow, hafter]
        rfl
      have hrowAt : (rowAt fl pass limit s d.key).inCooldown (pass.clock d.key).bucket = false := hcool
      simp [SetsBack, h.1, hlimits, hcharged, hrowAt]

/-! ## The whole pass -/

variable (fl router pass s)

/-- The least of the candidates. Kind: D -/
def Chosen (d : ProviderDescriptor) : Prop :=
  router.Candidate fl pass s d ∧
    ∀ e ∈ router.registry.listAll, router.Candidate fl pass s e → d.sortKey ≤ e.sortKey

/-- What is expected of a selection: it charges the provider that it selects one request and the tokens,
leaves all others untouched, and when it selects none it leaves every one untouched. Kind: D -/
def Framed : Prop :=
  let after := (router.selectProvider fl pass s).1
  match (router.selectProvider fl pass s).2 with
  | .ok result =>
    BucketCharged fl router pass s after result.descriptor.key ∧
      ∀ key, key ≠ result.descriptor.key → router.Untouched fl pass s after key
  | .error _ => ∀ key, router.Untouched fl pass s after key

variable {fl router pass s}

theorem mem_listAll {registry : ProviderRegistry} :
    d ∈ registry.listAll ↔ registry.providers.get? d.key = some d := by
  unfold ProviderRegistry.listAll
  rw [List.mem_filterMap]
  constructor
  · rintro ⟨key, _, hget⟩
    rw [registry.keyed key d hget]
    exact hget
  · grind [sortPairs_perm, Dict.get?_isSome]

/-- A registered provider is found under its pair of names only. Kind: L -/
theorem eq_of_key {registry : ProviderRegistry} {e : ProviderDescriptor} (hd : d ∈ registry.listAll)
    (he : e ∈ registry.listAll) (h : d.key = e.key) : d = e := by
  have hget := mem_listAll.mp he
  rw [← h, mem_listAll.mp hd] at hget
  exact Option.some.inj hget

theorem nodup_listAll (registry : ProviderRegistry) :
    (registry.listAll.map ProviderDescriptor.key).Nodup := by
  have hkeys : (sortPairs registry.providers.keys).Nodup :=
    (sortPairs_perm _).nodup_iff.mpr registry.providers.nodup_keys
  have hlist : registry.listAll.Nodup := by
    refine hkeys.filterMap fun k k' d hk hk' => ?_
    exact (registry.keyed k d hk).symm.trans (registry.keyed k' d hk')
  exact List.Nodup.map_on (fun d hd e he h => eq_of_key hd he h) hlist

/-- The pass does to a registered provider what its visit does. Kind: L -/
theorem sameCell_pass (s : RouterState) (hd : d ∈ router.registry.listAll) :
    SameCell d.key (router.filterEligible fl pass s).1 (router.visit fl pass s d).1 :=
  same_sweep (localVisit fl router pass) (nodup_listAll router.registry) hd

theorem sameCell_pass_other (h : ∀ d ∈ router.registry.listAll, d.key ≠ key) :
    SameCell key (router.filterEligible fl pass s).1 s :=
  same_sweep_other (localVisit fl router pass) h

theorem mem_filterEligible {cost : ℕ} :
    (d, cost) ∈ (router.filterEligible fl pass s).2 ↔
      d ∈ router.registry.listAll ∧ (router.visit fl pass s d).2 = some cost := by
  unfold filterEligible
  dsimp only
  rw [(List.perm_insertionSort _ _).mem_iff]
  exact mem_sweep (localVisit fl router pass) (nodup_listAll router.registry)

theorem sorted_filterEligible :
    (router.filterEligible fl pass s).2.Pairwise fun a b => a.1.sortKey ≤ b.1.sortKey := by
  let before : ProviderDescriptor × ℕ → ProviderDescriptor × ℕ → Prop :=
    fun a b => a.1.sortKey ≤ b.1.sortKey
  have : Std.Total before := ⟨fun a b => le_total a.1.sortKey b.1.sortKey⟩
  have : IsTrans (ProviderDescriptor × ℕ) before := ⟨fun _ _ _ => le_trans⟩
  exact List.pairwise_insertionSort before _

/-- A selection finds the least candidate, or there is none. Kind: L -/
theorem selectProvider_cases (fl : Rounding ℚ) (router : ProviderRouter) (pass : RoutingPass) (s : RouterState) :
    (router.selectProvider fl pass s).1 = (router.filterEligible fl pass s).1 ∧
      ((∃ result, (router.selectProvider fl pass s).2 = .ok result ∧
          result.descriptor ∈ router.registry.listAll ∧ router.Chosen fl pass s result.descriptor) ∨
        (∃ error, (router.selectProvider fl pass s).2 = .error error) ∧
          ∀ d ∈ router.registry.listAll, ¬ router.Candidate fl pass s d) := by
  have hmem : ∀ d cost, (d, cost) ∈ (router.filterEligible fl pass s).2 ↔
      d ∈ router.registry.listAll ∧ (router.visit fl pass s d).2 = some cost :=
    fun d cost => mem_filterEligible
  have hsorted : (router.filterEligible fl pass s).2.Pairwise fun a b => a.1.sortKey ≤ b.1.sortKey :=
    sorted_filterEligible
  unfold selectProvider
  rcases hcandidates : router.filterEligible fl pass s with ⟨after, _ | ⟨⟨d, cost⟩, rest⟩⟩
  · simp_all [Option.isSome_iff_exists, candidate_iff]
  · rw [hcandidates] at hmem hsorted
    obtain ⟨hd, hcost⟩ := (hmem d cost).mp List.mem_cons_self
    refine ⟨rfl, Or.inl ⟨_, rfl, hd, candidate_iff.mpr (by rw [hcost]; rfl), fun e he hcandidate => ?_⟩⟩
    obtain ⟨cost', hcost'⟩ := Option.isSome_iff_exists.mp (candidate_iff.mp hcandidate)
    rcases List.mem_cons.mp ((hmem e cost').mpr ⟨he, hcost'⟩) with heq | hrest
    · cases heq
      exact le_rfl
    · exact List.rel_of_pairwise_cons hsorted hrest

/-- A registered provider is untouched by the pass exactly when nothing is done to it. Kind: L -/
theorem untouched_pass (hd : d ∈ router.registry.listAll) :
    router.Untouched fl pass s (router.filterEligible fl pass s).1 d.key ↔
      ¬ (router.TakesRequest fl pass s d ∨ router.SetsBack fl pass s d ∨ router.GivesProbe pass s d) :=
  (untouched_congr (sameCell_pass s hd)).trans untouched_visit

/-- The pass touches no provider but those it does something to. Kind: L -/
theorem untouched_of_free (h : ∀ d ∈ router.registry.listAll, d.key = key →
    ¬ (router.TakesRequest fl pass s d ∨ router.SetsBack fl pass s d ∨ router.GivesProbe pass s d)) :
    router.Untouched fl pass s (router.filterEligible fl pass s).1 key := by
  by_cases hkey : ∃ d ∈ router.registry.listAll, d.key = key
  · grind [untouched_pass]
  · have hother : SameCell key (router.filterEligible fl pass s).1 s :=
      sameCell_pass_other fun d hd heq => hkey ⟨d, hd, heq⟩
    exact (untouched_congr hother).mpr ⟨Or.inl rfl, rfl⟩

/-- **A selection charges its provider and no other exactly when it sets no refill back, and nobody but the least candidate has a
request taken from its bucket or a probe slot taken.** Kind: P -/
theorem selection_framed_iff (fl : Rounding ℚ) (router : ProviderRouter) (pass : RoutingPass) (s : RouterState) :
    router.Framed fl pass s ↔ ∀ d ∈ router.registry.listAll, ¬router.SetsBack fl pass s d ∧
      (router.TakesRequest fl pass s d ∨ router.GivesProbe pass s d → router.Chosen fl pass s d) := by
  obtain ⟨hafter, ⟨result, hresult, hmem, hchosen⟩ | ⟨⟨error, herror⟩, hnone⟩⟩ :=
    selectProvider_cases fl router pass s
  · have hcharged : BucketCharged fl router pass s (router.filterEligible fl pass s).1 result.descriptor.key ↔
        ¬router.SetsBack fl pass s result.descriptor := by
      rw [← visit_charged hchosen.1, BucketCharged, BucketCharged, (sameCell_pass s hmem).2]
    unfold Framed
    rw [hafter, hresult]
    dsimp only
    constructor
    · rintro ⟨hpaid, hothers⟩ d hd
      by_cases hkey : d.key = result.descriptor.key
      · rw [eq_of_key hd hmem hkey]
        exact ⟨hcharged.mp hpaid, fun _ => hchosen⟩
      · obtain ⟨htakes, hback, hprobe⟩ := by
          simpa only [not_or] using (untouched_pass hd).mp (hothers d.key hkey)
        exact ⟨hback, fun h => absurd h (not_or.mpr ⟨htakes, hprobe⟩)⟩
    · intro hall
      refine ⟨hcharged.mpr (hall _ hmem).1, fun key hkey => untouched_of_free fun d hd heq hdone => ?_⟩
      have hcand : router.Chosen fl pass s d := by
        rcases hdone with htakes | hback | hprobe
        · exact (hall d hd).2 (Or.inl htakes)
        · exact absurd hback (hall d hd).1
        · exact (hall d hd).2 (Or.inr hprobe)
      have hle := hcand.2 result.descriptor hmem hchosen.1
      have hge := hchosen.2 d hd hcand.1
      exact hkey (heq.symm.trans (ProviderDescriptor.key_of_sortKey (le_antisymm hle hge)))
  · unfold Framed
    rw [hafter, herror]
    dsimp only
    constructor
    · intro huntouched d hd
      obtain ⟨htakes, hback, hprobe⟩ := by
        simpa only [not_or] using (untouched_pass hd).mp (huntouched d.key)
      exact ⟨hback, fun h => absurd h (not_or.mpr ⟨htakes, hprobe⟩)⟩
    · intro hall key
      refine untouched_of_free fun d hd _ hdone => ?_
      rcases hdone with htakes | hback | hprobe
      · exact hnone d hd ((hall d hd).2 (Or.inl htakes)).1
      · exact (hall d hd).1 hback
      · exact hnone d hd ((hall d hd).2 (Or.inr hprobe)).1

/-- The preferred of two providers. Kind: D -/
def firstProvider : ProviderDescriptor :=
  { providerId := "alpha", modelId := "large", capabilities := {"chat"}, priority := 0
    inputPriceMicroUnits := 1, outputPriceMicroUnits := 2 }

/-- The other one. Kind: D -/
def secondProvider : ProviderDescriptor :=
  { providerId := "beta", modelId := "large", capabilities := {"chat"}, priority := 1
    inputPriceMicroUnits := 1, outputPriceMicroUnits := 2 }

/-- Both providers are healthy and limited. Kind: D -/
def twoProviders : ProviderRouter :=
  { registry := ((ProviderRegistry.empty.register firstProvider).bind
      (·.register secondProvider)).getD ProviderRegistry.empty
    healthRegistry := Dict.ofList [(firstProvider.key, .healthy), (secondProvider.key, .healthy)]
    rateLimiter := true
    rateLimitPolicy := some .standard }

/-- A request of ten tokens. Kind: D -/
def shortRequest : RoutingPass :=
  { policy := { requiredCapabilities := {"chat"}, estimatedInputTokens := 5, estimatedOutputTokens := 5 }
    session := true
    clock := fun _ => ⟨0, 0, 0⟩ }

/-- The first provider is selected, and the bucket of the second pays as well. -/
theorem selection_charges_both : ¬ twoProviders.Framed .exact shortRequest {} := by
  have hselected : (twoProviders.selectProvider .exact shortRequest {}).2 =
      .ok ⟨firstProvider, 15, 1⟩ := by decide +kernel
  have hafter : (twoProviders.selectProvider .exact shortRequest {}).1.rows.get? secondProvider.key =
      some { ProviderRateLimitPolicy.standard.fullRow .exact 0 with requestsRemaining := 59, tokensRemaining := 59990 } := by
    decide +kernel
  intro hframed
  unfold Framed at hframed
  rw [hselected] at hframed
  have hlimits : twoProviders.limits shortRequest = some .standard := rfl
  rcases (bucketKept_iff hlimits hafter).mp (hframed.2 secondProvider.key (by decide)).bucket with hsame | ⟨-, hrefilled⟩
  · exact absurd (congrArg RateLimitRow.requestsRemaining hsame) (by decide +kernel)
  · exact absurd (congrArg RateLimitRow.requestsRemaining hrefilled) (by decide +kernel)

end ProviderRouter

end KarsaSec.Ai
