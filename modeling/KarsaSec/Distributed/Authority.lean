import KarsaSec.Distributed.Consensus

/-!
# Authority over a run of a consensus engine

* `Remembers`: what an engine knows of a lease that it held at some time.
* `Installs` describes how leases come into the table of an engine; it keeps what the engine knows of earlier leases
  (`Remembers.step`) and adds what it knows of the new ones (`remembers_taken`).
* A request always installs its lease so. An event does when no active lease stands against it (`EventSound`), a
  snapshot when it brings no lease that could have been issued to another node (`SnapshotSound`).
* `authority_kept`: in a run of such calls counters never decrease, no two nodes hold one token, and no two nodes hold
  one resource at one epoch.
* `validateAuthority_exact_iff`: where the holder of a lease is the one that is accepted.
-/

namespace KarsaSec.Distributed

open KarsaSec.Found

namespace MultiNodeConsensusEngine

/-! ## What a run keeps -/

/-- Kind: D -/
def CountersKept (engine engine' : MultiNodeConsensusEngine) : Prop :=
  engine.currentEpoch ≤ engine'.currentEpoch ∧ engine.currentFencingToken ≤ engine'.currentFencingToken ∧
    engine.sequence ≤ engine'.sequence

/-- The leases of an engine are not ahead of its counters. Kind: D -/
def LeasesWithin (engine : MultiNodeConsensusEngine) : Prop :=
  ∀ lease, engine.activeLeases.Holds lease →
    lease.epoch ≤ engine.currentEpoch ∧ lease.fencingToken ≤ engine.currentFencingToken

/-- Leases of different nodes carry different tokens, and one node at most has authority over a resource at an epoch,
the leases of two states taken together. Kind: D -/
def NoDualAuthority (engine engine' : MultiNodeConsensusEngine) : Prop :=
  ∀ lease lease', engine.activeLeases.Holds lease → engine'.activeLeases.Holds lease' →
    (lease.fencingToken = lease'.fencingToken → lease.nodeId = lease'.nodeId) ∧
    (lease.granted = true → lease'.granted = true → lease.resourceId = lease'.resourceId → lease.epoch = lease'.epoch →
      lease.nodeId = lease'.nodeId)

/-- Counters never decrease, leases stay within them, and authority is never held twice. Kind: D -/
structure AuthorityKept (start : MultiNodeConsensusEngine) (calls : List ConsensusCall) : Prop where
  counters : Along call (fun engine c => engine.CountersKept (engine.call c)) start calls
  within : ∀ engine ∈ reached call start calls, engine.LeasesWithin
  single : ∀ engine ∈ reached call start calls, ∀ engine' ∈ reached call start calls,
    engine.NoDualAuthority engine'

/-! ## Installing leases -/

/-- What an engine knows of a lease that it held at some time. Kind: D -/
structure Remembers (engine : MultiNodeConsensusEngine) (lease : AuthorityLease) : Prop where
  epoch_le : lease.epoch ≤ engine.currentEpoch
  token_le : lease.fencingToken ≤ engine.currentFencingToken
  owner : ∀ held, engine.activeLeases.Holds held → held.fencingToken = lease.fencingToken → held.nodeId = lease.nodeId
  /-- While no greater token was issued, the token is still in use. -/
  inUse : lease.fencingToken = engine.currentFencingToken →
    ∃ held, engine.activeLeases.Holds held ∧ held.fencingToken = lease.fencingToken
  authority : lease.granted = true → ∃ held, engine.activeLeases.get? lease.resourceId = some held ∧
    lease.epoch ≤ held.epoch ∧ (held.epoch = lease.epoch → held.granted = true ∧ held.nodeId = lease.nodeId)

/-- A lease may take the place of another one: tokens and epochs do not go down, and authority does not pass to
another node at the same epoch. Kind: D -/
def Replaces (lease held : AuthorityLease) : Prop :=
  held.epoch ≤ lease.epoch ∧ held.fencingToken ≤ lease.fencingToken ∧
    (held.granted = true → lease.epoch = held.epoch → lease.granted = true ∧ lease.nodeId = held.nodeId)

/-- The leases `taken` come into the table of `before`, which is then that of `after`. Kind: D -/
structure Installs (before after : MultiNodeConsensusEngine) (taken : String → Option AuthorityLease) : Prop where
  counters : before.CountersKept after
  table : ∀ resourceId, after.activeLeases.get? resourceId =
    (taken resourceId).or (before.activeLeases.get? resourceId)
  within : ∀ {resourceId lease}, taken resourceId = some lease →
    lease.epoch ≤ after.currentEpoch ∧ lease.fencingToken ≤ after.currentFencingToken
  /-- The token of a new lease is not below the counter, or its node holds it. -/
  issued : ∀ {resourceId lease}, taken resourceId = some lease → before.currentFencingToken ≤ lease.fencingToken ∨
    ∃ held, before.activeLeases.Holds held ∧ held.fencingToken = lease.fencingToken
  owner : ∀ {resourceId lease}, taken resourceId = some lease → ∀ held, before.activeLeases.Holds held →
    held.fencingToken = lease.fencingToken → held.nodeId = lease.nodeId
  replaces : ∀ {resourceId lease}, taken resourceId = some lease →
    ∀ held, before.activeLeases.get? resourceId = some held → Replaces lease held
  apart : ∀ {resourceId resourceId' lease lease'}, taken resourceId = some lease → taken resourceId' = some lease' →
    lease.fencingToken = lease'.fencingToken → lease.nodeId = lease'.nodeId

variable {before after engine : MultiNodeConsensusEngine} {taken : String → Option AuthorityLease}
  {lease held : AuthorityLease} {resourceId : String}

namespace Installs

theorem get?_taken (h : Installs before after taken) (htaken : taken resourceId = some lease) :
    after.activeLeases.get? resourceId = some lease := by
  rw [h.table, htaken, Option.some_or]

theorem holds_taken (h : Installs before after taken) (htaken : taken resourceId = some lease) :
    after.activeLeases.Holds lease := LeaseTable.holds_of_get? (h.get?_taken htaken)

/-- A lease that is held afterwards is new, or was held and none came in its place. Kind: L -/
theorem holds_cases (h : Installs before after taken) (hheld : after.activeLeases.Holds lease) :
    taken lease.resourceId = some lease ∨ taken lease.resourceId = none ∧ before.activeLeases.Holds lease := by
  unfold LeaseTable.Holds at hheld
  rw [h.table] at hheld
  rcases htaken : taken lease.resourceId with _ | new
  · rw [htaken, Option.none_or] at hheld
    exact .inr ⟨rfl, hheld⟩
  · rw [htaken, Option.some_or] at hheld
    exact .inl hheld

end Installs

/-- A new lease is known. Kind: L -/
theorem remembers_taken (h : Installs before after taken) (htaken : taken resourceId = some lease) :
    after.Remembers lease where
  epoch_le := (h.within htaken).1
  token_le := (h.within htaken).2
  owner held hheld htoken := by
    rcases h.holds_cases hheld with hnew | ⟨_, hold⟩
    · exact h.apart hnew htaken htoken
    · exact h.owner htaken held hold htoken
  inUse _ := ⟨lease, h.holds_taken htaken, rfl⟩
  authority hgranted := ⟨lease, h.holds_taken htaken, le_refl _, fun _ => ⟨hgranted, rfl⟩⟩

/-- The owner of a token stays the only one. Kind: L -/
theorem Remembers.owner_step (hknown : before.Remembers lease) (h : Installs before after taken)
    (hheld : after.activeLeases.Holds held) (htoken : held.fencingToken = lease.fencingToken) :
    held.nodeId = lease.nodeId := by
  rcases h.holds_cases hheld with hnew | ⟨_, hold⟩
  · have hinUse : ∃ old, before.activeLeases.Holds old ∧ old.fencingToken = held.fencingToken := by
      rcases h.issued hnew with hissued | hissued
      · have hcounter : lease.fencingToken = before.currentFencingToken :=
          le_antisymm hknown.token_le (htoken ▸ hissued)
        obtain ⟨old, hold, hsame⟩ := hknown.inUse hcounter
        exact ⟨old, hold, hsame.trans htoken.symm⟩
      · exact hissued
    obtain ⟨old, hold, hsame⟩ := hinUse
    calc held.nodeId = old.nodeId := (h.owner hnew old hold hsame).symm
      _ = lease.nodeId := hknown.owner old hold (hsame.trans htoken)
  · exact hknown.owner held hold htoken

/-- A token that was the last one issued stays in use until a greater one is issued. Kind: L -/
theorem Remembers.inUse_step (hknown : before.Remembers lease) (h : Installs before after taken)
    (hlast : lease.fencingToken = after.currentFencingToken) :
    ∃ held, after.activeLeases.Holds held ∧ held.fencingToken = lease.fencingToken := by
  have hcounter : lease.fencingToken = before.currentFencingToken :=
    le_antisymm hknown.token_le (hlast ▸ h.counters.2.1)
  obtain ⟨old, hold, hsame⟩ := hknown.inUse hcounter
  rcases htaken : taken old.resourceId with _ | new
  · refine ⟨old, ?_, hsame⟩
    unfold LeaseTable.Holds
    rw [h.table, htaken, Option.none_or]
    exact hold
  · refine ⟨new, h.holds_taken htaken, le_antisymm ?_ ?_⟩
    · exact hlast ▸ (h.within htaken).2
    · exact hsame ▸ (h.replaces htaken old hold).2.1

/-- Authority over a resource stays with its node until the epoch of the lease is over. Kind: L -/
theorem Remembers.authority_step (hknown : before.Remembers lease) (h : Installs before after taken)
    (hgranted : lease.granted = true) : ∃ held, after.activeLeases.get? lease.resourceId = some held ∧
      lease.epoch ≤ held.epoch ∧ (held.epoch = lease.epoch → held.granted = true ∧ held.nodeId = lease.nodeId) := by
  obtain ⟨old, hold, hepoch, hsame⟩ := hknown.authority hgranted
  rcases htaken : taken lease.resourceId with _ | new
  · refine ⟨old, ?_, hepoch, hsame⟩
    rw [h.table, htaken, Option.none_or]
    exact hold
  · obtain ⟨hup, _, hkept⟩ := h.replaces htaken old hold
    refine ⟨new, h.get?_taken htaken, le_trans hepoch hup, fun heq => ?_⟩
    have holdEpoch : old.epoch = lease.epoch := le_antisymm (heq ▸ hup) hepoch
    obtain ⟨holdGranted, holdNode⟩ := hsame holdEpoch
    obtain ⟨hnewGranted, hnewNode⟩ := hkept holdGranted (heq.trans holdEpoch.symm)
    exact ⟨hnewGranted, hnewNode.trans holdNode⟩

/-- What is known of a lease stays so. Kind: P -/
theorem Remembers.step (hknown : before.Remembers lease) (h : Installs before after taken) :
    after.Remembers lease where
  epoch_le := le_trans hknown.epoch_le h.counters.1
  token_le := le_trans hknown.token_le h.counters.2.1
  owner _ hheld htoken := hknown.owner_step h hheld htoken
  inUse hlast := hknown.inUse_step h hlast
  authority hgranted := hknown.authority_step h hgranted

/-- An engine knows of each of its leases what it knows of those it held. Kind: D -/
def Orderly (engine : MultiNodeConsensusEngine) : Prop :=
  ∀ lease, engine.activeLeases.Holds lease → engine.Remembers lease

theorem Orderly.step (horderly : before.Orderly) (h : Installs before after taken) : after.Orderly := by
  intro lease hheld
  rcases h.holds_cases hheld with hnew | ⟨_, hold⟩
  · exact remembers_taken h hnew
  · exact (horderly lease hold).step h

theorem Orderly.leasesWithin (horderly : engine.Orderly) : engine.LeasesWithin := fun lease hheld =>
  ⟨(horderly lease hheld).epoch_le, (horderly lease hheld).token_le⟩

/-- The leases of a later state agree with a lease that is remembered. Kind: L -/
theorem Remembers.agrees (hknown : engine.Remembers lease) (hheld : engine.activeLeases.Holds held) :
    (lease.fencingToken = held.fencingToken → lease.nodeId = held.nodeId) ∧
      (lease.granted = true → held.granted = true → lease.resourceId = held.resourceId → lease.epoch = held.epoch →
        lease.nodeId = held.nodeId) := by
  refine ⟨fun htoken => (hknown.owner held hheld htoken.symm).symm, fun hgranted _ hresource hepoch => ?_⟩
  obtain ⟨current, hcurrent, _, hsame⟩ := hknown.authority hgranted
  have heq : current = held := by
    rw [hresource] at hcurrent
    exact Option.some.inj (hcurrent.symm.trans hheld)
  subst heq
  exact (hsame hepoch.symm).2.symm

/-! ## The three ways to a lease -/

/-- The table with one lease more. Kind: D -/
def only (resourceId : String) (lease : AuthorityLease) : String → Option AuthorityLease :=
  fun r => if r = resourceId then some lease else none

theorem only_eq_some {r : String} {new : AuthorityLease} :
    only resourceId lease r = some new ↔ r = resourceId ∧ new = lease := by
  unfold only
  split
  · grind
  · simp_all

/-- An event or a request moves the counters and grants one lease at them. Kind: L -/
theorem installs_grantTo {moved : MultiNodeConsensusEngine} {nodeId : String}
    (hcounters : before.CountersKept moved) (htable : moved.activeLeases = before.activeLeases)
    (hwithin : before.LeasesWithin)
    (howner : ∀ held, before.activeLeases.Holds held → held.fencingToken = moved.currentFencingToken →
      held.nodeId = nodeId)
    (hsingle : ∀ held, before.activeLeases.get? resourceId = some held → held.granted = true →
      held.epoch = moved.currentEpoch → held.nodeId = nodeId) :
    Installs before (moved.grantTo resourceId nodeId) (only resourceId (moved.leaseFor resourceId nodeId)) where
  counters := hcounters
  table r := by
    show (moved.activeLeases.install (moved.leaseFor resourceId nodeId)).get? r = _
    rw [LeaseTable.get?_install, htable]
    unfold only
    show (if r = resourceId then _ else _) = _
    split
    · rfl
    · rfl
  within h := by
    obtain ⟨_, rfl⟩ := only_eq_some.mp h
    exact ⟨le_refl _, le_refl _⟩
  issued h := by
    obtain ⟨_, rfl⟩ := only_eq_some.mp h
    exact .inl hcounters.2.1
  owner h held hheld htoken := by
    obtain ⟨_, rfl⟩ := only_eq_some.mp h
    exact howner held hheld htoken
  replaces h held hheld := by
    obtain ⟨rfl, rfl⟩ := only_eq_some.mp h
    obtain ⟨hepoch, htoken⟩ := hwithin held (LeaseTable.holds_of_get? hheld)
    exact ⟨le_trans hepoch hcounters.1, le_trans htoken hcounters.2.1,
      fun hgranted hsame => ⟨rfl, (hsingle held hheld hgranted hsame.symm).symm⟩⟩
  apart h h' _ := by simp_all [only_eq_some]

/-- Nothing comes into the table. Kind: L -/
theorem installs_none (hcounters : before.CountersKept after) (htable : after.activeLeases = before.activeLeases) :
    Installs before after fun _ => none where
  counters := hcounters
  table r := by rw [htable, Option.none_or]
  within h := by cases h
  issued h := by cases h
  owner h := by cases h
  replaces h := by cases h
  apart h := by cases h

theorem countersKept_refl (engine : MultiNodeConsensusEngine) : engine.CountersKept engine :=
  ⟨le_refl _, le_refl _, le_refl _⟩

theorem countersKept_advanced (engine : MultiNodeConsensusEngine) (proposal : ConsensusProposal) :
    engine.CountersKept (engine.advanced proposal) :=
  ⟨le_max_left _ _, le_trans (Int.le_add_one (le_refl _)) (le_max_left _ _), Int.le_add_one (le_refl _)⟩

theorem countersKept_observed (engine : MultiNodeConsensusEngine) (event : ConsensusEvent) :
    engine.CountersKept (engine.observed event) :=
  ⟨le_max_left _ _, le_max_left _ _, le_max_left _ _⟩

theorem countersKept_healedBy (engine : MultiNodeConsensusEngine) (best : ConsensusSnapshot) :
    engine.CountersKept (engine.healedBy best) :=
  ⟨le_max_left _ _, le_max_left _ _, le_max_left _ _⟩

/-- A grant goes to a token that no lease has and leaves the granted lease of an epoch. Kind: P -/
theorem installs_requestAuthority (hwithin : engine.LeasesWithin) (proposal : ConsensusProposal) :
    ∃ taken, Installs engine (engine.requestAuthority proposal).1 taken := by
  rcases requestAuthority_cases engine proposal with heq | ⟨hepoch, htoken, hsplit, heq⟩
  · rw [heq]
    exact ⟨_, installs_none (countersKept_refl engine) rfl⟩
  · rw [heq]
    refine ⟨_, installs_grantTo (countersKept_advanced engine proposal) rfl hwithin ?_ ?_⟩
    · intro held hheld hsame
      have hpassed : engine.currentFencingToken < (engine.advanced proposal).currentFencingToken :=
        lt_of_lt_of_le (Int.lt_succ _) (le_max_left _ _)
      exact absurd (hwithin held hheld).2 (not_le.mpr (hsame ▸ hpassed))
    · intro held hheld hgranted hsame
      have hat : (engine.advanced proposal).currentEpoch = proposal.targetEpoch := max_eq_right hepoch
      exact splitBrain_eq_none.mp hsplit held hheld hgranted (hsame.trans hat)

/-- No active lease stands against the lease of an event: one of another node with its token, or a granted one of
another node for its resource at its epoch. Kind: D -/
def EventSound (engine : MultiNodeConsensusEngine) (event : ConsensusEvent) : Prop :=
  (event.eventType = "AUTHORITY_GRANT" ∧ event.resourceId ≠ "") → engine.Accepts event →
    (∀ held, engine.activeLeases.Holds held → held.fencingToken = event.fencingToken → held.nodeId = event.sourceNode) ∧
    ∀ held, engine.activeLeases.get? event.resourceId = some held → held.granted = true → held.epoch = event.epoch →
      held.nodeId = event.sourceNode

theorem installs_applyEvent (hwithin : engine.LeasesWithin) {event : ConsensusEvent}
    (hsound : engine.EventSound event) : ∃ taken, Installs engine (engine.applyEvent event).1 taken := by
  show ∃ taken, Installs engine (engine.afterEvent event) taken
  rcases afterEvent_cases engine event with heq | ⟨haccepts, heq | ⟨hgrant, heq⟩⟩
  · rw [heq]
    exact ⟨_, installs_none (countersKept_refl engine) rfl⟩
  · rw [heq]
    exact ⟨_, installs_none (countersKept_observed engine event) rfl⟩
  · rw [heq]
    obtain ⟨howner, hsingle⟩ := hsound hgrant haccepts
    have hepoch : (engine.observed event).currentEpoch = event.epoch := max_eq_right haccepts.2.1
    have htoken : (engine.observed event).currentFencingToken = event.fencingToken := max_eq_right haccepts.2.2.1
    refine ⟨_, installs_grantTo (countersKept_observed engine event) rfl hwithin ?_ ?_⟩
    · rw [htoken]
      exact howner
    · rw [hepoch]
      exact hsingle

/-- A lease of a snapshot is within the counters of the engine and the snapshot; its token is not below the counter of
the engine unless an active lease has it, and no active lease of another node has it; and it comes in the place of a lease
with a token not above its own and, where that is granted, for another epoch or for the same node. Kind: D -/
def Admissible (engine : MultiNodeConsensusEngine) (best : ConsensusSnapshot) (lease : AuthorityLease) : Prop :=
  (lease.epoch ≤ max engine.currentEpoch best.epoch ∧
    lease.fencingToken ≤ max engine.currentFencingToken best.fencingToken) ∧
  (engine.currentFencingToken ≤ lease.fencingToken ∨
    ∃ held, engine.activeLeases.Holds held ∧ held.fencingToken = lease.fencingToken) ∧
  (∀ held, engine.activeLeases.Holds held → held.fencingToken = lease.fencingToken → held.nodeId = lease.nodeId) ∧
  ∀ held, engine.activeLeases.get? lease.resourceId = some held → held.fencingToken ≤ lease.fencingToken ∧
    (held.granted = true → lease.epoch = held.epoch → lease.granted = true ∧ lease.nodeId = held.nodeId)

/-- A snapshot has one lease for a resource, and those of its leases that are newer than the engine's are admissible
and do not share a token between nodes. Kind: D -/
structure SnapshotSound (engine : MultiNodeConsensusEngine) (best : ConsensusSnapshot) : Prop where
  nodup : (best.authorities.map AuthorityLease.resourceId).Nodup
  admissible : ∀ lease ∈ best.authorities, engine.activeLeases.Outdated lease → engine.Admissible best lease
  apart : ∀ lease ∈ best.authorities, ∀ lease' ∈ best.authorities, engine.activeLeases.Outdated lease →
    engine.activeLeases.Outdated lease' → lease.fencingToken = lease'.fencingToken → lease.nodeId = lease'.nodeId

theorem epoch_le_of_generation_lt (h : held.generation < lease.generation) : held.epoch ≤ lease.epoch := by
  rcases Prod.Lex.toLex_lt_toLex.mp h with hlt | ⟨heq, _⟩
  · exact le_of_lt hlt
  · exact le_of_eq heq

theorem installs_healedBy {best : ConsensusSnapshot} (hsound : engine.SnapshotSound best) :
    Installs engine (engine.healedBy best) (engine.activeLeases.taken best.authorities) := by
  have htaken : ∀ {r new}, engine.activeLeases.taken best.authorities r = some new →
      new ∈ best.authorities ∧ new.resourceId = r ∧ engine.activeLeases.Outdated new := by
    intro r new h
    obtain ⟨hfind, hnew⟩ := LeaseTable.taken_eq_some.mp h
    exact ⟨List.mem_of_find?_eq_some hfind, by simpa using List.find?_some hfind, hnew⟩
  constructor
  · exact countersKept_healedBy engine best
  · exact fun r => get?_foldl_mergeLease r best.authorities hsound.nodup
  · intro r new h
    obtain ⟨hmem, _, hnew⟩ := htaken h
    exact (hsound.admissible new hmem hnew).1
  · intro r new h
    obtain ⟨hmem, _, hnew⟩ := htaken h
    exact (hsound.admissible new hmem hnew).2.1
  · intro r new h
    obtain ⟨hmem, _, hnew⟩ := htaken h
    exact (hsound.admissible new hmem hnew).2.2.1
  · intro r new h held hheld
    obtain ⟨hmem, rfl, hnew⟩ := htaken h
    have hepoch := epoch_le_of_generation_lt (hnew held hheld)
    exact ⟨hepoch, (hsound.admissible new hmem hnew).2.2.2 held hheld⟩
  · intro r r' new new' h h'
    obtain ⟨hmem, _, hnew⟩ := htaken h
    obtain ⟨hmem', _, hnew'⟩ := htaken h'
    exact hsound.apart new hmem new' hmem' hnew hnew'

/-! ## Runs -/

/-- The call brings no lease that stands against one that the engine holds. Kind: D -/
def CallSound (engine : MultiNodeConsensusEngine) : ConsensusCall → Prop
  | .requestAuthority _ => True
  | .applyEvent event => engine.EventSound event
  | .reconcilePartitionHealing snapshots => ∀ best ∈ bestSnapshot snapshots, engine.SnapshotSound best

theorem installs_call (hwithin : engine.LeasesWithin) : {c : ConsensusCall} → engine.CallSound c →
    ∃ taken, Installs engine (engine.call c) taken
  | .requestAuthority proposal, _ => installs_requestAuthority hwithin proposal
  | .applyEvent _, h => installs_applyEvent hwithin h
  | .reconcilePartitionHealing snapshots, h => by
    show ∃ taken, Installs engine (engine.reconcilePartitionHealing snapshots).1 taken
    rcases reconcilePartitionHealing_cases engine snapshots with heq | ⟨best, hbest, heq⟩
    · rw [heq]
      exact ⟨_, installs_none (countersKept_refl engine) rfl⟩
    · rw [heq]
      exact ⟨_, installs_healedBy (h best hbest)⟩

/-- No call lets a counter decrease. Kind: P -/
theorem countersKept_call (engine : MultiNodeConsensusEngine) (c : ConsensusCall) :
    engine.CountersKept (engine.call c) := by
  rcases c with proposal | event | snapshots
  · show engine.CountersKept (engine.requestAuthority proposal).1
    rcases requestAuthority_cases engine proposal with heq | ⟨_, _, _, heq⟩
    · rw [heq]
      exact countersKept_refl engine
    · rw [heq]
      exact countersKept_advanced engine proposal
  · show engine.CountersKept (engine.afterEvent event)
    rcases afterEvent_cases engine event with heq | ⟨_, heq | ⟨_, heq⟩⟩
    · rw [heq]
      exact countersKept_refl engine
    · rw [heq]
      exact countersKept_observed engine event
    · rw [heq]
      exact countersKept_observed engine event
  · show engine.CountersKept (engine.reconcilePartitionHealing snapshots).1
    rcases reconcilePartitionHealing_cases engine snapshots with heq | ⟨best, _, heq⟩
    · rw [heq]
      exact countersKept_refl engine
    · rw [heq]
      exact countersKept_healedBy engine best

theorem Orderly.call {c : ConsensusCall} (horderly : engine.Orderly) (h : engine.CallSound c) :
    (engine.call c).Orderly := by
  obtain ⟨taken, htaken⟩ := installs_call horderly.leasesWithin h
  exact horderly.step htaken

theorem orderly_initial (nodeId domain : String) (epoch token : ℤ) : (initial nodeId domain epoch token).Orderly := by
  intro lease hheld
  cases hheld

/-- What is known of a lease stays so in a run. Kind: P -/
theorem Remembers.run {calls : List ConsensusCall} (horderly : engine.Orderly) (hknown : engine.Remembers lease)
    (h : Along call CallSound engine calls) : ∀ later ∈ reached call engine calls, later.Remembers lease := by
  have hstep : ∀ (e : MultiNodeConsensusEngine) c, e.Orderly ∧ e.Remembers lease → e.CallSound c → (e.call c).Orderly ∧ (e.call c).Remembers lease := by
    rintro e c ⟨he, hlease⟩ hc
    obtain ⟨taken, htaken⟩ := installs_call he.leasesWithin hc
    exact ⟨he.step htaken, hlease.step htaken⟩
  exact fun later hlater => (Along.invariant hstep ⟨horderly, hknown⟩ h later hlater).2

theorem noDualAuthority_symm {engine' : MultiNodeConsensusEngine} (h : engine.NoDualAuthority engine') :
    engine'.NoDualAuthority engine := by
  intro lease' lease hlease' hlease
  obtain ⟨htoken, hauthority⟩ := h lease lease' hlease hlease'
  exact ⟨fun heq => (htoken heq.symm).symm,
    fun hgranted' hgranted hresource hepoch => (hauthority hgranted hgranted' hresource.symm hepoch.symm).symm⟩

/-- In a run of calls that bring no lease against one that is held, counters never decrease, leases stay within
them, leases of different nodes carry different tokens, and one node at most has authority over a resource at an
epoch. Kind: P -/
theorem authority_kept (nodeId domain : String) (epoch token : ℤ) (calls : List ConsensusCall)
    (h : Along call CallSound (initial nodeId domain epoch token) calls) :
    AuthorityKept (initial nodeId domain epoch token) calls := by
  have hinitial := orderly_initial nodeId domain epoch token
  have hstep : ∀ (e : MultiNodeConsensusEngine) c, e.Orderly → e.CallSound c → (e.call c).Orderly := fun e c he hc => he.call hc
  constructor
  · exact along_of_reached fun e _ c => countersKept_call e c
  · intro e he
    exact (Along.invariant hstep hinitial h e he).leasesWithin
  · refine Along.pairwise noDualAuthority_symm hstep ?_ hinitial h
    intro first rest hfirst hrest later hlater lease held hlease hheld
    exact ((hfirst lease hlease).run hfirst hrest later hlater).agrees hheld

/-- A request of a member with the votes of all members. Kind: D -/
def unanimous (resourceId proposerNode : String) (targetEpoch targetFencingToken : ℤ) : ConsensusCall :=
  .requestAuthority
    { resourceId := resourceId
      proposerNode := proposerNode
      targetEpoch := targetEpoch
      targetFencingToken := targetFencingToken
      votes := ["node_a", "node_b"]
      membershipView := { members := ["node_a", "node_b"] } }

/-- Another engine's grant of the queue. Kind: D -/
def queueGrant : ConsensusEvent where
  eventId := "e1"
  eventType := "AUTHORITY_GRANT"
  epoch := 1
  fencingToken := 4
  sequence := 5
  sourceNode := "node_b"
  resourceId := "queue"

/-- A state of a later epoch, in which another node has the database. Kind: D -/
def laterEpoch : ConsensusSnapshot where
  epoch := 2
  fencingToken := 9
  membership := ["node_a", "node_b"]
  authorities := [{ resourceId := "db", nodeId := "node_b", epoch := 2, fencingToken := 9 }]
  sequence := 9

theorem authority_kept_twoGrants : AuthorityKept (initial "consensus_node_1" "default_domain" 1 1)
    [unanimous "db" "node_a" 1 2, .applyEvent queueGrant, .reconcilePartitionHealing [laterEpoch]] := by
  refine authority_kept "consensus_node_1" "default_domain" 1 1 _ ⟨trivial, fun _ _ => ⟨?_, ?_⟩, fun best hbest => ?_, trivial⟩
  · exact LeaseTable.forall_holds (by decide)
  · exact LeaseTable.forall_get? (by decide)
  · obtain rfl : laterEpoch = best := by simpa [bestSnapshot] using hbest
    refine ⟨by decide, fun lease hlease _ => ?_, fun lease hlease lease' hlease' _ _ _ => ?_⟩
    · obtain rfl := List.mem_singleton.mp hlease
      exact ⟨by decide, .inl (by decide), LeaseTable.forall_holds (by decide), LeaseTable.forall_get? (by decide)⟩
    · rw [List.mem_singleton.mp hlease, List.mem_singleton.mp hlease']

/-- An event that grants a resource under the first token. Kind: D -/
def grantEvent (eventId sourceNode : String) (sequence : ℤ) : ConsensusCall :=
  .applyEvent
    { eventId := eventId
      eventType := "AUTHORITY_GRANT"
      epoch := 1
      fencingToken := 1
      sequence := sequence
      sourceNode := sourceNode
      resourceId := "db" }

/-- Two events give one resource to two nodes at one epoch and with one token. Kind: P -/
theorem events_grant_twice : ¬ ∀ nodeId domain epoch token calls,
    AuthorityKept (initial nodeId domain epoch token) calls := by
  intro h
  let start := initial "consensus_node_1" "default_domain" 1 1
  have hkept := h "consensus_node_1" "default_domain" 1 1 [grantEvent "e1" "node_a" 1, grantEvent "e2" "node_b" 2]
  have hfirst : start.call (grantEvent "e1" "node_a" 1) ∈
      reached call start [grantEvent "e1" "node_a" 1, grantEvent "e2" "node_b" 2] :=
    List.mem_cons_of_mem _ List.mem_cons_self
  have hsecond : (start.call (grantEvent "e1" "node_a" 1)).call (grantEvent "e2" "node_b" 2) ∈
      reached call start [grantEvent "e1" "node_a" 1, grantEvent "e2" "node_b" 2] :=
    List.mem_cons_of_mem _ (List.mem_cons_of_mem _ List.mem_cons_self)
  have hsame := (hkept.single _ hfirst _ hsecond { resourceId := "db", nodeId := "node_a" }
    { resourceId := "db", nodeId := "node_b" } rfl rfl).1 rfl
  exact absurd hsame (by decide)

/-! ## Validation -/

/-- The active lease of a resource is the node's, with this epoch and this token. Kind: D -/
def HasLease (engine : MultiNodeConsensusEngine) (resourceId nodeId : String) (epoch fencingToken : ℤ) : Prop :=
  ∃ lease, engine.activeLeases.get? resourceId = some lease ∧ lease.nodeId = nodeId ∧ lease.epoch = epoch ∧
    lease.fencingToken = fencingToken

/-- Neither number is below the counter of the engine. Kind: D -/
def Fresh (engine : MultiNodeConsensusEngine) (epoch fencingToken : ℤ) : Prop :=
  engine.currentEpoch ≤ epoch ∧ engine.currentFencingToken ≤ fencingToken

/-- Validation accepts the holder of a granted lease with any numbers not below the counters. Kind: L -/
theorem isGranted_validateAuthority {nodeId : String} {epoch fencingToken : ℤ} {view : MembershipView}
    {connectivity : NetworkCondition} (hconnectivity : connectivity ≠ .unknown) (hmember : nodeId ∈ view.members) :
    (engine.validateAuthority resourceId nodeId epoch fencingToken view connectivity).isGranted = true ↔
      engine.Fresh epoch fencingToken ∧ ∃ lease, engine.activeLeases.get? resourceId = some lease ∧
        lease.granted = true ∧ lease.nodeId = nodeId := by
  unfold validateAuthority
  rw [if_neg hconnectivity, if_neg (not_not_intro hmember)]
  by_cases hstale : epoch < engine.currentEpoch ∨ fencingToken < engine.currentFencingToken
  · rw [if_pos hstale]
    refine iff_of_false Bool.false_ne_true ?_
    rintro ⟨⟨hepoch, htoken⟩, _⟩
    rcases hstale with hlt | hlt
    · exact absurd hepoch (not_le.mpr hlt)
    · exact absurd htoken (not_le.mpr hlt)
  · rw [if_neg hstale]
    have hfresh : engine.Fresh epoch fencingToken := by
      rw [not_or, not_lt, not_lt] at hstale
      exact hstale
    rcases hfilter : engine.authorityOf resourceId nodeId with _ | lease
    · refine iff_of_false Bool.false_ne_true ?_
      rintro ⟨_, lease, hlease, hholder⟩
      exact Option.filter_eq_none_iff.mp hfilter lease hlease (decide_eq_true hholder)
    · obtain ⟨hlease, hholder⟩ := Option.filter_eq_some_iff.mp hfilter
      exact iff_of_true rfl ⟨hfresh, lease, hlease, of_decide_eq_true hholder⟩

/-- With known connectivity and a member of the view, validation accepts exactly the node, epoch and token of the
active lease if and only if no active lease of the resource is the node's, or it is presented with its own numbers, granted
and with no counter past it, or with other numbers and not granted or with one of them below a counter. Kind: P -/
theorem validateAuthority_exact_iff (engine : MultiNodeConsensusEngine) (resourceId nodeId : String)
    (epoch fencingToken : ℤ) (view : MembershipView) (connectivity : NetworkCondition)
    (hconnectivity : connectivity ≠ .unknown) (hmember : nodeId ∈ view.members) :
    ((engine.validateAuthority resourceId nodeId epoch fencingToken view connectivity).isGranted = true ↔
        engine.HasLease resourceId nodeId epoch fencingToken) ↔
      ∀ lease, engine.activeLeases.get? resourceId = some lease → lease.nodeId = nodeId →
        (lease.epoch = epoch ∧ lease.fencingToken = fencingToken) ∧ lease.granted = true ∧
            engine.Fresh lease.epoch lease.fencingToken ∨
          ¬(lease.epoch = epoch ∧ lease.fencingToken = fencingToken) ∧
            (lease.granted = false ∨ ¬engine.Fresh epoch fencingToken) := by
  rw [isGranted_validateAuthority hconnectivity hmember]
  rcases hlease : engine.activeLeases.get? resourceId with _ | lease
  · refine iff_of_true (iff_of_false ?_ ?_) ?_
    · rintro ⟨_, _, h, _⟩
      cases h
    · rintro ⟨_, h, _⟩
      cases hlease.symm.trans h
    · intro _ h
      cases h
  by_cases hnode : lease.nodeId = nodeId
  · have hholds : engine.HasLease resourceId nodeId epoch fencingToken ↔
        lease.epoch = epoch ∧ lease.fencingToken = fencingToken := by
      constructor
      · rintro ⟨other, hother, _, hsame⟩
        cases hlease.symm.trans hother
        exact hsame
      · rintro ⟨hepoch, htoken⟩
        exact ⟨lease, hlease, hnode, hepoch, htoken⟩
    have hholder : (∃ lease', some lease = some lease' ∧ lease'.granted = true ∧ lease'.nodeId = nodeId) ↔
        lease.granted = true := by
      constructor
      · simp_all
      · exact fun hgranted => ⟨lease, rfl, hgranted, hnode⟩
    rw [hholds, hholder]
    have hone : (∀ lease', some lease = some lease' → lease'.nodeId = nodeId →
        (lease'.epoch = epoch ∧ lease'.fencingToken = fencingToken) ∧ lease'.granted = true ∧
            engine.Fresh lease'.epoch lease'.fencingToken ∨
          ¬(lease'.epoch = epoch ∧ lease'.fencingToken = fencingToken) ∧
            (lease'.granted = false ∨ ¬engine.Fresh epoch fencingToken)) ↔
        ((lease.epoch = epoch ∧ lease.fencingToken = fencingToken) ∧ lease.granted = true ∧
            engine.Fresh lease.epoch lease.fencingToken ∨
          ¬(lease.epoch = epoch ∧ lease.fencingToken = fencingToken) ∧
            (lease.granted = false ∨ ¬engine.Fresh epoch fencingToken)) := by
      constructor
      · exact fun h => h lease rfl hnode
      · rintro h lease' heq _
        cases heq
        exact h
    rw [hone]
    by_cases hown : lease.epoch = epoch ∧ lease.fencingToken = fencingToken
    · grind
    · grind
  · refine iff_of_true (iff_of_false ?_ ?_) ?_
    · simp_all
    · rintro ⟨_, h, hother, _⟩
      cases hlease.symm.trans h
      exact hnode hother
    · intro _ h hother
      cases h
      exact absurd hother hnode

theorem validateAuthority_exact_afterGrant :
    let engine := (initial "consensus_node_1" "default_domain" 1 1).call (unanimous "db" "node_a" 1 2)
    (engine.validateAuthority "db" "node_a" 1 2 { members := ["node_a"] } .healthy).isGranted = true ↔
      engine.HasLease "db" "node_a" 1 2 := by
  intro engine
  apply (validateAuthority_exact_iff engine "db" "node_a" 1 2 { members := ["node_a"] } .healthy (by decide)
    (by decide)).mpr
  intro lease hlease _
  cases hlease
  exact .inl ⟨⟨rfl, rfl⟩, rfl, le_refl _, le_refl _⟩

/-- The holder of a lease is refused after the grant of another resource. Kind: P -/
theorem holder_refused : ¬ ∀ nodeId domain epoch token calls,
    ∀ engine ∈ reached call (initial nodeId domain epoch token) calls,
      ∀ resourceId holder leaseEpoch leaseToken view connectivity, connectivity ≠ .unknown → holder ∈ view.members →
        ((engine.validateAuthority resourceId holder leaseEpoch leaseToken view connectivity).isGranted = true ↔
          engine.HasLease resourceId holder leaseEpoch leaseToken) := by
  intro h
  have hlast := h "consensus_node_1" "default_domain" 1 1 [unanimous "db" "node_a" 1 2, unanimous "queue" "node_b" 1 3]
    _ (foldl_mem_reached _ _) "db" "node_a" 1 2 { members := ["node_a", "node_b"] } .healthy (by decide) (by decide)
  have hlease : HasLease ((initial "consensus_node_1" "default_domain" 1 1).call (unanimous "db" "node_a" 1 2)
      |>.call (unanimous "queue" "node_b" 1 3)) "db" "node_a" 1 2 :=
    ⟨{ resourceId := "db", nodeId := "node_a", epoch := 1, fencingToken := 2 }, rfl, rfl, rfl, rfl⟩
  exact absurd (hlast.mpr hlease) (by decide)

end MultiNodeConsensusEngine

end KarsaSec.Distributed
