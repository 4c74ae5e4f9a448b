import KarsaSec.Found.Dict
import KarsaSec.Found.Json
import KarsaSec.Found.JsonText
import KarsaSec.Found.Runs
import KarsaSec.Found.Sorting
import Mathlib.Data.List.MinMax
import Mathlib.Data.Prod.Lex
import Mathlib.Data.String.Basic

/-!
# The consensus engine

`MultiNodeConsensusEngine`: an engine keeps an epoch, a fencing token and a sequence number, and one lease for each
resource.

* A lease comes into the table of an engine in three ways: `requestAuthority` grants one to the proposer,
  `applyEvent` takes one from an event, `reconcilePartitionHealing` takes those of the best snapshot.
* `LeaseTable` holds each lease under its own resource.
* `MultiNodeConsensusEngine.call` is the step of an engine; its runs start in `initial`.
* `ConsensusSnapshot.canonicalDigest` is the digest by which engines are compared.
-/

namespace KarsaSec.Distributed

open KarsaSec.Found

/-- Source: `consensus.py`, `ConsensusFailureType`, the values that results carry. Kind: D -/
inductive ConsensusFailureType
  | noFailure
  | noQuorum
  | unknownConnectivity
  | staleEpoch
  | staleFencingToken
  | splitBrain
  | membershipConflict
  deriving DecidableEq

/-- Source: `consensus.py`, `ConsensusStatus`, the values that results carry. Kind: D -/
inductive ConsensusStatus
  | authorityGranted
  | blockedNoQuorum
  | rejectedStale
  | rejectedSplitBrain
  | blockedFailClosed
  deriving DecidableEq

/-- Source: `partition.py`, `NetworkCondition`. Kind: D -/
inductive NetworkCondition
  | healthy
  | degraded
  | delayed
  | dropped
  | partitioned
  | recovering
  | unknown
  deriving DecidableEq

/-- Source: `consensus.py`, `MembershipView`. Kind: D -/
structure MembershipView where
  members : List String
  quorumOverride : Option ℤ := none

/-- Source: `consensus.py`, `calculate_quorum`. Kind: D -/
def MembershipView.calculateQuorum (view : MembershipView) : ℤ :=
  view.quorumOverride.getD (view.members.length / 2 + 1)

/-- Source: `consensus.py`, `AuthorityLease`. Kind: D -/
structure AuthorityLease where
  resourceId : String
  nodeId : String
  consensusDomain : String := "default_domain"
  epoch : ℤ := 1
  fencingToken : ℤ := 1
  granted : Bool := true
  deriving DecidableEq

/-- The pair by which leases are compared when states are merged. Kind: D -/
def AuthorityLease.generation (lease : AuthorityLease) : ℤ ×ₗ ℤ := toLex (lease.epoch, lease.fencingToken)

/-- Source: `consensus.py`, `ConsensusEvent`. Kind: D -/
structure ConsensusEvent where
  eventId : String
  eventType : String
  epoch : ℤ
  fencingToken : ℤ
  sequence : ℤ
  sourceNode : String
  resourceId : String

/-- Source: `consensus.py`, `ConsensusProposal`. Kind: D -/
structure ConsensusProposal where
  resourceId : String
  proposerNode : String
  targetEpoch : ℤ
  targetFencingToken : ℤ
  votes : List String
  membershipView : MembershipView
  connectivity : NetworkCondition := .healthy

/-- Source: `consensus.py`, `ConsensusSnapshot`. Kind: D -/
structure ConsensusSnapshot where
  epoch : ℤ
  fencingToken : ℤ
  membership : List String
  authorities : List AuthorityLease
  sequence : ℤ
  deriving DecidableEq

/-- Ranks are compared from the left. Kind: D -/
instance rankPreorder : Preorder (ℤ ×ₗ ℤ ×ₗ ℤ) := (Prod.Lex.instLinearOrder ℤ (ℤ ×ₗ ℤ)).toPreorder

/-- The key by which the best snapshot is found. Source: `consensus.py`, `reconcile_partition_healing`. Kind: D -/
def ConsensusSnapshot.rank (snapshot : ConsensusSnapshot) : ℤ ×ₗ ℤ ×ₗ ℤ :=
  toLex (snapshot.epoch, toLex (snapshot.fencingToken, snapshot.sequence))

/-- What a request or a validation answers. Source: `consensus.py`, `ConsensusResult`. Kind: D -/
structure ConsensusResult where
  status : ConsensusStatus
  failureType : ConsensusFailureType
  lease : Option AuthorityLease
  epoch : ℤ
  fencingToken : ℤ
  validVotesCount : ℕ
  quorumRequired : ℤ
  reason : String
  /-- The snapshot whose digest the answer carries. -/
  snapshot : Option ConsensusSnapshot := none

/-- Source: `consensus.py`, `is_granted`. Kind: D -/
def ConsensusResult.isGranted (result : ConsensusResult) : Bool := result.status = .authorityGranted

/-! ## Digests -/

/-- Source: `consensus.py`, `AuthorityLease.to_dict`. Kind: D -/
def AuthorityLease.toDict (lease : AuthorityLease) : Json Empty :=
  .obj [("consensus_domain", .str lease.consensusDomain), ("epoch", .int lease.epoch),
    ("fencing_token", .int lease.fencingToken), ("granted", .bool lease.granted), ("node_id", .str lease.nodeId),
    ("resource_id", .str lease.resourceId)]

/-- `sorted(…, key=lambda a: (a.resource_id, a.node_id))`. Kind: D -/
def sortLeases (leases : List AuthorityLease) : List AuthorityLease :=
  sortBy (fun lease => toLex (lease.resourceId, lease.nodeId)) leases

/-- Source: `consensus.py`, `ConsensusSnapshot.canonical_digest`, `payload`. Kind: D -/
def ConsensusSnapshot.payload (snapshot : ConsensusSnapshot) : Json Empty :=
  .obj [("authorities", .arr ((sortLeases snapshot.authorities).map AuthorityLease.toDict)),
    ("epoch", .int snapshot.epoch), ("fencing_token", .int snapshot.fencingToken),
    ("membership", .arr ((sortBy id snapshot.membership).map .str)), ("sequence", .int snapshot.sequence)]

/-- Source: `consensus.py`, `ConsensusSnapshot.canonical_digest`. Kind: D -/
def ConsensusSnapshot.canonicalDigest (sha256 : Json Empty → String) (snapshot : ConsensusSnapshot) : String :=
  sha256 snapshot.payload.sortKeys

/-! ## The engine -/

/-- The leases of an engine, each under its own resource. Source: `consensus.py`, `active_leases`. Kind: D -/
structure LeaseTable where
  leases : Dict String AuthorityLease
  keyed : ∀ resourceId lease, leases.get? resourceId = some lease → lease.resourceId = resourceId

namespace LeaseTable

theorem keyed_empty (resourceId : String) (lease : AuthorityLease)
    (h : (Dict.empty : Dict String AuthorityLease).get? resourceId = some lease) : lease.resourceId = resourceId := by
  cases h

/-- Kind: D -/
def empty : LeaseTable := ⟨.empty, keyed_empty⟩

/-- `active_leases.get(resource_id)`. Kind: D -/
def get? (table : LeaseTable) (resourceId : String) : Option AuthorityLease := table.leases.get? resourceId

/-- `lease in active_leases.values()`. Kind: D -/
def Holds (table : LeaseTable) (lease : AuthorityLease) : Prop := table.get? lease.resourceId = some lease

theorem keyed_set (table : LeaseTable) (new : AuthorityLease) (resourceId : String) (lease : AuthorityLease)
    (h : (table.leases.set new.resourceId new).get? resourceId = some lease) : lease.resourceId = resourceId := by
  rw [Dict.get?_set] at h
  split at h
  · next heq =>
      cases h
      exact heq.symm
  · exact table.keyed resourceId lease h

/-- `active_leases[lease.resource_id] = lease`. Kind: D -/
def install (table : LeaseTable) (lease : AuthorityLease) : LeaseTable :=
  ⟨table.leases.set lease.resourceId lease, table.keyed_set lease⟩

@[simp] theorem get?_empty (resourceId : String) : empty.get? resourceId = none := rfl

theorem get?_install (table : LeaseTable) (lease : AuthorityLease) (resourceId : String) :
    (table.install lease).get? resourceId = if resourceId = lease.resourceId then some lease else table.get? resourceId :=
  Dict.get?_set table.leases lease.resourceId resourceId lease

theorem resourceId_of_get? {table : LeaseTable} {resourceId : String} {lease : AuthorityLease}
    (h : table.get? resourceId = some lease) : lease.resourceId = resourceId := table.keyed resourceId lease h

theorem holds_of_get? {table : LeaseTable} {resourceId : String} {lease : AuthorityLease}
    (h : table.get? resourceId = some lease) : table.Holds lease := by
  rw [Holds, resourceId_of_get? h]
  exact h

theorem forall_holds {table : LeaseTable} {P : AuthorityLease → Prop} (h : ∀ e ∈ table.leases.entries, P e.2) :
    ∀ held, table.Holds held → P held :=
  fun held hheld => h (held.resourceId, held) (Dict.mem_entries.mpr hheld)

theorem forall_get? {table : LeaseTable} {P : AuthorityLease → Prop} {resourceId : String}
    (h : ∀ e ∈ table.leases.entries, e.1 = resourceId → P e.2) : ∀ held, table.get? resourceId = some held → P held :=
  fun held hheld => h (resourceId, held) (Dict.mem_entries.mpr hheld) rfl

end LeaseTable

/-- Source: `consensus.py`, `MultiNodeConsensusEngine`. Kind: D -/
structure MultiNodeConsensusEngine where
  nodeId : String := "consensus_node_1"
  domain : String := "default_domain"
  currentEpoch : ℤ := 1
  currentFencingToken : ℤ := 1
  sequence : ℤ := 0
  activeLeases : LeaseTable := .empty
  processedEventIds : List String := []

namespace MultiNodeConsensusEngine

variable (engine : MultiNodeConsensusEngine)

/-- Source: `consensus.py`, `__init__`. Kind: D -/
def initial (nodeId domain : String) (initialEpoch initialFencingToken : ℤ) : MultiNodeConsensusEngine where
  nodeId := nodeId
  domain := domain
  currentEpoch := initialEpoch
  currentFencingToken := initialFencingToken

/-- Source: `consensus.py`, `get_snapshot`. Kind: D -/
def getSnapshot (membership : List String) : ConsensusSnapshot where
  epoch := engine.currentEpoch
  fencingToken := engine.currentFencingToken
  membership := sortBy id membership
  authorities := sortLeases engine.activeLeases.leases.values
  sequence := engine.sequence

/-- A result without a lease. Source: `consensus.py`, `ConsensusResult(…, lease=None, …)`. Kind: D -/
def refuse (status : ConsensusStatus) (failureType : ConsensusFailureType) (validVotesCount : ℕ)
    (quorumRequired : ℤ) (reason : String) : ConsensusResult where
  status := status
  failureType := failureType
  lease := none
  epoch := engine.currentEpoch
  fencingToken := engine.currentFencingToken
  validVotesCount := validVotesCount
  quorumRequired := quorumRequired
  reason := reason

/-- The voters that are members, each once. Source: `consensus.py`, `valid_votes`. Kind: D -/
def validVotes (proposal : ConsensusProposal) : List String :=
  (proposal.votes.filter fun v => v ∈ proposal.membershipView.members).dedup

/-- The lease that stands against a proposal. Source: `consensus.py`, `existing_lease`. Kind: D -/
def splitBrain (proposal : ConsensusProposal) : Option AuthorityLease :=
  (engine.activeLeases.get? proposal.resourceId).filter fun existing =>
    existing.granted ∧ existing.nodeId ≠ proposal.proposerNode ∧ existing.epoch = proposal.targetEpoch

/-- The counters after a grant. Source: `consensus.py`, `request_authority`, step 7. Kind: D -/
def advanced (proposal : ConsensusProposal) : MultiNodeConsensusEngine :=
  { engine with
    currentEpoch := max engine.currentEpoch proposal.targetEpoch
    currentFencingToken := max (engine.currentFencingToken + 1) proposal.targetFencingToken
    sequence := engine.sequence + 1 }

/-- A lease at the counters of the engine. Source: `consensus.py`, `new_lease`. Kind: D -/
def leaseFor (resourceId nodeId : String) : AuthorityLease where
  resourceId := resourceId
  nodeId := nodeId
  consensusDomain := engine.domain
  epoch := engine.currentEpoch
  fencingToken := engine.currentFencingToken

/-- Source: `consensus.py`, `self.active_leases[resource_id] = AuthorityLease(…)`. Kind: D -/
def grantTo (resourceId nodeId : String) : MultiNodeConsensusEngine :=
  { engine with activeLeases := engine.activeLeases.install (engine.leaseFor resourceId nodeId) }

/-- Source: `consensus.py`, `request_authority`. Kind: D -/
def requestAuthority (proposal : ConsensusProposal) : MultiNodeConsensusEngine × ConsensusResult :=
  let quorum := proposal.membershipView.calculateQuorum
  let votes := (validVotes proposal).length
  if proposal.connectivity = .unknown then
    (engine, engine.refuse .blockedFailClosed .unknownConnectivity 0 quorum
      "BLOCKED (INV-F15-CONS-13): Connectivity is UNKNOWN. UNKNOWN != SAFE.")
  else if proposal.proposerNode ∉ proposal.membershipView.members then
    (engine, engine.refuse .blockedFailClosed .membershipConflict 0 quorum
      s!"BLOCKED (INV-F15-CONS-05): Proposer {proposal.proposerNode} is not in membership view.")
  else if proposal.targetEpoch < engine.currentEpoch then
    (engine, engine.refuse .rejectedStale .staleEpoch 0 quorum
      s!"REJECTED (INV-F15-CONS-03/07): Target epoch {proposal.targetEpoch} is stale compared to current epoch {engine.currentEpoch}.")
  else if proposal.targetFencingToken ≤ engine.currentFencingToken then
    (engine, engine.refuse .rejectedStale .staleFencingToken 0 quorum
      s!"REJECTED (INV-F15-CONS-04): Target fencing token {proposal.targetFencingToken} is not strictly greater than current {engine.currentFencingToken}.")
  else if votes < quorum then
    (engine, engine.refuse .blockedNoQuorum .noQuorum votes quorum
      s!"BLOCKED (INV-F15-CONS-01/06): Insufficient votes ({votes}) to satisfy quorum ({quorum}).")
  else
    match engine.splitBrain proposal with
    | some existing =>
      (engine, engine.refuse .rejectedSplitBrain .splitBrain votes quorum
        s!"REJECTED (INV-F15-CONS-02/14): Split-brain conflict! Node {existing.nodeId} already holds active authority for resource {proposal.resourceId} at epoch {existing.epoch}.")
    | none =>
      let after := (engine.advanced proposal).grantTo proposal.resourceId proposal.proposerNode
      (after,
        { status := .authorityGranted
          failureType := .noFailure
          lease := some ((engine.advanced proposal).leaseFor proposal.resourceId proposal.proposerNode)
          epoch := after.currentEpoch
          fencingToken := after.currentFencingToken
          validVotesCount := votes
          quorumRequired := quorum
          reason := "GRANTED (INV-F15-CONS-01..16): Consensus authority granted with valid quorum and monotonic fencing generation."
          snapshot := some (after.getSnapshot proposal.membershipView.members) })

/-- The granted lease of a node. Source: `consensus.py`, `validate_authority`, `lease`. Kind: D -/
def authorityOf (resourceId nodeId : String) : Option AuthorityLease :=
  (engine.activeLeases.get? resourceId).filter fun lease => lease.granted ∧ lease.nodeId = nodeId

/-- Source: `consensus.py`, `validate_authority`. Kind: D -/
def validateAuthority (resourceId nodeId : String) (epoch fencingToken : ℤ) (view : MembershipView)
    (connectivity : NetworkCondition) : ConsensusResult :=
  let quorum := view.calculateQuorum
  if connectivity = .unknown then
    engine.refuse .blockedFailClosed .unknownConnectivity 0 quorum "BLOCKED (INV-F15-CONS-13): Connectivity UNKNOWN."
  else if nodeId ∉ view.members then
    engine.refuse .blockedFailClosed .membershipConflict 0 quorum s!"BLOCKED: Node {nodeId} is not in membership view."
  else if epoch < engine.currentEpoch ∨ fencingToken < engine.currentFencingToken then
    engine.refuse .rejectedStale (if epoch < engine.currentEpoch then .staleEpoch else .staleFencingToken) 0 quorum
      "REJECTED: Stale epoch or fencing token."
  else
    match engine.authorityOf resourceId nodeId with
    | none =>
      engine.refuse .rejectedSplitBrain .splitBrain 0 quorum
        s!"REJECTED: Node {nodeId} does not hold active authority for resource {resourceId}."
    | some lease =>
      { status := .authorityGranted
        failureType := .noFailure
        lease := some lease
        epoch := engine.currentEpoch
        fencingToken := engine.currentFencingToken
        validVotesCount := view.members.length
        quorumRequired := quorum
        reason := "VALIDATED: Authority verified." }

/-- An event that is neither a duplicate nor stale nor out of order. Source: `consensus.py`, `apply_event`. Kind: D -/
def Accepts (event : ConsensusEvent) : Prop :=
  event.eventId ∉ engine.processedEventIds ∧ engine.currentEpoch ≤ event.epoch ∧
    engine.currentFencingToken ≤ event.fencingToken ∧ engine.sequence < event.sequence

instance (event : ConsensusEvent) : Decidable (engine.Accepts event) := inferInstanceAs (Decidable (_ ∧ _))

/-- The counters after an event. Source: `consensus.py`, `apply_event`, "Apply state transition". Kind: D -/
def observed (event : ConsensusEvent) : MultiNodeConsensusEngine :=
  { engine with
    processedEventIds := event.eventId :: engine.processedEventIds
    currentEpoch := max engine.currentEpoch event.epoch
    currentFencingToken := max engine.currentFencingToken event.fencingToken
    sequence := max engine.sequence event.sequence }

/-- The state after an event. Source: `consensus.py`, `apply_event`. Kind: D -/
def afterEvent (event : ConsensusEvent) : MultiNodeConsensusEngine :=
  if engine.Accepts event then
    if event.eventType = "AUTHORITY_GRANT" ∧ event.resourceId ≠ "" then
      (engine.observed event).grantTo event.resourceId event.sourceNode
    else engine.observed event
  else engine

/-- Source: `consensus.py`, `apply_event`. Kind: D -/
def applyEvent (event : ConsensusEvent) : MultiNodeConsensusEngine × ConsensusSnapshot × Bool :=
  (engine.afterEvent event, (engine.afterEvent event).getSnapshot ["node_a", "node_b"], engine.Accepts event)

/-- Source: `consensus.py`, `best`. Kind: D -/
def bestSnapshot (healedSnapshots : List ConsensusSnapshot) : Option ConsensusSnapshot :=
  healedSnapshots.argmax ConsensusSnapshot.rank

/-- One turn of the loop over the leases of the best snapshot. Source: `consensus.py`, "Merge active leases". Kind: D -/
def mergeLease (table : LeaseTable) (lease : AuthorityLease) : LeaseTable :=
  match table.get? lease.resourceId with
  | none => table.install lease
  | some curr => if curr.generation < lease.generation then table.install lease else table

/-- The state after the best snapshot. Source: `consensus.py`, `reconcile_partition_healing`. Kind: D -/
def healedBy (best : ConsensusSnapshot) : MultiNodeConsensusEngine :=
  { engine with
    currentEpoch := max engine.currentEpoch best.epoch
    currentFencingToken := max engine.currentFencingToken best.fencingToken
    sequence := max engine.sequence best.sequence
    activeLeases := best.authorities.foldl mergeLease engine.activeLeases }

/-- Source: `consensus.py`, `reconcile_partition_healing`. Kind: D -/
def reconcilePartitionHealing (healedSnapshots : List ConsensusSnapshot) :
    MultiNodeConsensusEngine × ConsensusSnapshot :=
  match bestSnapshot healedSnapshots with
  | none => (engine, engine.getSnapshot ["node_a", "node_b"])
  | some best => (engine.healedBy best, (engine.healedBy best).getSnapshot best.membership)

end MultiNodeConsensusEngine

/-- A call that may change an engine. Kind: D -/
inductive ConsensusCall
  | requestAuthority (proposal : ConsensusProposal)
  | applyEvent (event : ConsensusEvent)
  | reconcilePartitionHealing (healedSnapshots : List ConsensusSnapshot)

/-- The engine after a call. Kind: D -/
def MultiNodeConsensusEngine.call (engine : MultiNodeConsensusEngine) : ConsensusCall → MultiNodeConsensusEngine
  | .requestAuthority proposal => (engine.requestAuthority proposal).1
  | .applyEvent event => (engine.applyEvent event).1
  | .reconcilePartitionHealing healedSnapshots => (engine.reconcilePartitionHealing healedSnapshots).1

/-! ## What a call can do -/

namespace MultiNodeConsensusEngine

variable {engine : MultiNodeConsensusEngine}

theorem splitBrain_eq_none {proposal : ConsensusProposal} : engine.splitBrain proposal = none ↔
    ∀ existing, engine.activeLeases.get? proposal.resourceId = some existing → existing.granted = true →
      existing.epoch = proposal.targetEpoch → existing.nodeId = proposal.proposerNode := by
  unfold splitBrain
  rw [Option.filter_eq_none_iff]
  refine forall₂_congr fun existing _ => ?_
  by_cases hnode : existing.nodeId = proposal.proposerNode
  · simp [hnode]
  · simp [hnode]

/-- A request leaves the engine or grants a lease at counters that it has passed. Kind: L -/
theorem requestAuthority_cases (engine : MultiNodeConsensusEngine) (proposal : ConsensusProposal) :
    (engine.requestAuthority proposal).1 = engine ∨
      engine.currentEpoch ≤ proposal.targetEpoch ∧ engine.currentFencingToken < proposal.targetFencingToken ∧
        engine.splitBrain proposal = none ∧ (engine.requestAuthority proposal).1 =
          (engine.advanced proposal).grantTo proposal.resourceId proposal.proposerNode := by
  unfold requestAuthority
  by_cases hconnectivity : proposal.connectivity = .unknown
  · left
    rw [if_pos hconnectivity]
  rw [if_neg hconnectivity]
  by_cases hmember : proposal.proposerNode ∉ proposal.membershipView.members
  · left
    rw [if_pos hmember]
  rw [if_neg hmember]
  by_cases hepoch : proposal.targetEpoch < engine.currentEpoch
  · left
    rw [if_pos hepoch]
  rw [if_neg hepoch]
  by_cases htoken : proposal.targetFencingToken ≤ engine.currentFencingToken
  · left
    rw [if_pos htoken]
  rw [if_neg htoken]
  by_cases hquorum : ((validVotes proposal).length : ℤ) < proposal.membershipView.calculateQuorum
  · left
    rw [if_pos hquorum]
  rw [if_neg hquorum]
  rcases hsplit : engine.splitBrain proposal with _ | existing
  · simp_all
  · left
    rfl

/-- An event leaves the engine, moves its counters, or also grants a lease. Kind: L -/
theorem afterEvent_cases (engine : MultiNodeConsensusEngine) (event : ConsensusEvent) :
    engine.afterEvent event = engine ∨ engine.Accepts event ∧ (engine.afterEvent event = engine.observed event ∨
      (event.eventType = "AUTHORITY_GRANT" ∧ event.resourceId ≠ "") ∧
        engine.afterEvent event = (engine.observed event).grantTo event.resourceId event.sourceNode) := by
  unfold afterEvent
  by_cases haccepts : engine.Accepts event
  · grind
  · rw [if_neg haccepts]
    exact .inl rfl

theorem reconcilePartitionHealing_cases (engine : MultiNodeConsensusEngine) (snapshots : List ConsensusSnapshot) :
    (engine.reconcilePartitionHealing snapshots).1 = engine ∨ ∃ best, bestSnapshot snapshots = some best ∧
      (engine.reconcilePartitionHealing snapshots).1 = engine.healedBy best := by
  unfold reconcilePartitionHealing
  rcases hbest : bestSnapshot snapshots with _ | best
  · exact .inl rfl
  · exact .inr ⟨best, rfl, rfl⟩

end MultiNodeConsensusEngine

/-! ## Merging leases -/

/-- A lease is newer than what the table holds for its resource. Kind: D -/
def LeaseTable.Outdated (table : LeaseTable) (lease : AuthorityLease) : Prop :=
  ∀ held ∈ table.get? lease.resourceId, held.generation < lease.generation

instance (table : LeaseTable) (lease : AuthorityLease) : Decidable (table.Outdated lease) :=
  inferInstanceAs (Decidable (∀ held ∈ table.get? lease.resourceId, held.generation < lease.generation))

/-- The lease for a resource that comes into a table from a list of leases. Kind: D -/
def LeaseTable.taken (table : LeaseTable) (leases : List AuthorityLease) (resourceId : String) : Option AuthorityLease :=
  (leases.find? fun lease => lease.resourceId = resourceId).filter fun lease => table.Outdated lease

theorem LeaseTable.taken_eq_some {table : LeaseTable} {leases : List AuthorityLease} {resourceId : String}
    {lease : AuthorityLease} : table.taken leases resourceId = some lease ↔
      leases.find? (fun lease => lease.resourceId = resourceId) = some lease ∧ table.Outdated lease := by
  unfold taken
  rw [Option.filter_eq_some_iff, decide_eq_true_eq]

namespace MultiNodeConsensusEngine

theorem mergeLease_eq (table : LeaseTable) (lease : AuthorityLease) :
    mergeLease table lease = if table.Outdated lease then table.install lease else table := by
  unfold mergeLease
  rcases hheld : table.get? lease.resourceId with _ | held
  · have hnew : table.Outdated lease := by
      intro held hmem
      rw [hheld] at hmem
      cases hmem
    rw [if_pos hnew]
  · have hiff : table.Outdated lease ↔ held.generation < lease.generation := by
      unfold LeaseTable.Outdated
      rw [hheld]
      constructor
      · exact fun h => h held rfl
      · rintro h held' hmem
        cases hmem
        exact h
    exact if_congr hiff.symm rfl rfl

theorem get?_mergeLease_ne (table : LeaseTable) {lease : AuthorityLease} {resourceId : String}
    (h : resourceId ≠ lease.resourceId) : (mergeLease table lease).get? resourceId = table.get? resourceId := by
  rw [mergeLease_eq]
  split
  · rw [LeaseTable.get?_install, if_neg h]
  · rfl

theorem get?_foldl_mergeLease_of_not_mem {resourceId : String} : (leases : List AuthorityLease) → {table : LeaseTable} →
    resourceId ∉ leases.map AuthorityLease.resourceId →
    (leases.foldl mergeLease table).get? resourceId = table.get? resourceId
  | [], _, _ => rfl
  | lease :: leases, table, h => by
    rw [List.map_cons, List.mem_cons, not_or] at h
    rw [List.foldl_cons, get?_foldl_mergeLease_of_not_mem leases h.2, get?_mergeLease_ne table h.1]

/-- Where each resource has one lease in a list, that lease comes into the table when it is newer, and the others have
no part in it. Kind: P -/
theorem get?_foldl_mergeLease (resourceId : String) : (leases : List AuthorityLease) → {table : LeaseTable} →
    (leases.map AuthorityLease.resourceId).Nodup →
    (leases.foldl mergeLease table).get? resourceId = (table.taken leases resourceId).or (table.get? resourceId)
  | [], _, _ => rfl
  | lease :: leases, table, h => by
    have hnodup := List.nodup_cons.mp h
    rw [List.foldl_cons]
    by_cases heq : lease.resourceId = resourceId
    · subst heq
      have htaken : table.taken (lease :: leases) lease.resourceId =
          if table.Outdated lease then some lease else none := by
        unfold LeaseTable.taken
        rw [List.find?_cons_of_pos (by simp), Option.filter_some]
        simp only [decide_eq_true_eq]
      rw [get?_foldl_mergeLease_of_not_mem leases hnodup.1, mergeLease_eq, htaken]
      by_cases hnew : table.Outdated lease
      · simp_all [LeaseTable.get?_install]
      · rw [if_neg hnew, if_neg hnew, Option.none_or]
    · have htaken : (mergeLease table lease).taken leases resourceId = table.taken (lease :: leases) resourceId := by
        apply Option.ext
        intro found
        rw [LeaseTable.taken_eq_some, LeaseTable.taken_eq_some, List.find?_cons_of_neg (by simpa using heq)]
        refine and_congr_right fun hfound => ?_
        have hresource : found.resourceId = resourceId := by simpa using List.find?_some hfound
        have hother : found.resourceId ≠ lease.resourceId := fun hsame => heq (hsame.symm.trans hresource)
        unfold LeaseTable.Outdated
        rw [get?_mergeLease_ne table hother]
      rw [get?_foldl_mergeLease resourceId leases hnodup.2, get?_mergeLease_ne table (Ne.symm heq), htaken]

end MultiNodeConsensusEngine

end KarsaSec.Distributed
