import KarsaSec.Distributed.Authority

/-!
# Healing a partition

Each of several engines reconciles with the snapshots of all of them.

* `Agree`: two engines with the same counters and leases; their snapshots are then the same (`Agree.getSnapshot_eq`).
* `agree_healedBy`: an engine that another one dominates takes over the state of that one from its snapshot.
* `healedBy_of_agree`: a snapshot of the same state changes nothing.
* `converges_iff`: the engines come to one state, with the newest lease for each resource and for good, exactly when an
  engine with the greatest counters dominates all engines. A lease that only a lower engine has is lost to the others.
-/

namespace KarsaSec.Distributed

open KarsaSec.Found

namespace MultiNodeConsensusEngine

variable {engine engine' best : MultiNodeConsensusEngine}

/-! ## Snapshots -/

/-- Two engines with the same counters and leases. Kind: D -/
structure Agree (engine engine' : MultiNodeConsensusEngine) : Prop where
  epoch : engine.currentEpoch = engine'.currentEpoch
  token : engine.currentFencingToken = engine'.currentFencingToken
  sequence : engine.sequence = engine'.sequence
  leases : ∀ resourceId, engine.activeLeases.get? resourceId = engine'.activeLeases.get? resourceId

theorem Agree.refl (engine : MultiNodeConsensusEngine) : engine.Agree engine := ⟨rfl, rfl, rfl, fun _ => rfl⟩

theorem Agree.symm (h : engine.Agree engine') : engine'.Agree engine :=
  ⟨h.epoch.symm, h.token.symm, h.sequence.symm, fun resourceId => (h.leases resourceId).symm⟩

theorem Agree.trans (h : engine.Agree engine') (h' : engine'.Agree best) : engine.Agree best :=
  ⟨h.epoch.trans h'.epoch, h.token.trans h'.token, h.sequence.trans h'.sequence,
    fun resourceId => (h.leases resourceId).trans (h'.leases resourceId)⟩

theorem mem_values_iff (table : LeaseTable) (lease : AuthorityLease) :
    lease ∈ table.leases.values ↔ table.Holds lease := by
  rw [Dict.mem_values]
  constructor
  · rintro ⟨resourceId, h⟩
    exact LeaseTable.holds_of_get? h
  · exact fun h => ⟨lease.resourceId, h⟩

/-- Each resource has one lease in a table. Kind: L -/
theorem resourceId_values (table : LeaseTable) :
    table.leases.values.map AuthorityLease.resourceId = table.leases.keys := by
  unfold Dict.values Dict.keys
  rw [List.map_map]
  apply List.map_congr_left
  rintro ⟨resourceId, lease⟩ hmem
  exact table.keyed resourceId lease (Dict.mem_entries.mp hmem)

theorem nodup_authorities (engine : MultiNodeConsensusEngine) (membership : List String) :
    ((engine.getSnapshot membership).authorities.map AuthorityLease.resourceId).Nodup := by
  have hperm := (sortBy_perm (fun lease : AuthorityLease => toLex (lease.resourceId, lease.nodeId))
    engine.activeLeases.leases.values).map AuthorityLease.resourceId
  rw [resourceId_values] at hperm
  exact hperm.nodup_iff.mpr engine.activeLeases.leases.nodup_keys

theorem mem_authorities (engine : MultiNodeConsensusEngine) (membership : List String) (lease : AuthorityLease) :
    lease ∈ (engine.getSnapshot membership).authorities ↔ engine.activeLeases.Holds lease :=
  (sortBy_perm _ _).mem_iff.trans (mem_values_iff engine.activeLeases lease)

/-- The lease for a resource in a snapshot is that of the engine. Kind: L -/
theorem find?_authorities (engine : MultiNodeConsensusEngine) (membership : List String) (resourceId : String) :
    (engine.getSnapshot membership).authorities.find? (fun lease => lease.resourceId = resourceId) =
      engine.activeLeases.get? resourceId := by
  apply Option.ext
  intro lease
  constructor
  · grind [mem_authorities, LeaseTable.Holds]
  · intro hlease
    have hmem := (mem_authorities engine membership lease).mpr (LeaseTable.holds_of_get? hlease)
    have hresource := LeaseTable.resourceId_of_get? hlease
    rcases hfind : (engine.getSnapshot membership).authorities.find? (fun lease => lease.resourceId = resourceId) with
      _ | found
    · simp_all
    · grind [mem_authorities, LeaseTable.Holds]

/-- Engines that agree have the same snapshots. Kind: P -/
theorem Agree.getSnapshot_eq (h : engine.Agree engine') (membership : List String) :
    engine.getSnapshot membership = engine'.getSnapshot membership := by
  have hnodup : ∀ table : LeaseTable, table.leases.values.Nodup := fun table =>
    List.Nodup.of_map AuthorityLease.resourceId (resourceId_values table ▸ table.leases.nodup_keys)
  have hperm : engine.activeLeases.leases.values.Perm engine'.activeLeases.leases.values := by
    refine (List.perm_ext_iff_of_nodup (hnodup _) (hnodup _)).mpr fun lease => ?_
    rw [mem_values_iff, mem_values_iff, LeaseTable.Holds, h.leases]
    exact Iff.rfl
  have hkeys := nodup_authorities engine membership
  have hincreasing : (engine.getSnapshot membership).authorities.Pairwise fun a b =>
      toLex (a.resourceId, a.nodeId) < toLex (b.resourceId, b.nodeId) := by
    refine ((pairwise_sortBy (fun lease : AuthorityLease => toLex (lease.resourceId, lease.nodeId)) _).and
      (List.pairwise_map.mp hkeys)).imp ?_
    rintro a b ⟨hle, hne⟩
    refine lt_of_le_of_ne hle fun heq => hne ?_
    exact congrArg (fun pair : String ×ₗ String => (ofLex pair).1) heq
  have hsorted : sortLeases engine.activeLeases.leases.values = sortLeases engine'.activeLeases.leases.values :=
    eq_of_perm_of_increasing hincreasing (pairwise_sortBy _ _)
      ((sortBy_perm _ _).trans (hperm.trans (sortBy_perm _ _).symm))
  unfold getSnapshot
  rw [h.epoch, h.token, h.sequence, hsorted]

/-- The state of another engine is not ahead of this one. Kind: D -/
structure Dominates (best engine : MultiNodeConsensusEngine) : Prop where
  token : engine.currentFencingToken ≤ best.currentFencingToken
  sequence : engine.sequence ≤ best.sequence
  leases : ∀ resourceId lease, engine.activeLeases.get? resourceId = some lease →
    ∃ held, best.activeLeases.get? resourceId = some held ∧ (lease.generation < held.generation ∨ lease = held)

/-- The counters in the order of their weight. Kind: D -/
def rank (engine : MultiNodeConsensusEngine) : ℤ ×ₗ ℤ ×ₗ ℤ :=
  toLex (engine.currentEpoch, toLex (engine.currentFencingToken, engine.sequence))

theorem epoch_le_of_rank_le (h : engine.rank ≤ best.rank) : engine.currentEpoch ≤ best.currentEpoch := by
  rcases Prod.Lex.toLex_le_toLex.mp h with hlt | ⟨heq, _⟩
  · exact le_of_lt hlt
  · exact le_of_eq heq

theorem counters_eq_of_rank_eq (h : engine.rank = best.rank) : engine.currentEpoch = best.currentEpoch ∧
    engine.currentFencingToken = best.currentFencingToken ∧ engine.sequence = best.sequence := by
  have hpair := Prod.mk.inj (toLex.injective h)
  have hrest := Prod.mk.inj (toLex.injective hpair.2)
  exact ⟨hpair.1, hrest.1, hrest.2⟩

/-- The table after the snapshot of another engine. Kind: L -/
theorem get?_healedBy (engine best : MultiNodeConsensusEngine) (membership : List String) (resourceId : String) :
    (engine.healedBy (best.getSnapshot membership)).activeLeases.get? resourceId =
      ((best.activeLeases.get? resourceId).filter fun lease => engine.activeLeases.Outdated lease).or
        (engine.activeLeases.get? resourceId) := by
  have htable : (engine.healedBy (best.getSnapshot membership)).activeLeases.get? resourceId =
      (engine.activeLeases.taken (best.getSnapshot membership).authorities resourceId).or
        (engine.activeLeases.get? resourceId) :=
    get?_foldl_mergeLease resourceId _ (nodup_authorities best membership)
  unfold LeaseTable.taken at htable
  rw [find?_authorities] at htable
  exact htable

theorem filter_outdated {table : LeaseTable} {lease : AuthorityLease} (h : table.Outdated lease) :
    (some lease).filter (fun l => table.Outdated l) = some lease := by
  rw [Option.filter_some, if_pos (decide_eq_true h)]

/-- An engine that another one dominates takes over its state. Kind: P -/
theorem agree_healedBy (h : best.Dominates engine) (hrank : engine.rank ≤ best.rank) (membership : List String) :
    (engine.healedBy (best.getSnapshot membership)).Agree best where
  epoch := max_eq_right (epoch_le_of_rank_le hrank)
  token := max_eq_right h.token
  sequence := max_eq_right h.sequence
  leases resourceId := by
    rw [get?_healedBy]
    rcases hcurr : engine.activeLeases.get? resourceId with _ | curr
    · rw [Option.or_none]
      rcases hbest : best.activeLeases.get? resourceId with _ | lease
      · rfl
      · have hnew : engine.activeLeases.Outdated lease := by
          intro held hheld
          rw [LeaseTable.resourceId_of_get? hbest, hcurr] at hheld
          cases hheld
        exact filter_outdated hnew
    · obtain ⟨lease, hbest, hlt | rfl⟩ := h.leases resourceId curr hcurr
      · have hnew : engine.activeLeases.Outdated lease := by
          intro held hheld
          rw [LeaseTable.resourceId_of_get? hbest, hcurr] at hheld
          cases hheld
          exact hlt
        rw [hbest, filter_outdated hnew, Option.some_or]
      · grind

theorem foldl_mergeLease_of_holds {table : LeaseTable} : (leases : List AuthorityLease) →
    (∀ lease ∈ leases, table.Holds lease) → leases.foldl mergeLease table = table
  | [], _ => rfl
  | lease :: leases, h => by
    have hold : ¬table.Outdated lease := fun hnew => lt_irrefl _ (hnew lease (h lease List.mem_cons_self))
    rw [List.foldl_cons, mergeLease_eq, if_neg hold]
    exact foldl_mergeLease_of_holds leases fun l hl => h l (List.mem_cons_of_mem _ hl)

/-- The snapshot of an engine with the same state changes nothing. Kind: P -/
theorem healedBy_of_agree (h : engine.Agree engine') (membership : List String) :
    engine.healedBy (engine'.getSnapshot membership) = engine := by
  have htable : (engine'.getSnapshot membership).authorities.foldl mergeLease engine.activeLeases =
      engine.activeLeases := by
    refine foldl_mergeLease_of_holds _ fun lease hmem => ?_
    rw [LeaseTable.Holds, h.leases]
    exact (mem_authorities engine' membership lease).mp hmem
  unfold healedBy
  rw [htable]
  show ({ engine with
    currentEpoch := max engine.currentEpoch engine'.currentEpoch
    currentFencingToken := max engine.currentFencingToken engine'.currentFencingToken
    sequence := max engine.sequence engine'.sequence } : MultiNodeConsensusEngine) = engine
  rw [← h.epoch, ← h.token, ← h.sequence, max_self, max_self, max_self]

/-! ## Reconciling all engines -/

/-- The snapshots of all engines in some order. Kind: D -/
def SnapshotsOf (engines : List MultiNodeConsensusEngine) (snapshots : List ConsensusSnapshot) : Prop :=
  ∃ inOrder, List.Forall₂ (fun engine snapshot => ∃ membership, snapshot = getSnapshot engine membership) engines
    inOrder ∧ snapshots.Perm inOrder

/-- Each engine has reconciled with the snapshots of all, in an order of its own. Kind: D -/
def Healed (engines healed : List MultiNodeConsensusEngine) : Prop :=
  List.Forall₂ (fun engine after => ∃ snapshots, SnapshotsOf engines snapshots ∧
    after = (reconcilePartitionHealing engine snapshots).1) engines healed

/-- The newest lease for a resource, over all engines, is the one that is kept. Kind: D -/
def KeepsNewest (engines : List MultiNodeConsensusEngine) (after : MultiNodeConsensusEngine) (resourceId : String) :
    Prop :=
  (∀ engine ∈ engines, ∀ lease, engine.activeLeases.get? resourceId = some lease →
    ∃ kept, after.activeLeases.get? resourceId = some kept ∧ lease.generation ≤ kept.generation) ∧
  ∀ kept, after.activeLeases.get? resourceId = some kept →
    ∃ engine ∈ engines, engine.activeLeases.get? resourceId = some kept

/-- After reconciling, the engines have one state and one digest, the newest leases, and nothing left to reconcile.
Kind: D -/
structure ConvergesTo (engines healed : List MultiNodeConsensusEngine) : Prop where
  agree : ∀ after ∈ healed, ∀ after' ∈ healed, after.Agree after'
  digest : ∀ after ∈ healed, ∀ after' ∈ healed, ∀ sha256 membership,
    (after.getSnapshot membership).canonicalDigest sha256 = (after'.getSnapshot membership).canonicalDigest sha256
  newest : ∀ after ∈ healed, ∀ resourceId, KeepsNewest engines after resourceId
  stable : ∀ after ∈ healed, ∀ snapshots, SnapshotsOf healed snapshots →
    (after.reconcilePartitionHealing snapshots).1 = after

/-- Kind: D -/
def Converges (engines : List MultiNodeConsensusEngine) : Prop := ∀ healed, Healed engines healed → ConvergesTo engines healed

variable {engines healed : List MultiNodeConsensusEngine} {snapshots : List ConsensusSnapshot}

theorem SnapshotsOf.exists_engine (h : SnapshotsOf engines snapshots) {snapshot : ConsensusSnapshot}
    (hmem : snapshot ∈ snapshots) : ∃ engine ∈ engines, ∃ membership, snapshot = engine.getSnapshot membership := by
  obtain ⟨inOrder, hall, hperm⟩ := h
  obtain ⟨hlength, hget⟩ := List.forall₂_iff_get.mp hall
  obtain ⟨n, hn, rfl⟩ := List.mem_iff_getElem.mp (hperm.mem_iff.mp hmem)
  exact ⟨engines[n], List.getElem_mem _, hget n (hlength ▸ hn) hn⟩

theorem SnapshotsOf.exists_snapshot (h : SnapshotsOf engines snapshots) (hmem : engine ∈ engines) :
    ∃ membership, engine.getSnapshot membership ∈ snapshots := by
  obtain ⟨inOrder, hall, hperm⟩ := h
  obtain ⟨hlength, hget⟩ := List.forall₂_iff_get.mp hall
  obtain ⟨n, hn, rfl⟩ := List.mem_iff_getElem.mp hmem
  obtain ⟨membership, heq⟩ := hget n hn (hlength ▸ hn)
  exact ⟨membership, hperm.mem_iff.mpr (heq ▸ List.getElem_mem _)⟩

/-- The best of the snapshots is one of an engine with the greatest counters. Kind: L -/
theorem SnapshotsOf.exists_best (h : SnapshotsOf engines snapshots) (hne : engines ≠ []) :
    ∃ best ∈ engines, ∃ membership, bestSnapshot snapshots = some (best.getSnapshot membership) ∧
      ∀ engine ∈ engines, engine.rank ≤ best.rank := by
  obtain ⟨first, hfirst⟩ := List.exists_mem_of_ne_nil engines hne
  obtain ⟨_, hsome⟩ := h.exists_snapshot hfirst
  rcases hbest : bestSnapshot snapshots with _ | snapshot
  · rw [List.argmax_eq_none.mp hbest] at hsome
    cases hsome
  · obtain ⟨best, hmem, membership, rfl⟩ := h.exists_engine (List.argmax_mem hbest)
    refine ⟨best, hmem, membership, rfl, fun engine hengine => ?_⟩
    obtain ⟨membership', hsnapshot⟩ := h.exists_snapshot hengine
    have hle : (engine.getSnapshot membership').rank ≤ (best.getSnapshot membership).rank :=
      List.le_of_mem_argmax hsnapshot hbest
    exact hle

theorem reconcilePartitionHealing_of_best {snapshot : ConsensusSnapshot} (h : bestSnapshot snapshots = some snapshot) :
    (engine.reconcilePartitionHealing snapshots).1 = engine.healedBy snapshot := by
  unfold reconcilePartitionHealing
  rw [h]

/-- Where the engines with the greatest counters dominate, all engines come to the state of such a one. Kind: L -/
theorem agree_of_healed
    (h : ∀ best ∈ engines, (∀ engine ∈ engines, engine.rank ≤ best.rank) → ∀ engine ∈ engines, best.Dominates engine)
    (hhealed : Healed engines healed) {after : MultiNodeConsensusEngine} (hafter : after ∈ healed) :
    ∃ best ∈ engines, (∀ engine ∈ engines, engine.rank ≤ best.rank) ∧ after.Agree best := by
  obtain ⟨hlength, hget⟩ := List.forall₂_iff_get.mp hhealed
  obtain ⟨n, hn, rfl⟩ := List.mem_iff_getElem.mp hafter
  obtain ⟨snapshots, hsnapshots, heq⟩ := hget n (hlength ▸ hn) hn
  have hengine : engines[n] ∈ engines := List.getElem_mem _
  obtain ⟨best, hbest, membership, hsome, htop⟩ := hsnapshots.exists_best (List.ne_nil_of_mem hengine)
  refine ⟨best, hbest, htop, ?_⟩
  have hagree := agree_healedBy (h best hbest htop _ hengine) (htop _ hengine) membership
  rw [← reconcilePartitionHealing_of_best hsome] at hagree
  rw [show healed[n] = _ from heq]
  exact hagree

/-- Two engines with the greatest counters that dominate each other agree. Kind: L -/
theorem Dominates.agree (h : best.Dominates engine) (h' : engine.Dominates best) (hrank : engine.rank = best.rank) :
    engine.Agree best := by
  obtain ⟨hepoch, htoken, hsequence⟩ := counters_eq_of_rank_eq hrank
  refine ⟨hepoch, htoken, hsequence, fun resourceId => ?_⟩
  rcases hlease : engine.activeLeases.get? resourceId with _ | lease
  · rcases hheld : best.activeLeases.get? resourceId with _ | held
    · rfl
    · obtain ⟨lease, hsome, _⟩ := h'.leases resourceId held hheld
      cases hlease.symm.trans hsome
  · obtain ⟨held, hheld, hlt | rfl⟩ := h.leases resourceId lease hlease
    · obtain ⟨lease', hsome, hlt' | rfl⟩ := h'.leases resourceId held hheld
      · simp_all [lt_asymm]
      · exact (hlease.symm.trans hsome).trans hheld.symm
    · exact hheld.symm

theorem Agree.keepsNewest (h : engine.Agree best) (hmem : best ∈ engines)
    (hbest : ∀ engine ∈ engines, best.Dominates engine) (resourceId : String) :
    KeepsNewest engines engine resourceId := by
  constructor
  · intro other hother lease hlease
    obtain ⟨kept, hkept, hlt | rfl⟩ := (hbest other hother).leases resourceId lease hlease
    · exact ⟨kept, (h.leases resourceId).trans hkept, le_of_lt hlt⟩
    · exact ⟨lease, (h.leases resourceId).trans hkept, le_refl _⟩
  · exact fun kept hkept => ⟨best, hmem, (h.leases resourceId).symm.trans hkept⟩

/-- Engines that agree have nothing to reconcile. Kind: L -/
theorem reconcilePartitionHealing_of_agree (h : ∀ other ∈ engines, engine.Agree other)
    (hsnapshots : SnapshotsOf engines snapshots) : (engine.reconcilePartitionHealing snapshots).1 = engine := by
  rcases reconcilePartitionHealing_cases engine snapshots with heq | ⟨snapshot, hsome, heq⟩
  · exact heq
  · obtain ⟨other, hother, membership, rfl⟩ := hsnapshots.exists_engine (List.argmax_mem hsome)
    rw [heq]
    exact healedBy_of_agree (h other hother) membership

/-- Domination by the engines with the greatest counters is enough. Kind: P -/
theorem converges_of_dominates
    (h : ∀ best ∈ engines, (∀ engine ∈ engines, engine.rank ≤ best.rank) → ∀ engine ∈ engines, best.Dominates engine) :
    Converges engines := by
  intro healed hhealed
  have hagree : ∀ after ∈ healed, ∀ after' ∈ healed, after.Agree after' := by
    intro after hafter after' hafter'
    obtain ⟨best, hbest, htop, hstate⟩ := agree_of_healed h hhealed hafter
    obtain ⟨best', hbest', htop', hstate'⟩ := agree_of_healed h hhealed hafter'
    have hrank : best.rank = best'.rank := le_antisymm (htop' best hbest) (htop best' hbest')
    have hsame := (h best' hbest' htop' best hbest).agree (h best hbest htop best' hbest') hrank
    exact (hstate.trans hsame).trans hstate'.symm
  constructor
  · exact hagree
  · intro after hafter after' hafter' sha256 membership
    rw [(hagree after hafter after' hafter').getSnapshot_eq]
  · intro after hafter resourceId
    obtain ⟨best, hbest, htop, hstate⟩ := agree_of_healed h hhealed hafter
    exact hstate.keepsNewest hbest (h best hbest htop) resourceId
  · grind [reconcilePartitionHealing_of_agree]

/-- The snapshots with that of one engine first. Kind: L -/
theorem exists_snapshots_from (hmem : best ∈ engines) :
    ∃ rest, SnapshotsOf engines (best.getSnapshot [] :: rest) ∧ ∀ snapshot ∈ rest, ∃ engine ∈ engines,
      snapshot = engine.getSnapshot [] := by
  obtain ⟨before, after, rfl⟩ := List.append_of_mem hmem
  refine ⟨(before ++ after).map fun engine => engine.getSnapshot [],
    ⟨(before ++ best :: after).map fun engine => engine.getSnapshot [], ?_, ?_⟩, ?_⟩
  · grind [List.forall₂_map_right_iff, List.forall₂_same]
  · grind
  · grind

/-- A snapshot that none exceeds is the best one when it stands first. Kind: L -/
theorem bestSnapshot_cons {first : ConsensusSnapshot} {rest : List ConsensusSnapshot}
    (h : ∀ snapshot ∈ rest, snapshot.rank ≤ first.rank) : bestSnapshot (first :: rest) = some first := by
  unfold bestSnapshot
  rw [List.argmax_cons]
  rcases hrest : rest.argmax ConsensusSnapshot.rank with _ | other
  · rfl
  · exact if_neg (not_lt.mpr (h other (List.argmax_mem hrest)))

/-- An engine that comes to the state of another one was dominated by it. Kind: L -/
theorem dominates_of_agree (h : (engine.healedBy (best.getSnapshot [])).Agree best) : best.Dominates engine where
  token := h.token ▸ le_max_left _ _
  sequence := h.sequence ▸ le_max_left _ _
  leases resourceId lease hlease := by
    have hsame := h.leases resourceId
    rw [get?_healedBy, hlease] at hsame
    rcases hbest : best.activeLeases.get? resourceId with _ | held
    · rw [hbest] at hsame
      cases hsame
    · refine ⟨held, rfl, ?_⟩
      by_cases hnew : engine.activeLeases.Outdated held
      · left
        apply hnew
        rw [LeaseTable.resourceId_of_get? hbest]
        exact hlease
      · grind

/-- Reconciling brings all engines to one state, keeps the newest leases and leaves nothing to reconcile, in every order
of the snapshots, exactly when each engine with the greatest counters dominates all engines: no engine has a greater
token or sequence number, and each lease of an engine is older than that one's lease for the resource or equal to
it. Kind: P -/
theorem converges_iff (engines : List MultiNodeConsensusEngine) : Converges engines ↔
    ∀ best ∈ engines, (∀ engine ∈ engines, engine.rank ≤ best.rank) → ∀ engine ∈ engines, best.Dominates engine := by
  refine ⟨fun h best hbest htop engine hengine => ?_, converges_of_dominates⟩
  obtain ⟨rest, hsnapshots, hrest⟩ := exists_snapshots_from hbest
  have hsome : bestSnapshot (best.getSnapshot [] :: rest) = some (best.getSnapshot []) := by
    apply bestSnapshot_cons
    intro snapshot hsnapshot
    obtain ⟨other, hother, rfl⟩ := hrest snapshot hsnapshot
    exact htop other hother
  have hhealed : Healed engines (engines.map fun other => other.healedBy (best.getSnapshot [])) := by
    refine List.forall₂_map_right_iff.mpr (List.forall₂_same.mpr fun other _ => ⟨_, hsnapshots, ?_⟩)
    exact (reconcilePartitionHealing_of_best hsome).symm
  have hagree := (h _ hhealed).agree _ (List.mem_map_of_mem hengine) _ (List.mem_map_of_mem hbest)
  rw [healedBy_of_agree (Agree.refl best)] at hagree
  exact dominates_of_agree hagree

/-- A state that calls bring an engine to. Kind: D -/
def Reachable (engine : MultiNodeConsensusEngine) : Prop :=
  ∃ nodeId domain epoch token, ∃ calls : List ConsensusCall,
    engine = calls.foldl call (initial nodeId domain epoch token)

/-- The lease of an engine with lower counters is lost to the others. Kind: P -/
theorem lease_lost : ¬ ∀ engines, (∀ engine ∈ engines, Reachable engine) → Converges engines := by
  intro h
  let engine₁ := [unanimous "db" "node_a" 1 2].foldl call (initial "consensus_node_1" "default_domain" 1 1)
  let engine₂ := [unanimous "queue" "node_b" 1 2, unanimous "queue" "node_b" 1 3].foldl call
    (initial "consensus_node_2" "default_domain" 1 1)
  let snapshots := [engine₁.getSnapshot [], engine₂.getSnapshot []]
  have hreachable : ∀ engine ∈ [engine₁, engine₂], Reachable engine := by
    intro engine hengine
    rcases List.mem_cons.mp hengine with rfl | hengine
    · exact ⟨_, _, _, _, _, rfl⟩
    · rw [List.mem_singleton.mp hengine]
      exact ⟨_, _, _, _, _, rfl⟩
  have hsnapshots : SnapshotsOf [engine₁, engine₂] snapshots :=
    ⟨snapshots, .cons ⟨[], rfl⟩ (.cons ⟨[], rfl⟩ .nil), List.Perm.refl _⟩
  have hhealed : Healed [engine₁, engine₂] [(engine₁.reconcilePartitionHealing snapshots).1,
      (engine₂.reconcilePartitionHealing snapshots).1] :=
    .cons ⟨snapshots, hsnapshots, rfl⟩ (.cons ⟨snapshots, hsnapshots, rfl⟩ .nil)
  have hagree := (h _ hreachable _ hhealed).agree _ List.mem_cons_self _ (List.mem_cons_of_mem _ List.mem_cons_self)
  exact absurd (hagree.leases "db") (by decide)

end MultiNodeConsensusEngine

end KarsaSec.Distributed
