import KarsaSec.Events.ChainOrder
import KarsaSec.Recovery.CanonicalText

/-!
# What the hashes of a snapshot bind

`SnapshotManager.verify_snapshot` on the document that a checkpoint holds. The hash of the tasks and the root hash over it and two
heads are computed anew; the other fields are only asked to be there.

* `SnapshotDocument` is a document with finite numbers and no key twice, `verifyDocument` the check.
* `same_tasks`: accepted documents with one root hash have the same tasks. `verifyDocument_alter`: any other field that a restoration
  reads can be changed, and the check answers as before.
* `restoresSame_iff`: two accepted documents with one root hash restore the same exactly when they agree in these other fields.
-/

namespace KarsaSec.Recovery

open KarsaSec.Found KarsaSec.Events TaskAuditLedger

variable {F : Type} {fl : Floats F}

/-- A snapshot as a document. Source: `snapshot.py`, `snapshot_data`. Kind: D -/
structure SnapshotDocument (fl : Floats F) where
  members : List (String × Json F)
  plain : Json.Plain fl (.obj members)

namespace SnapshotDocument

/-- `snapshot_data[key]`, where the key is there. Kind: D -/
def field (d : SnapshotDocument fl) (key : String) : Json F := Json.getD key d.members .null

/-- Source: `snapshot.py`, `required_keys`. Kind: D -/
def requiredKeys : List String :=
  ["snapshot_generation", "snapshot_version", "schema_version", "root_hash", "snapshot_hash", "audit_head_hash",
    "outbox_head_hash", "max_lease_version", "max_outbox_sequence", "audit_chain_head", "tasks"]

/-- Source: `snapshot.py`, `root_input`. Kind: D -/
def rootInput (w : Wording F) (d : SnapshotDocument fl) : String :=
  w.text (d.field "snapshot_hash") ++ ":" ++ w.text (d.field "audit_head_hash") ++ ":" ++ w.text (d.field "outbox_head_hash")

/-- Source: `snapshot.py`, `verify_snapshot`. Kind: D -/
def verifyDocument (sha256 : String → String) (w : Wording F) (d : SnapshotDocument fl) : Except RecoveryError Unit :=
  if !requiredKeys.all fun key => key ∈ d.members.map Prod.fst then
    .error (.snapshotIntegrity "Snapshot is missing required fields.")
  else if !(d.field "snapshot_hash").isText (sha256 (canonicalText fl (d.field "tasks"))) then
    .error (.snapshotIntegrity "Snapshot tasks data payload hash mismatch.")
  else if !(d.field "root_hash").isText (sha256 (d.rootInput w)) then
    .error (.snapshotIntegrity "Merkle-lite composite root hash verification failed.")
  else .ok ()

/-! ## What is expected -/

/-- The fields that a restoration acts on and no hash is computed from.
Source: `snapshot.py`, `load_snapshot`; `replay.py`, `replay_events`; `checkpoint.py`, `save_checkpoint`. Kind: D -/
def unhashedFields : List String :=
  ["snapshot_generation", "audit_chain_head", "max_lease_version", "max_outbox_sequence", "schema_version"]

/-- Two documents agree in all fields that a restoration acts on. Kind: D -/
def RestoresSame (d d' : SnapshotDocument fl) : Prop :=
  ∀ key ∈ "tasks" :: unhashedFields, (d.field key).Same (d'.field key)

/-! ## What the check notices -/

section checks

variable {sha256 : String → String} {w : Wording F} {d d' : SnapshotDocument fl}

theorem verifyDocument_ok (h : d.verifyDocument sha256 w = .ok ()) :
    d.field "snapshot_hash" = .str (sha256 (canonicalText fl (d.field "tasks"))) ∧
      d.field "root_hash" = .str (sha256 (d.rootInput w)) := by
  unfold verifyDocument at h
  split_ifs at h with hkeys htasks hroot
  rw [Bool.not_eq_true, Bool.not_eq_false', Json.isText_iff] at htasks hroot
  exact ⟨htasks, hroot⟩

/-- What is found in a document is plain. Kind: L -/
theorem plain_field (d : SnapshotDocument fl) (key : String) : Json.Plain fl (d.field key) := by
  unfold field Json.getD
  cases hfound : Dict.lookup key d.members with
  | none => trivial
  | some v => exact Json.forallMembers_iff.mp d.plain.2 (key, v) (Dict.mem_of_lookup hfound)

/-- The text that is hashed for the root begins with the hash of the tasks. Kind: L -/
theorem rootInput_eq (h : d.verifyDocument sha256 w = .ok ()) : (d.rootInput w).toList =
    (sha256 (canonicalText fl (d.field "tasks"))).toList ++
      ':' :: (w.text (d.field "audit_head_hash") ++ ":" ++ w.text (d.field "outbox_head_hash")).toList := by
  rw [rootInput, (verifyDocument_ok h).1, w.text_str]
  simp only [String.toList_append, List.append_assoc]
  rfl

/-- Accepted documents with one root hash have the same tasks. Kind: P -/
theorem same_tasks (hsha : CollisionFree sha256) (h : d.verifyDocument sha256 w = .ok ())
    (h' : d'.verifyDocument sha256 w = .ok ()) (hroot : d.field "root_hash" = d'.field "root_hash") :
    (d.field "tasks").Same (d'.field "tasks") := by
  rw [(verifyDocument_ok h).2, (verifyDocument_ok h').2] at hroot
  have hinput : d.rootInput w = d'.rootInput w := hsha.injective (Json.str.inj hroot)
  have hlists := rootInput_eq h
  rw [hinput, rootInput_eq h'] at hlists
  have hdigest := (append_sep_inj (hsha.plain _) (hsha.plain _) hlists).1
  have htext := hsha.injective (String.toList_injective hdigest)
  exact canonicalText_inj (d.plain_field _) (d'.plain_field _) htext.symm

/-- A document with another value in one of its fields. Kind: D -/
def alter (d : SnapshotDocument fl) (key : String) (v : Json F) (hv : Json.Plain fl v) : SnapshotDocument fl where
  members := d.members.map fun m => if m.1 = key then (m.1, v) else m
  plain := by
    have hkeys : (d.members.map fun m => if m.1 = key then (m.1, v) else m).map Prod.fst = d.members.map Prod.fst := by
      rw [List.map_map]
      refine List.map_congr_left fun m _ => ?_
      rw [Function.comp_apply]
      split_ifs <;> rfl
    refine ⟨hkeys ▸ d.plain.1, Json.forallMembers_iff.mpr fun m hm => ?_⟩
    obtain ⟨m', hm', rfl⟩ := List.mem_map.mp hm
    split_ifs
    · exact hv
    · exact Json.forallMembers_iff.mp d.plain.2 m' hm'

section alter

variable {key other : String} {v : Json F} {hv : Json.Plain fl v}

theorem keys_alter : (d.alter key v hv).members.map Prod.fst = d.members.map Prod.fst := by
  unfold alter
  rw [List.map_map]
  refine List.map_congr_left fun m _ => ?_
  rw [Function.comp_apply]
  split_ifs <;> rfl

theorem field_alter_ne (hne : other ≠ key) : (d.alter key v hv).field other = d.field other := by
  have hlookup : ∀ members : List (String × Json F),
      Dict.lookup other (members.map fun m => if m.1 = key then (m.1, v) else m) = Dict.lookup other members := by
    intro members
    induction members with
    | nil => rfl
    | cons m rest ih =>
      rw [List.map_cons]
      by_cases hm : m.1 = key
      · rw [if_pos hm, Dict.lookup, Dict.lookup, ih, if_neg (hm ▸ hne.symm), if_neg (hm ▸ hne.symm)]
      · rw [if_neg hm, Dict.lookup, Dict.lookup, ih]
  unfold field Json.getD
  rw [show (d.alter key v hv).members = d.members.map fun m => if m.1 = key then (m.1, v) else m from rfl, hlookup]

/-- The check does not notice another value in a field that is not hashed. Source: `snapshot.py`, `verify_snapshot`. Kind: P -/
theorem verifyDocument_alter (hkey : key ∈ unhashedFields) :
    (d.alter key v hv).verifyDocument sha256 w = d.verifyDocument sha256 w ∧
      (d.alter key v hv).field "root_hash" = d.field "root_hash" := by
  have hother : ∀ read ∈ ["tasks", "snapshot_hash", "audit_head_hash", "outbox_head_hash", "root_hash"],
      (d.alter key v hv).field read = d.field read := by
    refine fun read hread => field_alter_ne fun heq => ?_
    have hdisjoint : ∀ read ∈ ["tasks", "snapshot_hash", "audit_head_hash", "outbox_head_hash", "root_hash"],
        read ∉ unhashedFields := by decide
    exact hdisjoint read hread (heq ▸ hkey)
  have htasks := hother "tasks" (by decide)
  have hhash := hother "snapshot_hash" (by decide)
  have hroot := hother "root_hash" (by decide)
  have hinput : (d.alter key v hv).rootInput w = d.rootInput w := by simp_all [rootInput]
  refine ⟨?_, hroot⟩
  unfold verifyDocument
  rw [keys_alter, htasks, hhash, hroot, hinput]

end alter

/-- **Two accepted documents with one root hash restore the same exactly when they agree in the fields that are not hashed.**
Source: `snapshot.py`, `SnapshotManager.verify_snapshot`. Kind: T -/
theorem restoresSame_iff (hsha : CollisionFree sha256) (h : d.verifyDocument sha256 w = .ok ())
    (h' : d'.verifyDocument sha256 w = .ok ()) (hroot : d.field "root_hash" = d'.field "root_hash") :
    RestoresSame d d' ↔ ∀ key ∈ unhashedFields, (d.field key).Same (d'.field key) := by
  rw [RestoresSame, List.forall_mem_cons]
  exact and_iff_right (same_tasks hsha h h' hroot)

end checks

/-! ## Documents of snapshots -/

/-- What the language writes for a text. Kind: D -/
def textWording : Wording Unit where
  text
    | .str s => s
    | _ => "?"
  text_str _ := rfl
  isZero _ := false
  lower := lower

theorem plain_task (t : SnapshotTask) : Json.Plain noFloats t.toJson := by
  have hnull : ∀ {α : Type} (wrap : α → Json Unit) (v : Option α), (∀ a, Json.Plain noFloats (wrap a)) →
      Json.Plain noFloats (orNull wrap v) := by
    intro α wrap v hwrap
    cases v with
    | none => trivial
    | some a => exact hwrap a
  have hkeys : ["task_id", "finding_id", "approval_token_id", "fingerprint", "state", "attempts", "max_attempts",
      "assigned_worker_id", "assigned_worker_fencing_token", "recovery_fencing_token", "lease_seconds", "lease_version",
      "error_message"].Nodup := by decide
  exact ⟨hkeys, trivial, trivial, trivial, trivial, trivial, trivial, trivial,
    hnull _ _ fun _ => trivial, hnull _ _ fun _ => trivial, hnull _ _ fun _ => trivial, trivial, trivial,
    hnull _ _ fun _ => trivial, trivial⟩

/-- The document of a snapshot. Source: `snapshot.py`, `create_snapshot`. Kind: D -/
def ofSnapshot (s : Snapshot) (maxLeaseVersion maxOutboxSequence : ℤ) : SnapshotDocument noFloats where
  members :=
    [("snapshot_generation", .int s.snapshotGeneration), ("snapshot_version", .int 1), ("schema_version", .int s.schemaVersion),
      ("root_hash", .str s.rootHash), ("snapshot_hash", .str s.snapshotHash), ("audit_head_hash", .str s.auditHeadHash),
      ("outbox_head_hash", .str s.outboxHeadHash), ("max_lease_version", .int maxLeaseVersion),
      ("max_outbox_sequence", .int maxOutboxSequence), ("audit_chain_head", .str s.auditChainHead),
      ("tasks", .arr (s.tasks.map SnapshotTask.toJson))]
  plain := by
    refine ⟨?_, trivial, trivial, trivial, trivial, trivial, trivial, trivial, trivial, trivial, trivial, ?_, trivial⟩
    · show requiredKeys.Nodup
      decide
    · refine Json.forallItems_iff.mpr fun v hv => ?_
      obtain ⟨t, _, rfl⟩ := List.mem_map.mp hv
      exact plain_task t

/-- The check of a snapshot is the check of its document. Kind: P -/
theorem verifyDocument_ofSnapshot (sha256 : String → String) (s : Snapshot) (maxLeaseVersion maxOutboxSequence : ℤ) :
    (ofSnapshot s maxLeaseVersion maxOutboxSequence).verifyDocument sha256 textWording =
      SnapshotManager.verifySnapshot sha256 s := by
  have hkeys : requiredKeys.all (fun key => key ∈ (ofSnapshot s maxLeaseVersion maxOutboxSequence).members.map Prod.fst) = true := by
    show requiredKeys.all (fun key => key ∈ requiredKeys) = true
    decide
  have htasks : ((ofSnapshot s maxLeaseVersion maxOutboxSequence).field "snapshot_hash").isText
      (sha256 (canonicalText noFloats ((ofSnapshot s maxLeaseVersion maxOutboxSequence).field "tasks"))) =
        decide (s.snapshotHash = sha256 (SnapshotManager.tasksJson s.tasks)) := rfl
  have hroot : ((ofSnapshot s maxLeaseVersion maxOutboxSequence).field "root_hash").isText
      (sha256 ((ofSnapshot s maxLeaseVersion maxOutboxSequence).rootInput textWording)) =
        decide (s.rootHash = sha256 s!"{s.snapshotHash}:{s.auditHeadHash}:{s.outboxHeadHash}") := by
    have hinput : (ofSnapshot s maxLeaseVersion maxOutboxSequence).rootInput textWording =
        s!"{s.snapshotHash}:{s.auditHeadHash}:{s.outboxHeadHash}" := rfl
    rw [hinput]
    rfl
  unfold verifyDocument SnapshotManager.verifySnapshot
  rw [hkeys, htasks, hroot]
  simp only [Bool.not_true, Bool.false_eq_true, if_false, Bool.not_eq_true', decide_eq_false_iff_not, ne_eq,
    eq_comm (a := s.snapshotHash), eq_comm (a := s.rootHash)]

/-! ## A generation that is lowered -/

/-- A snapshot without tasks, of generation two. Source: `snapshot.py`, `create_snapshot`. Kind: D -/
def secondGeneration : SnapshotDocument noFloats where
  members :=
    [("snapshot_generation", .int 2), ("snapshot_version", .int 1), ("schema_version", .int 1),
      ("root_hash", .str (digest (digest "[]" ++ ":GENESIS:GENESIS"))), ("snapshot_hash", .str (digest "[]")),
      ("audit_head_hash", .str "GENESIS"), ("outbox_head_hash", .str "GENESIS"), ("max_lease_version", .int 0),
      ("max_outbox_sequence", .int 0), ("audit_chain_head", .str "GENESIS"), ("tasks", .arr [])]
  plain := ⟨by decide, trivial, trivial, trivial, trivial, trivial, trivial, trivial, trivial, trivial, trivial, trivial, trivial⟩

theorem verifyDocument_secondGeneration : secondGeneration.verifyDocument digest textWording = .ok () := by
  decide +kernel

/-- The same snapshot with the generation before. Kind: D -/
def loweredGeneration : SnapshotDocument noFloats := secondGeneration.alter "snapshot_generation" (.int 1) trivial

/-- Two tasks. Kind: D -/
def twoTasks : Json Unit :=
  .arr [.obj [("task_id", .str "t1"), ("state", .str "PENDING")], .obj [("task_id", .str "t2"), ("state", .str "RUNNING")]]

/-- The tasks with their fields in another order. Kind: D -/
def reorderedTasks : Json Unit :=
  .arr [.obj [("state", .str "PENDING"), ("task_id", .str "t1")], .obj [("state", .str "RUNNING"), ("task_id", .str "t2")]]

/-- A document of the second generation with these tasks. Kind: D -/
def withTasks (tasks : Json Unit) (htasks : Json.Plain noFloats tasks) : SnapshotDocument noFloats where
  members :=
    [("tasks", tasks), ("snapshot_generation", .int 2), ("snapshot_version", .int 1), ("schema_version", .int 1),
      ("root_hash", .str (digest (digest (canonicalText noFloats twoTasks) ++ ":GENESIS:GENESIS"))),
      ("snapshot_hash", .str (digest (canonicalText noFloats twoTasks))), ("audit_head_hash", .str "GENESIS"),
      ("outbox_head_hash", .str "GENESIS"), ("max_lease_version", .int 3), ("max_outbox_sequence", .int 2),
      ("audit_chain_head", .str "GENESIS")]
  plain := by
    refine ⟨?_, htasks, trivial, trivial, trivial, trivial, trivial, trivial, trivial, trivial, trivial, trivial, trivial⟩
    show ("tasks" :: ["snapshot_generation", "snapshot_version", "schema_version", "root_hash", "snapshot_hash",
      "audit_head_hash", "outbox_head_hash", "max_lease_version", "max_outbox_sequence", "audit_chain_head"]).Nodup
    decide

theorem plain_twoTasks : Json.Plain noFloats twoTasks :=
  ⟨⟨by decide, trivial, trivial, trivial⟩, ⟨by decide, trivial, trivial, trivial⟩, trivial⟩

theorem plain_reorderedTasks : Json.Plain noFloats reorderedTasks :=
  ⟨⟨by decide, trivial, trivial, trivial⟩, ⟨by decide, trivial, trivial, trivial⟩, trivial⟩

/-- Two documents that differ in the order of the fields of their tasks restore the same. Kind: P -/
theorem restoresSame_secondGeneration :
    RestoresSame (withTasks twoTasks plain_twoTasks) (withTasks reorderedTasks plain_reorderedTasks) := by
  have hsame : ∀ key ∈ unhashedFields,
      (withTasks twoTasks plain_twoTasks).field key = (withTasks reorderedTasks plain_reorderedTasks).field key := by
    intro key hkey
    simp only [unhashedFields, List.mem_cons, List.not_mem_nil, or_false] at hkey
    rcases hkey with rfl | rfl | rfl | rfl | rfl <;> rfl
  have haccepted : (withTasks twoTasks plain_twoTasks).verifyDocument digest textWording = .ok () := by decide +kernel
  have haccepted' : (withTasks reorderedTasks plain_reorderedTasks).verifyDocument digest textWording = .ok () := by
    decide +kernel
  refine (restoresSame_iff digest_collisionFree haccepted haccepted' rfl).mpr fun key hkey => ?_
  rw [hsame key hkey]
  rfl

/-- Lowering the generation of a snapshot is accepted, under the same root hash. Source: `snapshot.py`, `verify_snapshot`.
Kind: C -/
theorem lowered_generation_accepted : CollisionFree digest ∧
    secondGeneration.verifyDocument digest textWording = .ok () ∧ loweredGeneration.verifyDocument digest textWording = .ok () ∧
    secondGeneration.field "root_hash" = loweredGeneration.field "root_hash" ∧
    ¬RestoresSame secondGeneration loweredGeneration := by
  have haltered : loweredGeneration.verifyDocument digest textWording = secondGeneration.verifyDocument digest textWording ∧
      loweredGeneration.field "root_hash" = secondGeneration.field "root_hash" := verifyDocument_alter (by decide)
  refine ⟨digest_collisionFree, verifyDocument_secondGeneration, haltered.1.trans verifyDocument_secondGeneration,
    haltered.2.symm, fun h => ?_⟩
  have hsame := h "snapshot_generation" (by decide)
  have hfields : secondGeneration.field "snapshot_generation" = .int 2 ∧ loweredGeneration.field "snapshot_generation" = .int 1 :=
    ⟨rfl, rfl⟩
  rw [hfields.1, hfields.2, Json.Same, Json.sortKeys, Json.sortKeys] at hsame
  cases hsame

end SnapshotDocument

end KarsaSec.Recovery
