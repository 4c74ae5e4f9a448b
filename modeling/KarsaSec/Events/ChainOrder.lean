import KarsaSec.Events.AuditLedger
import KarsaSec.Found.HashChain
import KarsaSec.Found.Runs
import KarsaSec.Found.Sorting
import KarsaSec.Found.Text

/-!
# When the chain of a task verifies

The order of the rows of a task is rebuilt from their places, and each row names the hash of the row that was
the latest by place when it was recorded.

* `InOrder`: each row got a later place than the rows before it. `SameText`: two rows have the same hash,
  follow the same hash and have the same text that is hashed.
* `Recording`: the rows that calls record are sealed, and where they are not in order, some row is before
  another one that is less deep in the chain.
* `verified_iff`: the recorded rows verify exactly when they are in order. Rows that were tampered with, their
  hashes left, verify exactly when they are the same text as the first of the recorded rows.
-/

namespace KarsaSec.Events

open KarsaSec.Found KarsaSec.Workers

/-- What is assumed of the hash function: it is free of collisions, and its values are hexadecimal digits,
never empty and never the word that stands for no hash. Kind: D -/
structure CollisionFree (sha256 : String → String) : Prop where
  injective : Function.Injective sha256
  plain : ∀ text, ':' ∉ (sha256 text).toList
  ne_genesis : ∀ text, sha256 text ≠ "GENESIS"
  ne_empty : ∀ text, sha256 text ≠ ""

namespace TaskAuditLedger

/-- A call in a transaction of its own; it is rolled back when the call raises. Kind: D -/
def transact (sha256 : String → String) (rows : List AuditRow) (call : Draws × Transition) : List AuditRow :=
  match recordTransition sha256 call.1 rows call.2 with
  | .ok rows' => rows'
  | .error _ => rows

/-- The rows of a task as they were recorded. Kind: D -/
def recordedOf (rows : List AuditRow) (taskId : String) : List AuditRow :=
  rows.filter fun row => row.taskId = taskId

/-- Each row of the task has a later place than the rows that were recorded before it. Kind: D -/
def InOrder (rows : List AuditRow) (taskId : String) : Prop :=
  (recordedOf rows taskId).Pairwise fun a b => a.place < b.place

instance (rows : List AuditRow) (taskId : String) : Decidable (InOrder rows taskId) :=
  inferInstanceAs (Decidable (List.Pairwise _ _))

/-- The rows have the same hash, follow the same hash and have the same text that is hashed. Kind: D -/
def SameText (row row' : AuditRow) : Prop :=
  row.eventHash = row'.eventHash ∧ row.previousEventHash = row'.previousEventHash ∧
    hashInput row.transition row.previousEventHash = hashInput row'.transition row'.previousEventHash

/-! ## The text that is hashed -/

theorem toList_hashInput (t : Transition) (prev : Option String) :
    (hashInput t prev).toList = t.taskId.toList ++ ':' :: ((orDefault prev "GENESIS").toList ++
      ':' :: (t.previousState.toList ++ ':' :: (t.newState.toList ++ ':' :: ((t.workerId.getD "").toList ++
        ':' :: ((toString (t.fencingToken.getD 0)).toList ++
          ':' :: ((toString t.leaseVersion).toList ++ ':' :: t.reason.toList)))))) := by
  have hcolon : ":".toList = [':'] := by decide
  show (t.taskId ++ ":" ++ orDefault prev "GENESIS" ++ ":" ++ t.previousState ++ ":" ++ t.newState ++ ":" ++
    t.workerId.getD "" ++ ":" ++ toString (t.fencingToken.getD 0) ++ ":" ++ toString t.leaseVersion ++ ":" ++
      t.reason).toList = _
  simp only [String.toList_append, hcolon, List.append_assoc, List.cons_append, List.nil_append]

/-! ## Sealed rows -/

/-- The hash of the row is made of the row, and follows no hash or a hash. Kind: D -/
def Sealed (sha256 : String → String) (taskId : String) (row : AuditRow) : Prop :=
  row.taskId = taskId ∧ row.eventHash = computeHash sha256 row.transition row.previousEventHash ∧
    ∀ prev ∈ row.previousEventHash, ∃ text, prev = sha256 text

variable {sha256 : String → String} {taskId : String}

theorem orDefault_digest (hsha : CollisionFree sha256) {prev : Option String}
    (hprev : ∀ h ∈ prev, ∃ text, h = sha256 text) :
    ':' ∉ (orDefault prev "GENESIS").toList ∧
      ∀ h ∈ prev, orDefault prev "GENESIS" = h ∧ h ≠ "GENESIS" := by
  rcases prev with _ | h
  · exact ⟨by decide, fun h hh => (nomatch hh)⟩
  · obtain ⟨text, rfl⟩ := hprev h rfl
    have hread : orDefault (some (sha256 text)) "GENESIS" = sha256 text := by
      unfold orDefault
      rw [Option.getD_some, if_neg (hsha.ne_empty text)]
    rw [hread]
    refine ⟨hsha.plain text, fun h hh => ?_⟩
    cases hh
    exact ⟨rfl, hsha.ne_genesis text⟩

/-- Sealed rows of the same hash have the same text, and follow the same hash. Kind: L -/
theorem Sealed.sameText (hsha : CollisionFree sha256) {row row' : AuditRow} (h : Sealed sha256 taskId row)
    (h' : Sealed sha256 taskId row') (hhash : row.eventHash = row'.eventHash) : SameText row row' := by
  obtain ⟨htask, hsealed, hprev⟩ := h
  obtain ⟨htask', hsealed', hprev'⟩ := h'
  have htext : hashInput row.transition row.previousEventHash =
      hashInput row'.transition row'.previousEventHash :=
    hsha.injective (hsealed.symm.trans (hhash.trans hsealed'))
  refine ⟨hhash, ?_, htext⟩
  obtain ⟨hplain, hread⟩ := orDefault_digest hsha hprev
  obtain ⟨hplain', hread'⟩ := orDefault_digest hsha hprev'
  have hchars := congrArg String.toList htext
  rw [toList_hashInput, toList_hashInput] at hchars
  have hid : row.transition.taskId = row'.transition.taskId := htask.trans htask'.symm
  rw [hid] at hchars
  have hsame : orDefault row.previousEventHash "GENESIS" = orDefault row'.previousEventHash "GENESIS" :=
    String.toList_injective
      (append_sep_inj hplain hplain' (List.cons.inj (List.append_cancel_left hchars)).2).1
  rcases hp : row.previousEventHash with _ | p <;> rcases hp' : row'.previousEventHash with _ | p'
  · rfl
  · obtain ⟨hdef, hne⟩ := hread' p' hp'
    rw [hdef, hp] at hsame
    exact absurd hsame.symm hne
  · obtain ⟨hdef, hne⟩ := hread p hp
    rw [hdef, hp'] at hsame
    exact absurd hsame hne
  · rw [(hread p hp).1, (hread' p' hp').1] at hsame
    rw [hsame]

/-- The chain of hashes of a task. Kind: D -/
abbrev ChainFrom (sha256 : String → String) (taskId : String) : Option String → List AuditRow → Prop :=
  Linked AuditRow.previousEventHash AuditRow.eventHash (Sealed sha256 taskId)

/-- How far from the first row of the task a hash is. Kind: D -/
abbrev DeepIn (sha256 : String → String) (taskId : String) : ℕ → Option String → Prop :=
  Deep AuditRow.previousEventHash AuditRow.eventHash (Sealed sha256 taskId)

theorem verifyFrom_iff {rows : List AuditRow} (htask : ∀ row ∈ rows, row.taskId = taskId) {i : ℕ}
    {prev : Option String} (hprev : ∀ h ∈ prev, ∃ text, h = sha256 text) :
    verifyFrom sha256 taskId i prev rows = .ok () ↔ ChainFrom sha256 taskId prev rows := by
  induction rows generalizing i prev with
  | nil => exact ⟨fun _ => trivial, fun _ => rfl⟩
  | cons row rest ih =>
    have hrest : ∀ row ∈ rest, row.taskId = taskId := fun r hr => htask r (List.mem_cons_of_mem _ hr)
    unfold verifyFrom
    by_cases hlink : row.previousEventHash = prev
    · rw [if_neg (not_not.mpr hlink)]
      by_cases hhash : row.eventHash = computeHash sha256 row.transition row.previousEventHash
      · have hsealed : Sealed sha256 taskId row :=
          ⟨htask row List.mem_cons_self, hhash, by rw [hlink]; exact hprev⟩
        have hnext : ∀ h ∈ some row.eventHash, ∃ text, h = sha256 text := by
          intro h hh
          cases hh
          exact ⟨_, hhash⟩
        simp only [hhash, ne_eq, not_true_eq_false, if_false]
        rw [← hhash, ih hrest hnext]
        exact ⟨fun h => ⟨hlink, hsealed, h⟩, fun h => h.2.2⟩
      · simp only [ne_eq, hhash, not_false_eq_true, if_true]
        exact ⟨fun h => (nomatch h), fun h => absurd h.2.1.2.1 hhash⟩
    · rw [if_pos hlink]
      exact ⟨fun h => (nomatch h), fun h => absurd h.1 hlink⟩

/-! ## Recorded rows -/

theorem mem_recordedOf {rows : List AuditRow} {row : AuditRow} :
    row ∈ recordedOf rows taskId ↔ row ∈ rows ∧ row.taskId = taskId := by
  unfold recordedOf
  rw [List.mem_filter, decide_eq_true_iff]

theorem rowsOf_perm (rows : List AuditRow) (taskId : String) :
    (rowsOf rows taskId).Perm (recordedOf rows taskId) :=
  sortBy_perm AuditRow.place _

theorem pairwise_rowsOf (rows : List AuditRow) (taskId : String) :
    (rowsOf rows taskId).Pairwise fun a b => a.place ≤ b.place :=
  pairwise_sortBy AuditRow.place _

theorem InOrder.rowsOf_eq {rows : List AuditRow} (h : InOrder rows taskId) :
    rowsOf rows taskId = recordedOf rows taskId :=
  sortBy_eq (List.Pairwise.imp (fun hlt => le_of_lt hlt) h)

/-- Some row is before another one that is not deeper than it. Kind: D -/
def Inverted (sha256 : String → String) (rows : List AuditRow) (taskId : String) : Prop :=
  ∃ a ∈ recordedOf rows taskId, ∃ b ∈ recordedOf rows taskId, a.place < b.place ∧
    ∃ i j, j ≤ i ∧ DeepIn sha256 taskId i a.previousEventHash ∧ DeepIn sha256 taskId j b.previousEventHash

/-- What holds of the rows that calls record. Kind: D -/
structure Recording (sha256 : String → String) (taskId : String) (rows : List AuditRow) : Prop where
  ids : (rows.map AuditRow.id).Nodup
  sealed : ∀ row ∈ recordedOf rows taskId,
    Sealed sha256 taskId row ∧ ∃ n, DeepIn sha256 taskId n row.previousEventHash
  linked : InOrder rows taskId → ChainFrom sha256 taskId none (recordedOf rows taskId)
  inverted : ¬ InOrder rows taskId → Inverted sha256 rows taskId

theorem recording_init : Recording sha256 taskId [] :=
  ⟨List.nodup_nil, fun _ h => absurd h List.not_mem_nil, fun _ => trivial, fun h => absurd List.Pairwise.nil h⟩

theorem recordedOf_append_self {rows : List AuditRow} {row : AuditRow} (h : row.taskId = taskId) :
    recordedOf (rows ++ [row]) taskId = recordedOf rows taskId ++ [row] := by
  unfold recordedOf
  rw [List.filter_append]
  exact congrArg _ (List.filter_cons_of_pos (by simpa using h))

theorem recordedOf_append_ne {rows : List AuditRow} {row : AuditRow} (h : row.taskId ≠ taskId) :
    recordedOf (rows ++ [row]) taskId = recordedOf rows taskId := by
  unfold recordedOf
  rw [List.filter_append, List.filter_cons_of_neg (by simpa using h)]
  exact List.append_nil _

/-- The row that is recorded follows the latest row by place, and is one deeper than it. Kind: L -/
theorem newRow_follows {rows : List AuditRow} (hdeep : ∀ row ∈ recordedOf rows taskId,
    Sealed sha256 taskId row ∧ ∃ n, DeepIn sha256 taskId n row.previousEventHash) (draws : Draws)
    {t : Transition} (htask : t.taskId = taskId) :
    Sealed sha256 taskId (newRow sha256 draws rows t) ∧
      ∃ n, DeepIn sha256 taskId n (newRow sha256 draws rows t).previousEventHash := by
  have hprev : (newRow sha256 draws rows t).previousEventHash =
      (rowsOf rows taskId).getLast?.map AuditRow.eventHash := by rw [← htask]; rfl
  rcases hlast : (rowsOf rows taskId).getLast? with _ | latest
  · rw [hlast] at hprev
    refine ⟨⟨htask, rfl, fun h hh => ?_⟩, 0, by rw [hprev]; exact Deep.start⟩
    rw [hprev] at hh
    cases hh
  · rw [hlast] at hprev
    have hmem : latest ∈ recordedOf rows taskId :=
      (rowsOf_perm rows taskId).mem_iff.mp (List.mem_of_getLast? hlast)
    obtain ⟨hsealed, n, hn⟩ := hdeep latest hmem
    refine ⟨⟨htask, rfl, fun h hh => ?_⟩, n + 1, by rw [hprev]; exact Deep.next hsealed hn⟩
    rw [hprev] at hh
    cases hh
    exact ⟨_, hsealed.2.1⟩

theorem place_ne {a b : AuditRow} (h : a.id ≠ b.id) : a.place ≠ b.place :=
  fun heq => h (congrArg (fun p : ℤ ×ₗ String => (ofLex p).2) heq)

/-- A row that is not later than the rows before it is before the one that it follows. Kind: L -/
theorem newRow_before_latest {rows : List AuditRow} (h : Recording sha256 taskId rows)
    (hbefore : InOrder rows taskId) {draws : Draws} (hid : draws.auditId ∉ rows.map AuditRow.id)
    {t : Transition} (htask : t.taskId = taskId) {row : AuditRow} (hrow : row ∈ recordedOf rows taskId)
    (hle : (newRow sha256 draws rows t).place ≤ row.place) :
    ∃ latest ∈ recordedOf rows taskId, (newRow sha256 draws rows t).place < latest.place ∧
      ∃ i j, j ≤ i ∧ DeepIn sha256 taskId i (newRow sha256 draws rows t).previousEventHash ∧
        DeepIn sha256 taskId j latest.previousEventHash := by
  have hlast := List.getLast?_eq_getLast_of_ne_nil (List.ne_nil_of_mem hrow)
  generalize (recordedOf rows taskId).getLast (List.ne_nil_of_mem hrow) = latest at hlast
  have hmem : latest ∈ recordedOf rows taskId := List.mem_of_getLast? hlast
  obtain ⟨hsealed, n, hn⟩ := h.sealed latest hmem
  have hlatest : row.place ≤ latest.place := by
    have happend : (recordedOf rows taskId).dropLast ++ [latest] = recordedOf rows taskId :=
      List.dropLast_append_getLast? latest hlast
    have hsorted : (recordedOf rows taskId).Pairwise fun a b => a.place < b.place := hbefore
    rw [← happend] at hsorted hrow
    rcases List.mem_append.mp hrow with hrow | hrow
    · grind
    · rw [List.mem_singleton.mp hrow]
  have hne : (newRow sha256 draws rows t).id ≠ latest.id := by
    intro heq
    exact hid (List.mem_map.mpr ⟨latest, (mem_recordedOf.mp hmem).1, heq.symm⟩)
  have hprev : (newRow sha256 draws rows t).previousEventHash = some latest.eventHash := by
    show (rowsOf rows t.taskId).getLast?.map AuditRow.eventHash = _
    rw [htask, hbefore.rowsOf_eq, hlast]
    rfl
  refine ⟨latest, hmem, lt_of_le_of_ne (hle.trans hlatest) (place_ne hne), n + 1, n, Nat.le_succ n, ?_, hn⟩
  rw [hprev]
  exact Deep.next hsealed hn

/-- A call that is recorded keeps what holds of the rows. Kind: L -/
theorem recording_newRow {rows : List AuditRow} (h : Recording sha256 taskId rows) {draws : Draws}
    (hid : draws.auditId ∉ rows.map AuditRow.id) (t : Transition) :
    Recording sha256 taskId (rows ++ [newRow sha256 draws rows t]) := by
  have hids : ((rows ++ [newRow sha256 draws rows t]).map AuditRow.id).Nodup := by
    rw [List.map_append, List.nodup_append]
    refine ⟨h.ids, List.nodup_singleton _, fun a ha b hb heq => hid ?_⟩
    rw [← show b = draws.auditId from List.mem_singleton.mp hb, ← heq]
    exact ha
  by_cases htask : t.taskId = taskId
  · obtain ⟨hsealed, hdeep⟩ := newRow_follows h.sealed draws htask
    have happend : recordedOf (rows ++ [newRow sha256 draws rows t]) taskId =
        recordedOf rows taskId ++ [newRow sha256 draws rows t] := recordedOf_append_self htask
    have horder : InOrder (rows ++ [newRow sha256 draws rows t]) taskId ↔ InOrder rows taskId ∧
        ∀ row ∈ recordedOf rows taskId, row.place < (newRow sha256 draws rows t).place := by
      unfold InOrder
      rw [happend, List.pairwise_append]
      simp only [List.pairwise_singleton, List.mem_singleton, forall_eq, true_and]
    refine ⟨hids, fun row hrow => ?_, fun hin => ?_, fun hout => ?_⟩
    · rw [happend] at hrow
      rcases List.mem_append.mp hrow with hrow | hrow
      · exact h.sealed row hrow
      · simp_all
    · have hbefore := (horder.mp hin).1
      rw [happend]
      refine linked_concat.mpr ⟨h.linked hbefore, ?_, hsealed⟩
      rw [lastMark_none, ← hbefore.rowsOf_eq, ← htask]
      rfl
    · unfold Inverted
      rw [happend]
      by_cases hbefore : InOrder rows taskId
      · have hnot : ∃ row ∈ recordedOf rows taskId, ¬ row.place < (newRow sha256 draws rows t).place := by
          by_contra hall
          exact hout (horder.mpr ⟨hbefore, fun row hrow => not_not.mp fun hlt => hall ⟨row, hrow, hlt⟩⟩)
        obtain ⟨row, hrow, hle⟩ := hnot
        obtain ⟨latest, hmem, hlt, hdeeper⟩ :=
          newRow_before_latest h hbefore hid htask hrow (not_lt.mp hle)
        exact ⟨_, List.mem_append_right _ (List.mem_singleton.mpr rfl), latest,
          List.mem_append_left _ hmem, hlt, hdeeper⟩
      · obtain ⟨a, ha, b, hb, hrest⟩ := h.inverted hbefore
        exact ⟨a, List.mem_append_left _ ha, b, List.mem_append_left _ hb, hrest⟩
  · have happend : recordedOf (rows ++ [newRow sha256 draws rows t]) taskId = recordedOf rows taskId :=
      recordedOf_append_ne htask
    have horder : InOrder (rows ++ [newRow sha256 draws rows t]) taskId ↔ InOrder rows taskId := by
      unfold InOrder
      rw [happend]
    refine ⟨hids, ?_, ?_, ?_⟩
    · rw [happend]
      exact h.sealed
    · rw [happend, horder]
      exact h.linked
    · unfold Inverted
      rw [happend, horder]
      exact h.inverted

theorem recording_transact {rows : List AuditRow} (call : Draws × Transition)
    (h : Recording sha256 taskId rows) : Recording sha256 taskId (transact sha256 rows call) := by
  unfold transact recordTransition
  by_cases hid : call.1.auditId ∈ rows.map AuditRow.id
  · rw [if_pos hid]
    exact h
  · rw [if_neg hid]
    exact recording_newRow h hid call.2

theorem recording_run (sha256 : String → String) (taskId : String) (calls : List (Draws × Transition)) :
    Recording sha256 taskId (calls.foldl (transact sha256) []) :=
  invariant_reached (fun _ call h => recording_transact call h) calls recording_init _
    (foldl_mem_reached _ _)

/-! ## What verifies -/

theorem verifyChainIntegrity_iff (rows : List AuditRow) :
    verifyChainIntegrity sha256 rows taskId = .ok () ↔ ChainFrom sha256 taskId none (rowsOf rows taskId) :=
  verifyFrom_iff (fun _ hrow => (mem_recordedOf.mp ((rowsOf_perm rows taskId).mem_iff.mp hrow)).2)
    (fun _ hh => nomatch hh)

theorem Recording.verified_iff_inOrder (hsha : CollisionFree sha256) {rows : List AuditRow}
    (h : Recording sha256 taskId rows) :
    verifyChainIntegrity sha256 rows taskId = .ok () ↔ InOrder rows taskId := by
  rw [verifyChainIntegrity_iff]
  constructor
  · intro hchain
    by_contra hout
    obtain ⟨a, ha, b, hb, hplace, i, j, hle, hi, hj⟩ := h.inverted hout
    have hperm := rowsOf_perm rows taskId
    have hlt := hchain.deeper (fun _ _ hsealed hsealed' hhash => (hsealed.sameText hsha hsealed' hhash).2.1)
      Deep.start (pairwise_rowsOf rows taskId) (hperm.mem_iff.mpr ha) (hperm.mem_iff.mpr hb) hplace hi hj
    omega
  · intro hin
    rw [hin.rowsOf_eq]
    exact h.linked hin

/-- Each row of the task has the hash of a recorded row of it. Kind: D -/
def HashesLeft (rows tampered : List AuditRow) (taskId : String) : Prop :=
  ∀ row ∈ recordedOf tampered taskId, ∃ original ∈ recordedOf rows taskId,
    original.eventHash = row.eventHash

theorem chain_of_sameText {prev : Option String} {kept l : List AuditRow}
    (h : ChainFrom sha256 taskId prev kept) (hl : ∀ row ∈ l, row.taskId = taskId)
    (hsame : List.Forall₂ SameText kept l) : ChainFrom sha256 taskId prev l := by
  induction hsame generalizing prev with
  | nil => trivial
  | @cons row row' kept l hrow hsame ih =>
    obtain ⟨hlink, ⟨_, hhash, hdigest⟩, hrest⟩ := h
    obtain ⟨hmark, hprev, htext⟩ := hrow
    refine ⟨hprev ▸ hlink, ⟨hl row' List.mem_cons_self, ?_, hprev ▸ hdigest⟩, ?_⟩
    · rw [← hmark, hhash]
      exact congrArg sha256 htext
    · simp_all

theorem Recording.tampered_iff (hsha : CollisionFree sha256) {rows : List AuditRow}
    (h : Recording sha256 taskId rows) (hin : InOrder rows taskId) {tampered : List AuditRow}
    (hleft : HashesLeft rows tampered taskId) :
    verifyChainIntegrity sha256 tampered taskId = .ok () ↔
      ∃ kept, kept <+: recordedOf rows taskId ∧ List.Forall₂ SameText kept (rowsOf tampered taskId) := by
  rw [verifyChainIntegrity_iff]
  have hperm := rowsOf_perm tampered taskId
  constructor
  · intro hchain
    obtain ⟨kept, hkept, hsame⟩ := (h.linked hin).kept
      (fun _ _ hsealed hsealed' hhash => (hsealed.sameText hsha hsealed' hhash).2.1) hchain Deep.start
      fun row hrow => hleft row (hperm.mem_iff.mp hrow)
    exact ⟨kept, hkept, hsame.imp fun _ _ hboth => hboth.1.sameText hsha hboth.2.1 hboth.2.2⟩
  · rintro ⟨kept, hkept, hsame⟩
    exact chain_of_sameText ((h.linked hin).beginning hkept)
      (fun row hrow => (mem_recordedOf.mp (hperm.mem_iff.mp hrow)).2) hsame

/-- The recorded rows of a task verify exactly when they are in order. Where they are, rows that keep their
hashes verify exactly when they have the text of the first of the recorded rows, one by one.
Source: `audit_ledger.py`, `record_transition`, `verify_chain_integrity`
Kind: P
Fidelity: exact -/
theorem verified_iff (hsha : CollisionFree sha256) (calls : List (Draws × Transition)) (taskId : String) :
    (verifyChainIntegrity sha256 (calls.foldl (transact sha256) []) taskId = .ok () ↔
      InOrder (calls.foldl (transact sha256) []) taskId) ∧
    (InOrder (calls.foldl (transact sha256) []) taskId →
      ∀ tampered, HashesLeft (calls.foldl (transact sha256) []) tampered taskId →
        (verifyChainIntegrity sha256 tampered taskId = .ok () ↔
          ∃ kept, kept <+: recordedOf (calls.foldl (transact sha256) []) taskId ∧
            List.Forall₂ SameText kept (rowsOf tampered taskId))) := by
  have h := recording_run sha256 taskId calls
  exact ⟨h.verified_iff_inOrder hsha, fun hin tampered hleft => h.tampered_iff hsha hin hleft⟩

/-! ## A hash function without collisions -/

/-- Kind: D -/
def escape (c : Char) : List Char :=
  if c = ':' then ['.', 'c'] else if c = '.' then ['.', 'd'] else [c]

/-- The text itself, with its colons written otherwise. Kind: D -/
def digest (text : String) : String := String.ofList ('h' :: text.toList.flatMap escape)

theorem escape_append_inj {x y : Char} {xs ys : List Char} (h : escape x ++ xs = escape y ++ ys) :
    x = y ∧ xs = ys := by
  unfold escape at h
  grind

theorem escape_ne_nil (c : Char) : escape c ≠ [] := by
  unfold escape
  split
  · exact List.cons_ne_nil _ _
  · split <;> exact List.cons_ne_nil _ _

theorem flatMap_escape_injective : Function.Injective (List.flatMap escape) := by
  intro xs
  induction xs with
  | nil =>
    intro ys h
    rcases ys with _ | ⟨y, ys⟩
    · rfl
    · exact absurd (List.append_eq_nil_iff.mp h.symm).1 (escape_ne_nil y)
  | cons x xs ih =>
    intro ys h
    rcases ys with _ | ⟨y, ys⟩
    · exact absurd (List.append_eq_nil_iff.mp h).1 (escape_ne_nil x)
    · obtain ⟨rfl, hrest⟩ := escape_append_inj h
      rw [ih hrest]

theorem colon_not_mem_escape (c : Char) : ':' ∉ escape c := by
  unfold escape
  split
  · decide
  · grind

theorem head_digest (text : String) : (digest text).toList.head? = some 'h' := by
  unfold digest
  rw [String.toList_ofList]
  rfl

theorem digest_collisionFree : CollisionFree digest where
  injective text text' h :=
    String.toList_injective (flatMap_escape_injective (List.cons.inj (String.ofList_injective h)).2)
  plain text := by
    unfold digest
    rw [String.toList_ofList]
    intro hmem
    rcases List.mem_cons.mp hmem with h | h
    · exact absurd h (by decide)
    · simp_all [colon_not_mem_escape]
  ne_genesis text h := by
    exact absurd ((head_digest text).symm.trans (congrArg (fun s : String => s.toList.head?) h)) (by decide)
  ne_empty text h := by
    exact absurd ((head_digest text).symm.trans (congrArg (fun s : String => s.toList.head?) h)) (by decide)

/-- A call that reads the given time. Kind: D -/
def callAt (auditId : String) (auditAt : ℤ) (previousState newState : String) : Draws × Transition :=
  ({ auditId, auditAt, eventHex := "", eventAt := auditAt, letterHex := "", plain := by decide },
    { taskId := "t", previousState, newState })

/-- Two calls in the order of their times verify, and so does the first row alone. -/
theorem verified_iff_ordered :
    let rows := [callAt "a" 1 "NONE" "QUEUED", callAt "b" 2 "QUEUED" "RUNNING"].foldl (transact digest) []
    verifyChainIntegrity digest rows "t" = .ok () ∧ verifyChainIntegrity digest (rows.take 1) "t" = .ok () := by
  intro rows
  have hin : InOrder rows "t" := by decide +kernel
  obtain ⟨hrecorded, htampered⟩ := verified_iff digest_collisionFree
    [callAt "a" 1 "NONE" "QUEUED", callAt "b" 2 "QUEUED" "RUNNING"] "t"
  have hleft : HashesLeft rows (rows.take 1) "t" := fun row hrow =>
    ⟨row, mem_recordedOf.mpr ⟨List.mem_of_mem_take (mem_recordedOf.mp hrow).1, (mem_recordedOf.mp hrow).2⟩, rfl⟩
  refine ⟨hrecorded.mpr hin, (htampered hin (rows.take 1) hleft).mpr ⟨rowsOf (rows.take 1) "t", ?_, ?_⟩⟩
  · decide +kernel
  · exact List.forall₂_same.mpr fun _ _ => ⟨rfl, rfl, rfl⟩

/-- When the clock steps back between two calls, the rows that they record do not verify. -/
theorem stepped_back_clock_does_not_verify :
    verifyChainIntegrity digest
      ([callAt "a" 2 "NONE" "QUEUED", callAt "b" 1 "QUEUED" "RUNNING"].foldl (transact digest) []) "t" ≠
        .ok () := by
  decide +kernel

end TaskAuditLedger

end KarsaSec.Events
