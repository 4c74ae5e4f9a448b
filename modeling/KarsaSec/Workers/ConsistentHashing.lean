import KarsaSec.Found.Circle
import KarsaSec.Found.Dict
import KarsaSec.Found.Text
import Mathlib.Data.Finset.Basic
import Mathlib.Data.Nat.Digits.Lemmas

/-!
# The consistent hash ring

`workers/scheduler.py`: `ConsistentHashRing`. Each worker owns a number of positions on a ring, the hashes of its
virtual node keys; a task goes to the owner of the next position after its own hash.

* `addWorker`, `removeWorker` and `assign` are the code. SHA-256 is a parameter, a function to digests of 32 bytes.
  `freePosition` is the loop that looks for a position nobody owns; it has a fuel, and is `none` where that ends.
* `RingCall.members` is what the calls mean: the set of the workers added and not removed since.
* `Shows` is the invariant: the ring holds the hashes of the members' keys and nothing else, the list its keys in
  order.
* `placement_follows_membership`: after all calls each member has its number of positions and nobody else has one,
  tasks are placed by the set of members alone, with a member, a worker that goes gives up its own tasks only, and
  a worker that comes takes tasks for itself only.
-/

namespace KarsaSec.Workers

open KarsaSec.Found

/-! ## The code -/

/-- What the ring raises. Kind: D -/
inductive RingError
  | valueError (message : String)
  | noWorkersAvailable (message : String)
  | indexError
  | keyError (key : ℕ)
  deriving DecidableEq

/-- `ConsistentHashRing`. Kind: D -/
structure ConsistentHashRing where
  virtualNodes : ℕ
  positive : 0 < virtualNodes
  ring : Dict ℕ String := .empty
  positions : List ℕ := []
  workers : Finset String := ∅

/-- `int.from_bytes(digest, byteorder="big", signed=False)`. Kind: D -/
def fromBytes (digest : Vector UInt8 32) : ℕ := Nat.ofDigits 256 (digest.toList.reverse.map UInt8.toNat)

/-- `f"{worker_id}#vnode-{vnode}"`. Kind: D -/
def vnodeKey (workerId : String) (vnode : ℕ) : String := workerId ++ "#vnode-" ++ toString vnode

/-- The keys of the virtual nodes of some workers. Kind: D -/
def vnodeKeys (ids : Set String) (virtualNodes : ℕ) : Set String :=
  {key | ∃ workerId ∈ ids, ∃ vnode < virtualNodes, key = vnodeKey workerId vnode}

namespace ConsistentHashRing

/-- `ConsistentHashRing.__init__`. Kind: D -/
def init (virtualNodes : ℤ) : Except RingError ConsistentHashRing :=
  if h : 0 < virtualNodes.toNat then .ok { virtualNodes := virtualNodes.toNat, positive := h }
  else .error (.valueError "virtual_nodes must be > 0")

-- SHA-256 of the UTF-8 bytes of a text
variable (sha256 : String → Vector UInt8 32)

/-- `_hash`. Kind: D -/
def hash (value : String) : ℕ := fromBytes (sha256 value)

/-- The loop of `add_worker` that passes over positions with an owner. Kind: D -/
def freePosition (ring : Dict ℕ String) : ℕ → String → Option ℕ
  | 0, _ => none
  | fuel + 1, key =>
    let position := hash sha256 key
    if ring.contains position then freePosition ring fuel (key ++ "#collision") else some position

/-- One turn of the loop over the virtual nodes. Kind: D -/
def placeVnode (fuel : ℕ) (workerId : String) (ring : Dict ℕ String) (vnode : ℕ) : Option (Dict ℕ String) :=
  (freePosition sha256 ring fuel (vnodeKey workerId vnode)).map fun position => ring.set position workerId

/-- `sorted(self._ring.keys())`. Kind: D -/
def sortedKeys (ring : Dict ℕ String) : List ℕ := ring.keys.insertionSort (· ≤ ·)

/-- `add_worker`. Kind: D -/
def addWorker (fuel : ℕ) (self : ConsistentHashRing) (workerId : String) :
    Option (Except RingError ConsistentHashRing) :=
  if workerId = "" then some (.error (.valueError "worker_id must not be empty"))
  else if workerId ∈ self.workers then some (.ok self)
  else
    ((List.range self.virtualNodes).foldlM (placeVnode sha256 fuel workerId) self.ring).map fun ring =>
      .ok { self with ring := ring, positions := sortedKeys ring, workers := insert workerId self.workers }

/-- The positions of a worker. Kind: D -/
def positionsOf (self : ConsistentHashRing) (workerId : String) : List ℕ :=
  (self.ring.entries.filter fun e => e.2 = workerId).map Prod.fst

/-- `remove_worker`. Kind: D -/
def removeWorker (self : ConsistentHashRing) (workerId : String) : ConsistentHashRing :=
  if workerId ∈ self.workers then
    let ring := (self.positionsOf workerId).foldl Dict.erase self.ring
    { self with ring := ring, positions := sortedKeys ring, workers := self.workers.erase workerId }
  else self

/-- `assign`. Kind: D -/
def assign (self : ConsistentHashRing) (taskId : String) : Except RingError String :=
  if self.positions = [] then .error (.noWorkersAvailable "No workers available for task assignment")
  else
    let position := hash sha256 taskId
    let index := wrap self.positions.length (bisectRight self.positions position)
    match self.positions[index]? with
    | none => .error .indexError
    | some next =>
      match self.ring.get? next with
      | none => .error (.keyError next)
      | some workerId => .ok workerId

end ConsistentHashRing

/-! ## Runs -/

/-- A call that changes the ring. Kind: D -/
inductive RingCall
  | addWorker (workerId : String)
  | removeWorker (workerId : String)
  deriving DecidableEq

namespace RingCall

/-- The worker a call names. Kind: D -/
def workerId : RingCall → String
  | .addWorker workerId => workerId
  | .removeWorker workerId => workerId

/-- What a call means for the set of workers. Kind: D -/
def members (workers : Finset String) : RingCall → Finset String
  | .addWorker workerId => if workerId = "" then workers else insert workerId workers
  | .removeWorker workerId => workers.erase workerId

end RingCall

namespace ConsistentHashRing

variable (sha256 : String → Vector UInt8 32)

/-- One call; where it raises, the ring stays. Kind: D -/
def step (fuel : ℕ) (self : ConsistentHashRing) : RingCall → Option ConsistentHashRing
  | .addWorker workerId =>
    (addWorker sha256 fuel self workerId).map fun
      | .ok self' => self'
      | .error _ => self
  | .removeWorker workerId => some (self.removeWorker workerId)

/-- Some calls on a new ring. Kind: D -/
def run (fuel virtualNodes : ℕ) (hpositive : 0 < virtualNodes) (calls : List RingCall) : Option ConsistentHashRing :=
  calls.foldlM (step sha256 fuel) { virtualNodes := virtualNodes, positive := hpositive }

/-- The list is the keys in order, each member has its number of positions and nobody else has one. Kind: D -/
structure Balanced (hashRing : ConsistentHashRing) : Prop where
  positions : hashRing.positions = sortedKeys hashRing.ring
  share : ∀ workerId ∈ hashRing.workers, (hashRing.positionsOf workerId).length = hashRing.virtualNodes
  owners : ∀ workerId ∈ hashRing.ring.values, workerId ∈ hashRing.workers

end ConsistentHashRing

/-! ## Keys -/

theorem fromBytes_injective : Function.Injective fromBytes := by
  intro a b h
  have hlength : (a.toList.reverse.map UInt8.toNat).length = (b.toList.reverse.map UInt8.toNat).length := by simp
  have hbytes : ∀ (digest : Vector UInt8 32), ∀ d ∈ digest.toList.reverse.map UInt8.toNat, d < 256 := by
    intro digest d hd
    obtain ⟨byte, _, rfl⟩ := List.mem_map.mp hd
    exact byte.toNat_lt
  have hdigits := Nat.ofDigits_inj_of_len_eq (by norm_num) hlength (hbytes a) (hbytes b) h
  have hreversed := List.map_injective_iff.mpr (fun _ _ => UInt8.toNat_inj.mp) hdigits
  exact Vector.toList_inj.mp (List.reverse_injective hreversed)

theorem toList_vnodeKey (workerId : String) (vnode : ℕ) :
    (vnodeKey workerId vnode).toList = (workerId.toList ++ "#vnode".toList) ++ '-' :: (toString vnode).toList := by
  have hmark : "#vnode-".toList = "#vnode".toList ++ ['-'] := by decide
  rw [vnodeKey, String.toList_append, String.toList_append, hmark]
  simp only [List.append_assoc, List.cons_append, List.nil_append]

theorem dash_not_mem (n : ℕ) : '-' ∉ (toString n).toList := fun h =>
  absurd (isDigit_of_mem_toString h) (by decide)

/-- A key says whose virtual node it is, and which. Kind: L -/
theorem vnodeKey_inj {v w : String} {m n : ℕ} (h : vnodeKey v m = vnodeKey w n) : v = w ∧ m = n := by
  have hchars := congrArg String.toList h
  rw [toList_vnodeKey, toList_vnodeKey] at hchars
  obtain ⟨hids, hnumbers⟩ := append_last_sep_inj (dash_not_mem m) (dash_not_mem n) hchars
  exact ⟨String.toList_injective (List.append_cancel_right hids), toString_nat_inj (String.toList_injective hnumbers)⟩

namespace ConsistentHashRing

section

variable {sha256 : String → Vector UInt8 32} {ids : Set String} {virtualNodes : ℕ}

/-- Two virtual nodes have one position only if they are the same. Kind: L -/
theorem hash_vnodeKey_inj (hsha : Set.InjOn sha256 (vnodeKeys ids virtualNodes)) {v w : String} {m n : ℕ}
    (hv : v ∈ ids) (hw : w ∈ ids) (hm : m < virtualNodes) (hn : n < virtualNodes)
    (h : hash sha256 (vnodeKey v m) = hash sha256 (vnodeKey w n)) : v = w ∧ m = n :=
  vnodeKey_inj (hsha ⟨v, hv, m, hm, rfl⟩ ⟨w, hw, n, hn, rfl⟩ (fromBytes_injective h))

/-! ## The invariant -/

/-- The ring holds the positions of its members' virtual nodes, and the list its keys in order. Kind: D -/
structure Shows (sha256 : String → Vector UInt8 32) (ids : Set String) (virtualNodes : ℕ)
    (hashRing : ConsistentHashRing) : Prop where
  nodes : hashRing.virtualNodes = virtualNodes
  known : ∀ workerId ∈ hashRing.workers, workerId ∈ ids
  positions : hashRing.positions = sortedKeys hashRing.ring
  owner : ∀ position workerId, hashRing.ring.get? position = some workerId ↔
    workerId ∈ hashRing.workers ∧ ∃ vnode < virtualNodes, position = hash sha256 (vnodeKey workerId vnode)

theorem freePosition_of_free {ring : Dict ℕ String} {key : String} (h : ring.get? (hash sha256 key) = none)
    (fuel : ℕ) : freePosition sha256 ring (fuel + 1) key = some (hash sha256 key) := by
  have hfree : ring.contains (hash sha256 key) = false := by rw [Dict.contains, h, Option.isSome_none]
  rw [freePosition, hfree]
  rfl

variable {hashRing : ConsistentHashRing} {workerId : String}

/-- The loop over the virtual nodes gives a new worker the positions of its keys. Kind: L -/
theorem Shows.placed (h : Shows sha256 ids virtualNodes hashRing) (hsha : Set.InjOn sha256 (vnodeKeys ids virtualNodes))
    (hid : workerId ∈ ids) (hnew : workerId ∉ hashRing.workers) (fuel : ℕ) {n : ℕ} (hn : n ≤ virtualNodes) :
    ∃ ring, (List.range n).foldlM (placeVnode sha256 (fuel + 1) workerId) hashRing.ring = some ring ∧
      ∀ position owner, ring.get? position = some owner ↔ hashRing.ring.get? position = some owner ∨
        owner = workerId ∧ ∃ vnode < n, position = hash sha256 (vnodeKey workerId vnode) := by
  induction n with
  | zero =>
    refine ⟨hashRing.ring, rfl, fun position owner => ⟨Or.inl, ?_⟩⟩
    rintro (hold | ⟨_, vnode, hvnode, _⟩)
    · exact hold
    · exact absurd hvnode (Nat.not_lt_zero _)
  | succ n ih =>
    obtain ⟨ring, hring, howner⟩ := ih (Nat.le_of_succ_le hn)
    have hfree : ring.get? (hash sha256 (vnodeKey workerId n)) = none := by
      rw [Option.eq_none_iff_forall_ne_some]
      intro owner hget
      rcases (howner _ _).mp hget with hold | ⟨_, vnode, hvnode, hsame⟩
      · obtain ⟨hmember, vnode, hvnode, hsame⟩ := (h.owner _ _).mp hold
        obtain ⟨rfl, _⟩ := hash_vnodeKey_inj hsha hid (h.known _ hmember) hn hvnode hsame
        exact hnew hmember
      · obtain ⟨_, heq⟩ := hash_vnodeKey_inj hsha hid hid hn (hvnode.trans hn) hsame
        omega
    refine ⟨ring.set (hash sha256 (vnodeKey workerId n)) workerId, ?_, fun position owner => ?_⟩
    · simp_all [List.range_succ, placeVnode, freePosition_of_free]
    · rw [Dict.get?_set]
      by_cases hposition : position = hash sha256 (vnodeKey workerId n)
      · rw [if_pos hposition]
        constructor
        · grind
        · grind
      · rw [if_neg hposition, howner]
        refine or_congr_right (and_congr_right fun _ => ⟨?_, ?_⟩)
        · grind
        · grind

/-- A call of `add_worker` returns, and the worker is a member unless its name is empty. Kind: L -/
theorem Shows.add (h : Shows sha256 ids virtualNodes hashRing) (hsha : Set.InjOn sha256 (vnodeKeys ids virtualNodes))
    (hid : workerId ∈ ids) (fuel : ℕ) :
    ∃ next, step sha256 (fuel + 1) hashRing (.addWorker workerId) = some next ∧
      Shows sha256 ids virtualNodes next ∧ next.workers = RingCall.members hashRing.workers (.addWorker workerId) := by
  by_cases hempty : workerId = ""
  · refine ⟨hashRing, ?_, h, (if_pos hempty).symm⟩
    rw [step, addWorker, if_pos hempty]
    rfl
  · rw [RingCall.members, if_neg hempty]
    by_cases hmember : workerId ∈ hashRing.workers
    · refine ⟨hashRing, ?_, h, (Finset.insert_eq_of_mem hmember).symm⟩
      rw [step, addWorker, if_neg hempty, if_pos hmember]
      rfl
    · obtain ⟨ring, hring, howner⟩ := h.placed hsha hid hmember fuel le_rfl
      refine ⟨{ hashRing with
          ring := ring, positions := sortedKeys ring, workers := insert workerId hashRing.workers }, ?_, ?_, rfl⟩
      · have hall : (List.range hashRing.virtualNodes).foldlM (placeVnode sha256 (fuel + 1) workerId) hashRing.ring =
            some ring := by
          rw [h.nodes]
          exact hring
        rw [step, addWorker, if_neg hempty, if_neg hmember, hall]
        rfl
      · refine ⟨h.nodes, fun owner hin => ?_, rfl, fun position owner => ?_⟩
        · rcases Finset.mem_insert.mp hin with rfl | hold
          · exact hid
          · exact h.known owner hold
        · show ring.get? position = some owner ↔ owner ∈ insert workerId hashRing.workers ∧ _
          rw [howner, h.owner, Finset.mem_insert, or_and_right, or_comm]
          refine or_congr_left (and_congr_right fun hsame => ?_)
          rw [hsame]

theorem mem_positionsOf {position : ℕ} :
    position ∈ hashRing.positionsOf workerId ↔ hashRing.ring.get? position = some workerId := by
  rw [positionsOf, List.mem_map]
  constructor
  · simp [Dict.mem_entries]
  · simp [Dict.mem_entries]

/-- A call of `remove_worker` takes the positions of the worker out. Kind: L -/
theorem Shows.remove (h : Shows sha256 ids virtualNodes hashRing) (workerId : String) :
    Shows sha256 ids virtualNodes (hashRing.removeWorker workerId) ∧
      (hashRing.removeWorker workerId).workers = hashRing.workers.erase workerId := by
  rw [removeWorker]
  by_cases hmember : workerId ∈ hashRing.workers
  · rw [if_pos hmember]
    refine ⟨⟨h.nodes, fun owner hin => h.known owner (Finset.mem_of_mem_erase hin), rfl, fun position owner => ?_⟩, rfl⟩
    show ((hashRing.positionsOf workerId).foldl Dict.erase hashRing.ring).get? position = some owner ↔
      owner ∈ hashRing.workers.erase workerId ∧ _
    rw [Dict.mem_foldl_erase, mem_positionsOf, Finset.mem_erase, and_assoc, ← h.owner]
    constructor
    · simp_all
    · simp_all
  · simp_all

theorem Shows.step (h : Shows sha256 ids virtualNodes hashRing) (hsha : Set.InjOn sha256 (vnodeKeys ids virtualNodes))
    (fuel : ℕ) {call : RingCall} (hid : call.workerId ∈ ids) :
    ∃ next, ConsistentHashRing.step sha256 (fuel + 1) hashRing call = some next ∧
      Shows sha256 ids virtualNodes next ∧ next.workers = call.members hashRing.workers := by
  cases call with
  | addWorker workerId => exact h.add hsha hid fuel
  | removeWorker workerId => exact ⟨_, rfl, h.remove workerId⟩

/-- The calls return, and leave a ring that shows the members. Kind: P -/
theorem Shows.calls (h : Shows sha256 ids virtualNodes hashRing) (hsha : Set.InjOn sha256 (vnodeKeys ids virtualNodes))
    (fuel : ℕ) {calls : List RingCall} (hids : ∀ call ∈ calls, call.workerId ∈ ids) :
    ∃ last, calls.foldlM (ConsistentHashRing.step sha256 (fuel + 1)) hashRing = some last ∧
      Shows sha256 ids virtualNodes last ∧ last.workers = calls.foldl RingCall.members hashRing.workers := by
  induction calls generalizing hashRing with
  | nil => exact ⟨hashRing, rfl, h, rfl⟩
  | cons call calls ih =>
    obtain ⟨next, hnext, hshows, hworkers⟩ := h.step hsha fuel (hids call List.mem_cons_self)
    obtain ⟨last, hlast, hshows', hworkers'⟩ := ih hshows fun c hc => hids c (List.mem_cons_of_mem _ hc)
    refine ⟨last, ?_, hshows', ?_⟩
    · rw [List.foldlM_cons, hnext]
      exact hlast
    · rw [hworkers', hworkers, List.foldl_cons]

theorem shows_new (hpositive : 0 < virtualNodes) :
    Shows sha256 ids virtualNodes { virtualNodes := virtualNodes, positive := hpositive } := by
  refine ⟨rfl, fun owner hin => absurd hin (Finset.notMem_empty owner), rfl, fun position owner => ?_⟩
  constructor
  · intro hget
    cases hget
  · simp

/-- Each member has as many positions as it has virtual nodes. Kind: L -/
theorem Shows.balanced (h : Shows sha256 ids virtualNodes hashRing)
    (hsha : Set.InjOn sha256 (vnodeKeys ids virtualNodes)) : hashRing.Balanced := by
  refine ⟨h.positions, fun workerId hmember => ?_, fun workerId hvalue => ?_⟩
  · have hid := h.known workerId hmember
    have hperm : (hashRing.positionsOf workerId).Perm
        ((List.range virtualNodes).map fun vnode => hash sha256 (vnodeKey workerId vnode)) := by
      refine (List.perm_ext_iff_of_nodup ?_ ?_).mpr fun position => ?_
      · exact hashRing.ring.nodup.sublist (List.filter_sublist.map Prod.fst)
      · grind [List.Nodup.map_on, hash_vnodeKey_inj]
      · rw [mem_positionsOf, h.owner, List.mem_map]
        constructor
        · grind
        · grind
    rw [hperm.length_eq, List.length_map, List.length_range, h.nodes]
  · obtain ⟨position, hget⟩ := Dict.mem_values.mp hvalue
    exact ((h.owner _ _).mp hget).1

/-! ## Assignments -/

/-- A ring with members places a task with the owner of the next position. Kind: L -/
theorem Shows.assigns (h : Shows sha256 ids virtualNodes hashRing) (hpositive : 0 < virtualNodes)
    (hmember : hashRing.workers.Nonempty) (taskId : String) :
    ∃ workerId ∈ hashRing.workers, assign sha256 hashRing taskId = .ok workerId ∧
      Places hashRing.ring.get? (hash sha256 taskId) workerId := by
  have hperm : hashRing.positions.Perm hashRing.ring.keys := by
    rw [h.positions]
    exact List.perm_insertionSort _ _
  have hsorted : hashRing.positions.Pairwise (· ≤ ·) := by
    rw [h.positions]
    exact List.pairwise_insertionSort _ _
  have howned : ∀ position, position ∈ hashRing.positions ↔ (hashRing.ring.get? position).isSome := fun position =>
    hperm.mem_iff.trans Dict.get?_isSome.symm
  have hne : hashRing.positions ≠ [] := by
    obtain ⟨workerId, hin⟩ := hmember
    have hget := (h.owner _ _).mpr ⟨hin, 0, hpositive, rfl⟩
    exact List.ne_nil_of_mem ((howned _).mpr (Option.isSome_of_eq_some hget))
  obtain ⟨next, hindex, hnext⟩ := isNext_bisectRight hsorted hne (hash sha256 taskId)
  obtain ⟨workerId, hget⟩ := Option.isSome_iff_exists.mp ((howned next).mp hnext.1)
  refine ⟨workerId, ((h.owner _ _).mp hget).1, ?_, next, hnext.mono (fun q hq => (howned q).mpr hq) ?_, hget⟩
  · rw [assign, if_neg hne]
    simp only [hindex, hget]
  · show (hashRing.ring.get? next).isSome
    rw [hget]
    rfl

theorem Shows.assign_none (h : Shows sha256 ids virtualNodes hashRing) (hnone : hashRing.workers = ∅)
    (taskId : String) :
    assign sha256 hashRing taskId = .error (.noWorkersAvailable "No workers available for task assignment") := by
  have hkeys : hashRing.ring.keys = [] := by
    rw [List.eq_nil_iff_forall_not_mem]
    intro position hin
    obtain ⟨workerId, hget⟩ := Option.isSome_iff_exists.mp (Dict.get?_isSome.mpr hin)
    have hmember := ((h.owner _ _).mp hget).1
    rw [hnone] at hmember
    exact Finset.notMem_empty _ hmember
  have hpositions : hashRing.positions = [] := by
    rw [h.positions, sortedKeys, hkeys]
    rfl
  rw [assign, if_pos hpositions]

/-- A worker that a task is placed with is the one it is assigned to. Kind: L -/
theorem Shows.assign_of_places (h : Shows sha256 ids virtualNodes hashRing) (hpositive : 0 < virtualNodes)
    {taskId : String} (hplaces : Places hashRing.ring.get? (hash sha256 taskId) workerId) :
    assign sha256 hashRing taskId = .ok workerId := by
  have hmember : workerId ∈ hashRing.workers := by
    obtain ⟨position, _, hget⟩ := hplaces
    exact ((h.owner _ _).mp hget).1
  obtain ⟨other, _, hassign, hother⟩ := h.assigns hpositive ⟨workerId, hmember⟩ taskId
  rw [hassign, hother.unique hplaces]

/-- Rings with the same members assign alike. Kind: P -/
theorem Shows.assign_congr (h : Shows sha256 ids virtualNodes hashRing) {other : ConsistentHashRing}
    (h' : Shows sha256 ids virtualNodes other) (hpositive : 0 < virtualNodes)
    (hsame : other.workers = hashRing.workers) (taskId : String) :
    assign sha256 other taskId = assign sha256 hashRing taskId := by
  have howners : other.ring.get? = hashRing.ring.get? := by
    funext position
    refine Option.ext fun workerId => ?_
    rw [h'.owner, h.owner, hsame]
  rcases hashRing.workers.eq_empty_or_nonempty with hnone | hmember
  · rw [h.assign_none hnone, h'.assign_none (hsame.trans hnone)]
  · obtain ⟨workerId, _, hassign, hplaces⟩ := h.assigns hpositive hmember taskId
    rw [hassign]
    exact h'.assign_of_places hpositive (howners ▸ hplaces)

/-- Without a worker, the tasks of the others stay. Kind: P -/
theorem Shows.assign_remove (h : Shows sha256 ids virtualNodes hashRing) (hpositive : 0 < virtualNodes)
    {taskId : String} (hother : assign sha256 hashRing taskId ≠ .ok workerId) :
    assign sha256 (hashRing.removeWorker workerId) taskId = assign sha256 hashRing taskId := by
  obtain ⟨hshows, hworkers⟩ := h.remove workerId
  rcases hashRing.workers.eq_empty_or_nonempty with hnone | hmember
  · refine h.assign_congr hshows hpositive ?_ taskId
    rw [hworkers, hnone, Finset.erase_empty]
  · obtain ⟨owner, _, hassign, hplaces⟩ := h.assigns hpositive hmember taskId
    rw [hassign]
    refine hshows.assign_of_places hpositive (hplaces.mono (fun position hsome => ?_) fun position hget => ?_)
    · obtain ⟨v, hv⟩ := Option.isSome_iff_exists.mp hsome
      obtain ⟨hv, hvnode⟩ := (hshows.owner _ _).mp hv
      rw [hworkers] at hv
      exact Option.isSome_of_eq_some ((h.owner _ _).mpr ⟨Finset.mem_of_mem_erase hv, hvnode⟩)
    · obtain ⟨howner, hvnode⟩ := (h.owner _ _).mp hget
      refine (hshows.owner _ _).mpr ⟨?_, hvnode⟩
      rw [hworkers]
      refine Finset.mem_erase.mpr ⟨?_, howner⟩
      rintro rfl
      exact hother hassign

/-- A worker that comes takes tasks for itself only. Kind: P -/
theorem Shows.assign_add (h : Shows sha256 ids virtualNodes hashRing) {next : ConsistentHashRing}
    (h' : Shows sha256 ids virtualNodes next) (hpositive : 0 < virtualNodes)
    (hworkers : next.workers = RingCall.members hashRing.workers (.addWorker workerId)) (taskId : String) :
    assign sha256 next taskId = .ok workerId ∨ assign sha256 next taskId = assign sha256 hashRing taskId := by
  have hsplit : ∀ owner, owner ∈ next.workers → owner = workerId ∨ owner ∈ hashRing.workers := by grind [RingCall.members]
  have hgrows : ∀ owner ∈ hashRing.workers, owner ∈ next.workers := by grind [RingCall.members]
  rcases next.workers.eq_empty_or_nonempty with hnone | hmember
  · have hbefore : hashRing.workers = ∅ := by grind
    exact Or.inr ((h'.assign_none hnone taskId).trans (h.assign_none hbefore taskId).symm)
  · obtain ⟨owner, _, hassign, hplaces⟩ := h'.assigns hpositive hmember taskId
    by_cases hnew : owner = workerId
    · exact Or.inl (hnew ▸ hassign)
    · refine Or.inr (hassign.trans (h.assign_of_places hpositive ?_).symm)
      refine hplaces.mono (fun position hsome => ?_) fun position hget => ?_
      · obtain ⟨v, hv⟩ := Option.isSome_iff_exists.mp hsome
        obtain ⟨hv, hvnode⟩ := (h.owner _ _).mp hv
        exact Option.isSome_of_eq_some ((h'.owner _ _).mpr ⟨hgrows v hv, hvnode⟩)
      · obtain ⟨howner, hvnode⟩ := (h'.owner _ _).mp hget
        exact (h.owner _ _).mpr ⟨(hsplit owner howner).resolve_left hnew, hvnode⟩

end

/-- After any calls the ring is balanced, and its assignments follow its members. Kind: P -/
theorem placement_follows_membership (sha256 : String → Vector UInt8 32) (ids : Set String) (virtualNodes : ℕ)
    (hpositive : 0 < virtualNodes) (hsha : Set.InjOn sha256 (vnodeKeys ids virtualNodes)) (fuel : ℕ)
    (calls : List RingCall) (hids : ∀ call ∈ calls, call.workerId ∈ ids) :
    ∃ hashRing, run sha256 (fuel + 1) virtualNodes hpositive calls = some hashRing ∧
      hashRing.Balanced ∧ hashRing.virtualNodes = virtualNodes ∧
      hashRing.workers = calls.foldl RingCall.members ∅ ∧
      (∀ taskId, if hashRing.workers = ∅ then
          assign sha256 hashRing taskId = .error (.noWorkersAvailable "No workers available for task assignment")
        else ∃ workerId ∈ hashRing.workers, assign sha256 hashRing taskId = .ok workerId) ∧
      (∀ calls' other, (∀ call ∈ calls', call.workerId ∈ ids) →
        run sha256 (fuel + 1) virtualNodes hpositive calls' = some other → other.workers = hashRing.workers →
          ∀ taskId, assign sha256 other taskId = assign sha256 hashRing taskId) ∧
      (∀ workerId taskId, assign sha256 hashRing taskId ≠ .ok workerId →
        assign sha256 (hashRing.removeWorker workerId) taskId = assign sha256 hashRing taskId) ∧
      (∀ workerId ∈ ids, ∃ next, step sha256 (fuel + 1) hashRing (.addWorker workerId) = some next ∧
        ∀ taskId, assign sha256 next taskId = .ok workerId ∨
          assign sha256 next taskId = assign sha256 hashRing taskId) := by
  obtain ⟨hashRing, hrun, hshows, hworkers⟩ := (shows_new hpositive).calls hsha fuel hids
  refine ⟨hashRing, hrun, hshows.balanced hsha, hshows.nodes, hworkers, fun taskId => ?_,
    fun calls' other hids' hrun' hsame => ?_, fun workerId taskId hother => hshows.assign_remove hpositive hother,
    fun workerId hid => ?_⟩
  · split
    · exact hshows.assign_none ‹_› taskId
    · obtain ⟨workerId, hmember, hassign, _⟩ :=
        hshows.assigns hpositive (Finset.nonempty_iff_ne_empty.mpr ‹_›) taskId
      exact ⟨workerId, hmember, hassign⟩
  · obtain ⟨other', hother', hshows', _⟩ := (shows_new hpositive).calls hsha fuel hids'
    cases hrun'.symm.trans hother'
    exact hshows.assign_congr hshows' hpositive hsame
  · obtain ⟨next, hnext, hshows', hworkers'⟩ := hshows.add hsha hid fuel
    exact ⟨next, hnext, hshows.assign_add hshows' hpositive hworkers'⟩

/-- The digests of four keys. Kind: D -/
def digests (value : String) : Vector UInt8 32 :=
  if value = "w1#vnode-0" then
    #v[94, 255, 146, 131, 239, 135, 255, 63, 198, 82, 231, 164, 199, 234, 162, 118,
      123, 1, 244, 239, 169, 128, 31, 78, 201, 231, 152, 202, 152, 22, 249, 156]
  else if value = "w1#vnode-1" then
    #v[145, 55, 251, 183, 213, 161, 242, 84, 5, 185, 144, 190, 89, 130, 152, 94,
      109, 243, 34, 152, 191, 13, 27, 227, 159, 9, 149, 6, 83, 196, 239, 115]
  else if value = "w2#vnode-0" then
    #v[175, 124, 100, 157, 178, 143, 219, 163, 101, 137, 87, 19, 236, 55, 229, 153,
      3, 64, 234, 128, 236, 129, 174, 65, 247, 188, 219, 200, 0, 9, 50, 250]
  else if value = "w2#vnode-1" then
    #v[199, 120, 193, 153, 134, 76, 217, 102, 74, 143, 3, 140, 178, 31, 136, 111,
      252, 177, 80, 39, 97, 80, 135, 10, 115, 255, 50, 91, 226, 238, 132, 115]
  else Vector.replicate 32 0

theorem placement_follows_membership_two :
    ∃ hashRing, run digests 1 2 two_pos [.addWorker "w1", .addWorker "w2", .removeWorker "w1"] = some hashRing ∧
      hashRing.Balanced ∧ hashRing.workers = {"w2"} := by
  have hkeys : ∀ key ∈ vnodeKeys {"w1", "w2"} 2,
      key ∈ ["w1#vnode-0", "w1#vnode-1", "w2#vnode-0", "w2#vnode-1"] := by
    rintro key ⟨workerId, hid, vnode, hvnode, rfl⟩
    rcases hid with rfl | rfl
    · interval_cases vnode <;> decide
    · interval_cases vnode <;> decide
  have hdiffer : ∀ a ∈ ["w1#vnode-0", "w1#vnode-1", "w2#vnode-0", "w2#vnode-1"],
      ∀ b ∈ ["w1#vnode-0", "w1#vnode-1", "w2#vnode-0", "w2#vnode-1"], digests a = digests b → a = b := by decide
  obtain ⟨hashRing, hrun, hbalanced, _, hworkers, _⟩ := placement_follows_membership digests {"w1", "w2"} 2 two_pos
    (fun a ha b hb => hdiffer a (hkeys a ha) b (hkeys b hb)) 0
    [.addWorker "w1", .addWorker "w2", .removeWorker "w1"] (by simp [RingCall.workerId])
  exact ⟨hashRing, hrun, hbalanced, hworkers.trans (by decide)⟩

end ConsistentHashRing

end KarsaSec.Workers
