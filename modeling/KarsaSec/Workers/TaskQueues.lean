import KarsaSec.Found.Runs
import Mathlib.Data.Int.Notation
import Mathlib.Data.List.Count
import Mathlib.Data.List.Perm.Basic

/-!
# Two task queues

`InMemoryTaskQueue` and `RedisTaskQueue` answer the same calls. `Both` makes each call on the two of them and notes what was
enqueued and acknowledged; `Agree` says that they answer alike, in the order of the calls, hold the same tasks, and lose and
repeat none.

The Redis queue is pushed and popped at the same end, and removes all copies of a task. `agree_iff` says which calls show it.
-/

namespace KarsaSec.Workers

open KarsaSec.Found

/-! ## In memory -/

/-- The left end of the deque is the head of the list. Source: `workers/queue.py`, `InMemoryTaskQueue`. Kind: D -/
structure InMemoryTaskQueue where
  mainQueue : List String := []
  processingQueue : List String := []
  maxQueueDepth : ℤ := 10000

namespace InMemoryTaskQueue

/-- Source: `workers/queue.py`, `QueueCapacityExceededError`. Kind: D -/
def capacityExceeded (q : InMemoryTaskQueue) : String :=
  s!"Queue capacity exceeded (MAX_QUEUE_DEPTH={q.maxQueueDepth}). Backpressure triggered."

/-- Source: `workers/queue.py`, `InMemoryTaskQueue.enqueue`. Kind: D -/
def enqueue (q : InMemoryTaskQueue) (taskId : String) : Except String InMemoryTaskQueue :=
  if (q.mainQueue.length : ℤ) ≥ q.maxQueueDepth then .error q.capacityExceeded
  else .ok { q with mainQueue := q.mainQueue ++ [taskId] }

/-- Source: `workers/queue.py`, `InMemoryTaskQueue.dequeue`. Kind: D -/
def dequeue (q : InMemoryTaskQueue) : Option String × InMemoryTaskQueue :=
  match q.mainQueue with
  | [] => (none, q)
  | taskId :: rest => (some taskId, { q with mainQueue := rest, processingQueue := q.processingQueue ++ [taskId] })

/-- `remove` takes the first copy. Source: `workers/queue.py`, `InMemoryTaskQueue.acknowledge`. Kind: D -/
def acknowledge (q : InMemoryTaskQueue) (taskId : String) : InMemoryTaskQueue :=
  { q with processingQueue := q.processingQueue.erase taskId }

/-- Source: `workers/queue.py`, `InMemoryTaskQueue.requeue`. Kind: D -/
def requeue (q : InMemoryTaskQueue) (taskId : String) : InMemoryTaskQueue :=
  { q with mainQueue := taskId :: q.mainQueue, processingQueue := q.processingQueue.erase taskId }

end InMemoryTaskQueue

/-! ## Redis -/

/-- `RPUSH`: a list gets a new tail. Kind: D -/
def rpush (l : List String) (val : String) : List String := l ++ [val]

/-- `LPUSH`: a list gets a new head. Kind: D -/
def lpush (l : List String) (val : String) : List String := val :: l

/-- `LREM` with count 0: all copies are removed. Kind: D -/
def lrem (l : List String) (val : String) : List String := l.filter fun v => v ≠ val

/-- `BRPOPLPUSH`: the tail of the source becomes the head of the destination. Kind: D -/
def brpoplpush (source destination : List String) : Option (String × List String × List String) :=
  source.getLast?.map fun val => (val, source.dropLast, lpush destination val)

/-- The two lists, under different names. Source: `workers/redis_queue.py`, `RedisTaskQueue`. Kind: D -/
structure RedisTaskQueue where
  queue : List String := []
  processing : List String := []

namespace RedisTaskQueue

/-- Source: `workers/redis_queue.py`, `RedisTaskQueue.enqueue`. Kind: D -/
def enqueue (q : RedisTaskQueue) (taskId : String) : RedisTaskQueue := { q with queue := rpush q.queue taskId }

/-- An empty identifier counts as no value. Source: `workers/redis_queue.py`, `RedisTaskQueue.dequeue`. Kind: D -/
def dequeue (q : RedisTaskQueue) : Option String × RedisTaskQueue :=
  match brpoplpush q.queue q.processing with
  | none => (none, q)
  | some (val, queue, processing) => (if val ≠ "" then some val else none, { queue := queue, processing := processing })

/-- Source: `workers/redis_queue.py`, `RedisTaskQueue.acknowledge`. Kind: D -/
def acknowledge (q : RedisTaskQueue) (taskId : String) : RedisTaskQueue := { q with processing := lrem q.processing taskId }

/-- Source: `workers/redis_queue.py`, `RedisTaskQueue.requeue`. Kind: D -/
def requeue (q : RedisTaskQueue) (taskId : String) : RedisTaskQueue :=
  { queue := lpush q.queue taskId, processing := lrem q.processing taskId }

end RedisTaskQueue

/-! ## Side by side -/

/-- A call of the interface. Source: `workers/queue.py`, `TaskQueue`. Kind: D -/
inductive QueueCall
  | enqueue (taskId : String)
  | dequeue
  | acknowledge (taskId : String)
  | requeue (taskId : String)

/-- The two queues with what they answered last. `expected` is the order in which tasks have to come: as they were enqueued,
requeued tasks first. `acknowledged` has an occurrence for each acknowledged one.
Kind: D -/
structure Both where
  memory : InMemoryTaskQueue
  redis : RedisTaskQueue
  memoryReply : Option String
  redisReply : Option String
  expectedReply : Option String
  expected : List String
  enqueued : List String
  acknowledged : List String

namespace Both

/-- Two new queues. Kind: D -/
def start (maxQueueDepth : ℤ) : Both where
  memory := { maxQueueDepth := maxQueueDepth }
  redis := {}
  memoryReply := none
  redisReply := none
  expectedReply := none
  expected := []
  enqueued := []
  acknowledged := []

/-- One call on both. An error leaves the queue in memory as it was. Kind: D -/
def call (s : Both) : QueueCall → Both
  | .enqueue taskId =>
    { s with
      memory := (s.memory.enqueue taskId).toOption.getD s.memory
      redis := s.redis.enqueue taskId
      expected := s.expected ++ [taskId]
      enqueued := s.enqueued ++ [taskId] }
  | .dequeue =>
    { s with
      memory := s.memory.dequeue.2
      redis := s.redis.dequeue.2
      memoryReply := s.memory.dequeue.1
      redisReply := s.redis.dequeue.1
      expectedReply := s.expected.head?
      expected := s.expected.tail }
  | .acknowledge taskId =>
    { s with
      memory := s.memory.acknowledge taskId
      redis := s.redis.acknowledge taskId
      acknowledged := if taskId ∈ s.memory.processingQueue then taskId :: s.acknowledged else s.acknowledged }
  | .requeue taskId =>
    { s with
      memory := s.memory.requeue taskId
      redis := s.redis.requeue taskId
      expected := taskId :: s.expected }

/-- The queue is not full when a task is added. Kind: D -/
def Fits (s : Both) : QueueCall → Prop
  | .enqueue _ => (s.memory.mainQueue.length : ℤ) < s.memory.maxQueueDepth
  | _ => True

/-- The queues agree: they answered alike and as expected, hold the same tasks, and every task that was enqueued is waiting,
processing or acknowledged once.
Kind: D -/
structure Agree (s : Both) : Prop where
  replies : s.redisReply = s.memoryReply
  order : s.memoryReply = s.expectedReply
  waiting : s.redis.queue.Perm s.memory.mainQueue
  processing : s.redis.processing.Perm s.memory.processingQueue
  memoryKeeps : s.enqueued.Perm (s.memory.mainQueue ++ s.memory.processingQueue ++ s.acknowledged)
  redisKeeps : s.enqueued.Perm (s.redis.queue ++ s.redis.processing ++ s.acknowledged)

/-- What a call needs for the queues to agree behind it. Kind: D -/
def Alike (s : Both) : QueueCall → Prop
  | .enqueue _ => True
  | .dequeue => s.memory.mainQueue.head? = s.redis.queue.getLast? ∧ s.memory.mainQueue.head? ≠ some ""
  | .acknowledge taskId => s.memory.processingQueue.count taskId ≤ 1
  | .requeue taskId => s.memory.processingQueue.count taskId = 1

end Both

/-! ## Copies of a task -/

section copies

variable {l l' : List String} {t : String}

theorem erase_perm_lrem_iff (h : l'.Perm l) : (lrem l' t).Perm (l.erase t) ↔ l.count t ≤ 1 := by
  have hother : ∀ a, a ≠ t → (lrem l' t).count a = (l.erase t).count a := by
    intro a ha
    rw [List.count_erase_of_ne ha, ← h.count_eq]
    exact List.count_filter (decide_eq_true ha)
  have hnone : (lrem l' t).count t = 0 :=
    List.count_eq_zero_of_not_mem fun hmem => of_decide_eq_true (List.mem_filter.mp hmem).2 rfl
  have herase : (l.erase t).count t = l.count t - 1 := List.count_erase_self
  constructor
  · intro hperm
    have hcount := hperm.count_eq t
    omega
  · grind

theorem mem_of_count_eq_one (h : l.count t = 1) : t ∈ l := List.count_pos_iff.mp (by rw [h]; exact Nat.one_pos)

end copies

namespace Both

variable {s : Both} {t : String}

/-- What holds in every run: the queue in memory is as expected. Kind: D -/
def Expected (s : Both) : Prop := s.memory.mainQueue = s.expected

theorem enqueue_of_fits (h : s.Fits (.enqueue t)) :
    s.memory.enqueue t = .ok { s.memory with mainQueue := s.memory.mainQueue ++ [t] } := by
  unfold InMemoryTaskQueue.enqueue
  exact if_neg (Int.not_le.mpr h)

theorem expected_call (c : QueueCall) (h : s.Expected) (hfits : s.Fits c) : (s.call c).Expected := by
  unfold Expected at h ⊢
  cases c with
  | enqueue t =>
    show ((s.memory.enqueue t).toOption.getD s.memory).mainQueue = s.expected ++ [t]
    rw [enqueue_of_fits hfits, ← h]
    rfl
  | dequeue =>
    show s.memory.dequeue.2.mainQueue = s.expected.tail
    unfold InMemoryTaskQueue.dequeue
    rw [← h]
    rcases hmain : s.memory.mainQueue with _ | ⟨t, rest⟩
    · exact hmain
    · rfl
  | acknowledge => exact h
  | requeue t => exact congrArg (t :: ·) h

/-! ## One call -/

/-- Tasks that are kept in memory are kept in Redis where the two hold the same. Kind: L -/
theorem Agree.of_memory (hreplies : s.redisReply = s.memoryReply) (horder : s.memoryReply = s.expectedReply)
    (hwaiting : s.redis.queue.Perm s.memory.mainQueue) (hprocessing : s.redis.processing.Perm s.memory.processingQueue)
    (hkeeps : s.enqueued.Perm (s.memory.mainQueue ++ s.memory.processingQueue ++ s.acknowledged)) : s.Agree :=
  ⟨hreplies, horder, hwaiting, hprocessing, hkeeps,
    hkeeps.trans ((hwaiting.append hprocessing).append_right s.acknowledged).symm⟩

theorem agree_enqueue (h : s.Agree) (hfits : s.Fits (.enqueue t)) : (s.call (.enqueue t)).Agree := by
  have hmemory : (s.call (.enqueue t)).memory = { s.memory with mainQueue := s.memory.mainQueue ++ [t] } := by
    show (s.memory.enqueue t).toOption.getD s.memory = _
    rw [enqueue_of_fits hfits]
    rfl
  refine .of_memory h.replies h.order ?_ ?_ ?_
  · rw [hmemory]
    exact h.waiting.append_right [t]
  · rw [hmemory]
    exact h.processing
  · rw [hmemory]
    refine List.perm_iff_count.mpr fun a => ?_
    have hcount := h.memoryKeeps.count_eq a
    show (s.enqueued ++ [t]).count a = (s.memory.mainQueue ++ [t] ++ s.memory.processingQueue ++ s.acknowledged).count a
    simp only [List.count_append] at hcount ⊢
    omega

theorem agree_dequeue_iff (h : s.Agree) (hexp : s.Expected) : (s.call .dequeue).Agree ↔ s.Alike .dequeue := by
  rcases hmain : s.memory.mainQueue with _ | ⟨t, rest⟩
  · -- nothing waits in either
    have hqueue : s.redis.queue = [] := List.perm_nil.mp (hmain ▸ h.waiting)
    have hmemory : s.memory.dequeue = (none, s.memory) := by
      unfold InMemoryTaskQueue.dequeue
      rw [hmain]
    have hredis : s.redis.dequeue = (none, s.redis) := by
      unfold RedisTaskQueue.dequeue brpoplpush
      rw [hqueue]
      rfl
    have hexpected : s.expected = [] := hexp.symm.trans hmain
    have hcall : s.call .dequeue =
        { s with memoryReply := none, redisReply := none, expectedReply := none, expected := [] } := by
      unfold call
      rw [hmemory, hredis, hexpected]
      rfl
    rw [hcall]
    refine ⟨fun _ => ?_, fun _ => ⟨rfl, rfl, h.waiting, h.processing, h.memoryKeeps, h.redisKeeps⟩⟩
    unfold Alike
    rw [hmain, hqueue]
    exact ⟨rfl, fun hnone => by cases hnone⟩
  · have hne : s.redis.queue ≠ [] := by
      intro hnil
      have hwaiting := h.waiting
      rw [hnil, hmain] at hwaiting
      exact List.cons_ne_nil _ _ (List.perm_nil.mp hwaiting.symm)
    obtain ⟨front, last, hqueue⟩ : ∃ front last, s.redis.queue = front ++ [last] :=
      ⟨_, _, (List.dropLast_append_getLast hne).symm⟩
    have hmemory : s.memory.dequeue =
        (some t, { s.memory with mainQueue := rest, processingQueue := s.memory.processingQueue ++ [t] }) := by
      unfold InMemoryTaskQueue.dequeue
      rw [hmain]
    have hredis : s.redis.dequeue = (if last ≠ "" then some last else none, ⟨front, last :: s.redis.processing⟩) := by
      unfold RedisTaskQueue.dequeue brpoplpush
      rw [hqueue, List.getLast?_concat, List.dropLast_concat]
      rfl
    have hexpected : s.expected = t :: rest := hexp.symm.trans hmain
    have hcall : s.call .dequeue =
        { s with
          memory := { s.memory with mainQueue := rest, processingQueue := s.memory.processingQueue ++ [t] }
          redis := ⟨front, last :: s.redis.processing⟩
          memoryReply := some t
          redisReply := if last ≠ "" then some last else none
          expectedReply := some t
          expected := rest } := by
      unfold call
      rw [hmemory, hredis, hexpected]
      rfl
    have halike : s.Alike .dequeue ↔ t = last ∧ t ≠ "" := by simp_all [Alike]
    rw [hcall, halike]
    constructor
    · intro hagree
      have hreply : (if last ≠ "" then some last else none) = some t := hagree.replies
      split_ifs at hreply with hempty
      obtain rfl := Option.some.inj hreply
      exact ⟨rfl, hempty⟩
    · rintro ⟨rfl, hempty⟩
      refine .of_memory (if_pos hempty) rfl ?_ ?_ ?_
      · have hwaiting := h.waiting
        rw [hqueue, hmain] at hwaiting
        exact (List.perm_cons t).mp ((List.perm_append_singleton t front).symm.trans hwaiting)
      · exact (h.processing.cons t).trans (List.perm_append_singleton t _).symm
      · refine List.perm_iff_count.mpr fun a => ?_
        have hcount := h.memoryKeeps.count_eq a
        rw [hmain] at hcount
        show s.enqueued.count a = (rest ++ (s.memory.processingQueue ++ [t]) ++ s.acknowledged).count a
        simp only [List.count_append, List.count_cons, List.count_nil] at hcount ⊢
        omega

theorem agree_acknowledge_iff (h : s.Agree) : (s.call (.acknowledge t)).Agree ↔ s.Alike (.acknowledge t) := by
  have hcopies := erase_perm_lrem_iff (t := t) h.processing
  refine ⟨fun hagree => hcopies.mp hagree.processing, fun halike => ?_⟩
  refine .of_memory h.replies h.order h.waiting (hcopies.mpr halike) (List.perm_iff_count.mpr fun a => ?_)
  have hcount := h.memoryKeeps.count_eq a
  show s.enqueued.count a = (s.memory.mainQueue ++ s.memory.processingQueue.erase t ++
    if t ∈ s.memory.processingQueue then t :: s.acknowledged else s.acknowledged).count a
  split_ifs with hmem
  · -- the copy that is removed is noted
    have herase := (List.perm_cons_erase hmem).count_eq a
    simp only [List.count_append, List.count_cons] at hcount herase ⊢
    omega
  · rw [List.erase_of_not_mem hmem, hcount]

theorem agree_requeue_iff (h : s.Agree) : (s.call (.requeue t)).Agree ↔ s.Alike (.requeue t) := by
  have hcopies := erase_perm_lrem_iff (t := t) h.processing
  have hkeeps : ∀ a, (s.enqueued.count a =
      (t :: s.memory.mainQueue ++ s.memory.processingQueue.erase t ++ s.acknowledged).count a) ↔
        (t = a → t ∈ s.memory.processingQueue) := by
    intro a
    have hcount := h.memoryKeeps.count_eq a
    by_cases hmem : t ∈ s.memory.processingQueue
    · grind
    · rw [List.erase_of_not_mem hmem]
      simp only [List.count_append, List.count_cons] at hcount ⊢
      by_cases ha : t = a
      · simp_all
      · simp_all
  constructor
  · intro hagree
    have hle := hcopies.mp hagree.processing
    have hmem := (hkeeps t).mp (hagree.memoryKeeps.count_eq t) rfl
    exact Nat.le_antisymm hle (List.count_pos_iff.mpr hmem)
  · intro halike
    refine .of_memory h.replies h.order (h.waiting.cons t) (hcopies.mpr (Nat.le_of_eq halike)) ?_
    exact List.perm_iff_count.mpr fun a => (hkeeps a).mpr fun _ => mem_of_count_eq_one halike

/-! ## Runs -/

theorem agree_start (depth : ℤ) : (start depth).Agree :=
  ⟨rfl, rfl, List.Perm.refl _, List.Perm.refl _, List.Perm.refl _, List.Perm.refl _⟩

theorem agree_call_iff (s : Both) (c : QueueCall) (hexp : s.Expected) (h : s.Agree) (hfits : s.Fits c) :
    (s.call c).Agree ↔ s.Alike c := by
  cases c with
  | enqueue t => exact ⟨fun _ => trivial, fun _ => agree_enqueue h hfits⟩
  | dequeue => exact agree_dequeue_iff h hexp
  | acknowledge t => exact agree_acknowledge_iff h
  | requeue t => exact agree_requeue_iff h

/-- **The queues agree in a run exactly when every call meets its condition.**
Source: `workers/queue.py`, `InMemoryTaskQueue`; `workers/redis_queue.py`, `RedisTaskQueue`
Kind: P -/
theorem agree_iff (depth : ℤ) (calls : List QueueCall) (hfits : Along call Fits (start depth) calls) :
    (∀ s ∈ reached call (start depth) calls, s.Agree) ↔ Along call Alike (start depth) calls := by
  have hstart : (start depth).Expected := rfl
  exact forall_reached_iff_of_along (fun _ c h hfits => expected_call c h hfits) agree_call_iff hstart (agree_start depth) hfits

theorem agree_iff_one_task :
    (∀ s ∈ reached call (start 10) [.enqueue "a", .dequeue, .requeue "a", .dequeue, .acknowledge "a"], s.Agree) ↔
      Along call Alike (start 10) [.enqueue "a", .dequeue, .requeue "a", .dequeue, .acknowledge "a"] :=
  agree_iff 10 _ ⟨(by decide : (0 : ℤ) < 10), trivial, trivial, trivial, trivial, trivial⟩

/-- Of two tasks Redis hands out the second first. Kind: C -/
theorem last_task_first : Along call Fits (start 10) [.enqueue "a", .enqueue "b", .dequeue] ∧
    ¬∀ s ∈ reached call (start 10) [.enqueue "a", .enqueue "b", .dequeue], s.Agree := by
  refine ⟨⟨(by decide : (0 : ℤ) < 10), (by decide : (1 : ℤ) < 10), trivial, trivial⟩, fun h => ?_⟩
  have hlast := h _ (foldl_mem_reached _ _)
  exact absurd hlast.replies (by decide)

end Both

end KarsaSec.Workers
