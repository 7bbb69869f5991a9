import CMsgQueue.Core.Mpool

/-!
# The pool for the payloads of worker messages

The memory pool as `worker_push_msg` of `server/cmq_server.c` uses it.  Payloads of at most 64 KiB
are cut from the last block, and a delivery gives nothing back.  So the pool holds a bounded
amount of memory exactly as long as it has served a bounded number of payloads.
-/

namespace CMsgQueue.Server

open Core

/-- The block size of the pool, and the largest payload that comes from it. -/
def payloadBlock : Nat := 64 * 1024

/-- The pool, the lengths of the SENDs that are queued, and how many payloads the pool has served
since it was created. -/
structure PayloadState where
  pool : CmqMpool
  queued : List Nat
  served : Nat

inductive PayloadEvent where
  /-- `worker_push_msg`: memory for a block, whether `malloc` has a buffer, and whether the
  message stays in the queue. -/
  | push (len : Nat) (malloc : Nat → Option Nat) (buf linked : Bool)
  /-- `worker_deliver_send_msg`, which wipes a buffer of the pool. -/
  | deliver

namespace PayloadState

def held (s : PayloadState) : Nat := (s.pool.blocks.map (·.size)).sum

def step (fourFifths : Nat → Nat) (s : PayloadState) : PayloadEvent → PayloadState
  | .push len malloc buf linked =>
    let alloc := if len ≤ payloadBlock then cmqMpoolAlloc fourFifths malloc s.pool len
      else (none, s.pool)
    ⟨alloc.2, if (alloc.1.isSome || buf) && linked then s.queued ++ [len] else s.queued,
      if alloc.1.isSome then s.served + 1 else s.served⟩
  | .deliver => { s with queued := s.queued.tail }

def start (mem : Nat) : PayloadState := ⟨⟨[], ⟨mem, payloadBlock, 0⟩⟩, [], 0⟩

def run (fourFifths : Nat → Nat) (mem : Nat) (events : List PayloadEvent) : PayloadState :=
  events.foldl (step fourFifths) (start mem)

/-- The number and the total length of the queued messages stay below a bound. -/
def QueuedBelow (fourFifths : Nat → Nat) (bound mem : Nat) (events : List PayloadEvent) : Prop :=
  ∀ n, (run fourFifths mem (events.take n)).queued.length < bound ∧
    (run fourFifths mem (events.take n)).queued.sum < bound

/-! ## What the served payloads cost -/

def paddedPayload : Nat := payloadBlock + 16

def full (pool : CmqMpool) : Nat := (pool.older.map (·.size)).sum

lemma held_eq (s : PayloadState) : s.held = full s.pool + s.pool.tail.size := by
  simp [held, full, CmqMpool.blocks]

/-- Each served payload spends at least a byte, and at most twice the largest one; the last block
is at most twice as large as all others. -/
structure Costs (pool : CmqMpool) (served : Nat) : Prop where
  filled : pool.tail.offset ≤ pool.tail.size
  served_le : served ≤ full pool + pool.tail.offset
  spent_le : full pool + pool.tail.offset ≤ 2 * paddedPayload * served
  tail_le : pool.tail.size ≤ 2 * full pool + paddedPayload

lemma newBlockSize_le (small : size ≤ payloadBlock)
    (sized : newBlockSize fourFifths b size = some n) : n ≤ paddedPayload ∨ n = b.size * 2 := by
  have padded : ∀ {aligned}, aligned ≤ size + 15 → paddedSize size aligned = some n →
      n ≤ paddedPayload := by
    intro aligned le sized
    unfold paddedSize at sized
    unfold paddedPayload
    split_ifs at sized <;> cases sized <;> omega
  unfold newBlockSize at sized
  split at sized
  · cases sized
  next dedicated aligned =>
  have le : dedicated ≤ size + 15 := by
    unfold cmqAlign16Ok at aligned
    split_ifs at aligned
    cases aligned
    omega
  split_ifs at sized
  · exact .inl (padded le sized)
  · exact .inl (padded le sized)
  cases sized
  exact .inr rfl

lemma Costs.alloc {pool : CmqMpool} {served : Nat} (costs : Costs pool served)
    (small : len ≤ payloadBlock) :
    Costs (cmqMpoolAlloc fourFifths malloc pool len).2
      (if (cmqMpoolAlloc fourFifths malloc pool len).1.isSome then served + 1 else served) := by
  have ⟨filled, served_le, spent_le, tail_le⟩ := costs
  have aligned : ∀ addr, alignOffset addr < 16 := fun _ => Nat.mod_lt _ (by decide)
  have near := aligned (pool.tail.mem + pool.tail.offset)
  have asked : max len 1 ≤ payloadBlock := max_le small (by decide)
  have positive : 1 ≤ max len 1 := le_max_right _ _
  have padded : paddedPayload = payloadBlock + 16 := rfl
  have more : 2 * paddedPayload * (served + 1) = 2 * paddedPayload * served + 2 * paddedPayload :=
    Nat.mul_succ _ _
  simp only [cmqMpoolAlloc]
  generalize alignOffset (pool.tail.mem + pool.tail.offset) = gap at *
  by_cases stuck : pool.tail.offset > pool.tail.size ∨ gap > sizeMax - max len 1
  · rw [if_pos stuck]
    exact costs
  rw [if_neg stuck]
  by_cases room : gap + max len 1 ≤ pool.tail.size - pool.tail.offset
  · rw [if_pos room]
    simp only [Option.isSome_some, if_true]
    refine ⟨?_, ?_, ?_, tail_le⟩ <;> simp only [full] at * <;> omega
  rw [if_neg room]
  cases created : (newBlockSize fourFifths pool.tail (max len 1)).bind
      (cmqMpoolBlockCreate malloc) with
  | none => exact costs
  | some =>
    obtain ⟨n, sized, block⟩ := Option.bind_eq_some_iff.mp created
    obtain ⟨-, addr, -, rfl⟩ := by simpa [cmqMpoolBlockCreate] using block
    have far := aligned addr
    have next : full ⟨pool.blocks, ⟨addr, n, alignOffset addr + max len 1⟩⟩ =
        full pool + pool.tail.size := by
      simp [full, CmqMpool.blocks]
    simp only
    generalize alignOffset addr = gap' at *
    by_cases tooSmall : gap' > sizeMax - max len 1 ∨ gap' + max len 1 > n
    · rw [if_pos tooSmall]
      exact costs
    rw [if_neg tooSmall]
    -- the payload did not fit, so little was left of the block in front
    simp only [Option.isSome_some, if_true]
    have behind : n ≤ 2 * (full pool + pool.tail.size) + paddedPayload := by
      rcases newBlockSize_le asked sized with le | rfl <;> omega
    refine ⟨?_, ?_, ?_, next ▸ behind⟩
    · simp only
      omega
    · rw [next]
      simp only
      omega
    rw [next]
    simp only
    omega

lemma run_costs (fourFifths : Nat → Nat) (mem : Nat) (events : List PayloadEvent) :
    Costs (run fourFifths mem events).pool (run fourFifths mem events).served := by
  have created : Costs (start mem).pool (start mem).served :=
    ⟨Nat.zero_le _, Nat.zero_le _, Nat.zero_le _, show payloadBlock ≤ 0 + _ by decide⟩
  unfold run
  generalize start mem = s at created
  induction events generalizing s with
  | nil => exact created
  | cons event events ih =>
    apply ih
    cases event with
    | deliver => exact created
    | push len malloc buf linked =>
      unfold step
      by_cases small : len ≤ payloadBlock
      · simp only [if_pos small]
        exact created.alloc small
      simp only [if_neg small]
      exact created

/-- In a class of runs whose queues stay below a bound, the memory of the pool is bounded in terms
of that bound if and only if the number of payloads is that the pool serves in a whole run,
delivered ones included. -/
theorem held_bounded_iff (fourFifths : Nat → Nat) (Allowed : Nat → List PayloadEvent → Prop) :
    (∃ limit : Nat → Nat, ∀ bound mem events, QueuedBelow fourFifths bound mem events →
        Allowed bound events → (run fourFifths mem events).held < limit bound) ↔
      ∃ count : Nat → Nat, ∀ bound mem events, QueuedBelow fourFifths bound mem events →
        Allowed bound events → (run fourFifths mem events).served < count bound := by
  constructor
  · rintro ⟨limit, bounded⟩
    refine ⟨limit, fun bound mem events below allowed => ?_⟩
    obtain ⟨filled, served_le, -, -⟩ := run_costs fourFifths mem events
    have less := bounded bound mem events below allowed
    rw [held_eq] at less
    omega
  rintro ⟨count, bounded⟩
  refine ⟨fun bound => paddedPayload * (6 * count bound + 2),
    fun bound mem events below allowed => ?_⟩
  obtain ⟨-, -, spent_le, tail_le⟩ := run_costs fourFifths mem events
  have less := bounded bound mem events below allowed
  simp only [held_eq, paddedPayload, payloadBlock] at *
  omega

/-! ## Rounds of one message -/

/-- A message of 64 KiB is sent and delivered, again and again. -/
def rounds : Nat → List PayloadEvent
  | 0 => []
  | n + 1 => .push payloadBlock (fun _ => some 16) true true :: .deliver :: rounds n

/-- Nothing is queued, and the last block is empty or has no room for 64 KiB. -/
def Ready (s : PayloadState) : Prop :=
  s.queued = [] ∧ s.pool.tail.mem = 16 ∧
    (s.pool.tail.offset = 0 ∧ s.pool.tail.size = payloadBlock ∨ s.pool.tail.offset = payloadBlock ∧
      (s.pool.tail.size = payloadBlock ∨ s.pool.tail.size = payloadBlock + 16))

lemma Ready.push {s : PayloadState} (ready : s.Ready) :
    let next := s.step (· * 4 / 5) (.push payloadBlock (fun _ => some 16) true true)
    next.queued = [payloadBlock] ∧ (next.step (· * 4 / 5) .deliver).Ready ∧
      next.served = s.served + 1 := by
  obtain ⟨queued, mem, room⟩ := ready
  unfold PayloadState.step cmqMpoolAlloc
  rcases room with ⟨offset, size⟩ | ⟨offset, size | size⟩ <;>
    simp [queued, mem, offset, size, payloadBlock, alignOffset, sizeMax, newBlockSize, cmqAlign16Ok,
      paddedSize, cmqMpoolBlockCreate, Ready]

lemma Ready.rounds {s : PayloadState} (ready : s.Ready) (n : Nat) :
    (∀ k, (((rounds n).take k).foldl (PayloadState.step (· * 4 / 5)) s).queued = [] ∨
        (((rounds n).take k).foldl (PayloadState.step (· * 4 / 5)) s).queued = [payloadBlock]) ∧
      ((rounds n).foldl (PayloadState.step (· * 4 / 5)) s).served = s.served + n := by
  induction n generalizing s with
  | zero =>
    obtain ⟨queued, -, _⟩ := ready
    exact ⟨fun k => .inl (by simpa [PayloadState.rounds] using queued), rfl⟩
  | succ n ih =>
    obtain ⟨queued, ready', more⟩ := ready.push
    obtain ⟨below, served⟩ := ih ready'
    simp only [PayloadState.rounds, List.foldl_cons]
    refine ⟨fun k => ?_, ?_⟩
    · match k with
      | 0 => exact .inl ready.1
      | 1 => exact .inr queued
      | k + 2 => exact below k
    rw [served, Nat.add_comm n 1, ← Nat.add_assoc, ← more]
    rfl

/-- With one message in the queue at most, the pool grows without a bound. -/
theorem pool_unbounded :
    ¬ ∃ limit : Nat → Nat, ∀ bound mem events, QueuedBelow (· * 4 / 5) bound mem events →
      (run (· * 4 / 5) mem events).held < limit bound := by
  rintro ⟨limit, bounded⟩
  have ready : (start 16).Ready := ⟨rfl, rfl, .inl ⟨rfl, rfl⟩⟩
  obtain ⟨below, served⟩ := ready.rounds (limit (payloadBlock + 1))
  obtain ⟨filled, served_le, -, -⟩ := run_costs (· * 4 / 5) 16 (rounds (limit (payloadBlock + 1)))
  have held := bounded (payloadBlock + 1) 16 (rounds (limit (payloadBlock + 1))) fun n => ?_
  · rw [held_eq] at held
    unfold run at *
    rw [served] at served_le
    omega
  unfold run
  rcases below n with none | one
  · rw [none]
    decide
  rw [one]
  decide

end PayloadState

end CMsgQueue.Server
