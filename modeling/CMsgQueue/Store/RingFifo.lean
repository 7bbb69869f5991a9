import CMsgQueue.Lib.Runs
import CMsgQueue.Store.RingStore

/-!
# The message ring as a queue

Over whole runs `store/cmq_store.c` is a bounded queue of numbered messages: a put appends, and
only the oldest message ever leaves.
-/

namespace CMsgQueue.Store

/-- The loop of `store_truncate_impl`; what it does to the first message is what
`store_evict_seq_impl` does. -/
def truncateLoop (beforeSeq : Nat) : Nat → CmqStore → CmqStore
  | 0, store => store
  | fuel + 1, store =>
    if store.count = 0 ∨ store.firstSeq ≥ beforeSeq then store
    else
      match cmqStoreEvictSeq store store.firstSeq with
      | none => store
      | some store => truncateLoop beforeSeq fuel store

/-- `store_truncate_impl`. -/
def cmqStoreTruncate (store : CmqStore) (beforeSeq : Nat) : CmqStore :=
  if beforeSeq ≤ 1 then store else truncateLoop beforeSeq store.count store

inductive StoreCall where
  | put (nowMs : Nat) (data : Bytes)
  | get (seq : Nat)
  | truncate (beforeSeq : Nat)
  | evictSeq (seq : Nat)
  deriving DecidableEq

inductive StoreAnswer where
  | assigned (seq : Nat)
  | message (found : Option Stamped)
  | done (ok : Bool)
  deriving DecidableEq

def CmqStore.call (store : CmqStore) : StoreCall → CmqStore × StoreAnswer
  | .put nowMs data =>
    ((cmqStorePutOwned store nowMs data).1, .assigned (cmqStorePutOwned store nowMs data).2)
  | .get seq => (store, .message (cmqStoreGet store seq))
  | .truncate beforeSeq => (cmqStoreTruncate store beforeSeq, .done true)
  | .evictSeq seq =>
    ((cmqStoreEvictSeq store seq).getD store, .done (cmqStoreEvictSeq store seq).isSome)

/-- A queue: the messages behind the first `dropped` ones. -/
structure StoreFifo where
  dropped : Nat
  messages : List Stamped
  deriving DecidableEq

namespace StoreFifo

def last (fifo : StoreFifo) : Nat := fifo.dropped + fifo.messages.length

def drop (fifo : StoreFifo) (n : Nat) : StoreFifo :=
  ⟨fifo.dropped + min n fifo.messages.length, fifo.messages.drop n⟩

def push (cap : Nat) (fifo : StoreFifo) (message : Stamped) : StoreFifo :=
  let fifo := if fifo.messages.length < cap then fifo else fifo.drop 1
  { fifo with messages := fifo.messages ++ [message] }

def call (cap : Nat) (fifo : StoreFifo) : StoreCall → StoreFifo × StoreAnswer
  | .put nowMs data =>
    if data.length = 0 ∨ data.length > storeMaxLen ∨ fifo.last + 1 = uint64Max then
      (fifo, .assigned 0)
    else (fifo.push cap (data, nowMs), .assigned (fifo.last + 1))
  | .get seq =>
    (fifo, .message (if fifo.dropped < seq then fifo.messages[seq - fifo.dropped - 1]? else none))
  | .truncate beforeSeq => (fifo.drop (beforeSeq - 1 - fifo.dropped), .done true)
  | .evictSeq seq =>
    if fifo.messages ≠ [] ∧ seq = fifo.dropped + 1 then (fifo.drop 1, .done true)
    else (fifo, .done false)

lemma drop_zero (fifo : StoreFifo) : fifo.drop 0 = fifo := by
  simp [drop]

lemma drop_cons (dropped n : Nat) (message : Stamped) (messages : List Stamped) :
    drop ⟨dropped, message :: messages⟩ (n + 1) = drop ⟨dropped + 1, messages⟩ n := by
  simp only [drop, List.length_cons, List.drop_succ_cons, StoreFifo.mk.injEq, and_true]
  omega

end StoreFifo

def CmqStore.Holds (cap : Nat) (store : CmqStore) (fifo : StoreFifo) : Prop :=
  store.Keeps cap fifo.dropped fifo.messages

namespace CmqStore.Holds

lemma put (holds : Holds cap store fifo) (nowMs : Nat) (data : Bytes) :
    (store.call (.put nowMs data)).2 = (fifo.call cap (.put nowMs data)).2 ∧
      Holds cap (store.call (.put nowMs data)).1 (fifo.call cap (.put nowMs data)).1 := by
  have head : store.headSeq = fifo.last + 1 := holds.headSeq_eq
  simp only [call, StoreFifo.call, cmqStorePutOwned, head]
  split
  · exact ⟨rfl, holds⟩
  refine ⟨rfl, ?_⟩
  rw [← head, StoreFifo.push]
  by_cases room : fifo.messages.length < cap
  · rw [if_pos room]
    exact holds.put_room (data, nowMs) room
  rw [if_neg room]
  have capped := holds.length_le
  obtain ⟨_, _ | ⟨_, messages⟩⟩ := fifo
  · exact absurd holds.positive room
  rw [StoreFifo.drop_cons]
  exact Keeps.put_full holds (data, nowMs) (Nat.le_antisymm capped (Nat.not_lt.mp room))

lemma evict (holds : Holds cap store fifo) (seq : Nat) :
    (store.call (.evictSeq seq)).2 = (fifo.call cap (.evictSeq seq)).2 ∧
      Holds cap (store.call (.evictSeq seq)).1 (fifo.call cap (.evictSeq seq)).1 := by
  have first := holds.firstSeq_eq
  have count := holds.count_eq
  simp only [call, StoreFifo.call]
  split
  next found =>
    obtain ⟨_, _ | ⟨_, messages⟩⟩ := fifo
    · exact absurd rfl found.1
    obtain ⟨_, evicted, kept⟩ := Keeps.cmqStoreEvictSeq_first holds
    rw [found.2, evicted, StoreFifo.drop_cons]
    exact ⟨rfl, kept⟩
  next other =>
  have refused : cmqStoreEvictSeq store seq = none := by
    rw [cmqStoreEvictSeq, if_pos]
    by_cases empty : fifo.messages = []
    · exact .inr (.inl (by rw [count, empty]; rfl))
    rw [first, if_neg empty]
    exact .inr (.inr fun same => other ⟨empty, same⟩)
  rw [refused]
  exact ⟨rfl, holds⟩

lemma truncateLoop (beforeSeq : Nat) (holds : Holds cap store ⟨dropped, messages⟩) :
    Holds cap (truncateLoop beforeSeq messages.length store)
      (StoreFifo.drop ⟨dropped, messages⟩ (beforeSeq - 1 - dropped)) := by
  induction messages generalizing store dropped with
  | nil => simpa [StoreFifo.drop, Store.truncateLoop] using holds
  | cons _ messages ih =>
    have first : store.firstSeq = dropped + 1 := by
      rw [holds.firstSeq_eq, if_neg (List.cons_ne_nil _ _)]
    have count : store.count = messages.length + 1 := holds.count_eq
    rw [List.length_cons, Store.truncateLoop, first]
    by_cases reached : beforeSeq ≤ dropped + 1
    · rw [if_pos (.inr reached), show beforeSeq - 1 - dropped = 0 by omega, StoreFifo.drop_zero]
      exact holds
    obtain ⟨_, evicted, kept⟩ := Keeps.cmqStoreEvictSeq_first holds
    rw [if_neg (by omega), evicted,
      show beforeSeq - 1 - dropped = beforeSeq - 1 - (dropped + 1) + 1 by omega,
      StoreFifo.drop_cons]
    exact ih kept

lemma simulates (holds : Holds cap store fifo) (event : StoreCall) :
    (store.call event).2 = (fifo.call cap event).2 ∧
      Holds cap (store.call event).1 (fifo.call cap event).1 := by
  cases event with
  | put nowMs data => exact holds.put nowMs data
  | evictSeq seq => exact holds.evict seq
  | get seq =>
    refine ⟨congrArg StoreAnswer.message ?_, holds⟩
    rw [cmqStoreGet, Keeps.slot?_eq holds]
    split
    · rw [Option.map_map]
      exact Option.map_id'
    rfl
  | truncate beforeSeq =>
    refine ⟨rfl, ?_⟩
    simp only [call, StoreFifo.call, cmqStoreTruncate]
    split
    · rw [show beforeSeq - 1 - fifo.dropped = 0 by omega]
      exact holds
    rw [Keeps.count_eq holds]
    exact truncateLoop beforeSeq holds

end CmqStore.Holds

/-- A new store answers every run of calls as a queue of its capacity does, and its numbers span
the messages in the queue. -/
theorem CmqStore.run_eq_fifo {capacity : Nat} {store : CmqStore}
    (created : cmqStoreCreate capacity = some store) (calls : List StoreCall) :
    let queue := StoreFifo.call (if capacity = 0 then 1024 else capacity)
    let after := Runs.after CmqStore.call store calls
    let fifo := Runs.after queue ⟨0, []⟩ calls
    Runs.answers CmqStore.call store calls = Runs.answers queue ⟨0, []⟩ calls ∧
      after.count = fifo.messages.length ∧
      (after.count ≠ 0 → after.firstSeq = fifo.dropped + 1 ∧ after.lastSeq = fifo.last ∧
        after.count = after.lastSeq - after.firstSeq + 1) := by
  intro queue after fifo
  have simulates : ∀ s t event, Holds (if capacity = 0 then 1024 else capacity) s t →
      (s.call event).2 = (queue t event).2 ∧ Holds _ (s.call event).1 (queue t event).1 :=
    fun _ _ event holds => holds.simulates event
  have started : Holds _ store ⟨0, []⟩ := cmqStoreCreate_keeps created
  obtain ⟨same, holds⟩ := Runs.answers_eq_of_simulation simulates started calls
  refine ⟨same, holds.count_eq, fun some => ?_⟩
  have kept : fifo.messages ≠ [] := by
    intro empty
    exact some (by rw [holds.count_eq]; exact congrArg List.length empty)
  have first : after.firstSeq = fifo.dropped + 1 := holds.firstSeq_eq.trans (if_neg kept)
  have last : after.lastSeq = fifo.last := holds.lastSeq_eq.trans (if_neg kept)
  have count : after.count = fifo.messages.length := holds.count_eq
  refine ⟨first, last, ?_⟩
  rw [last, StoreFifo.last]
  omega

/-- Two slots: behind a truncation the fourth message takes the slot of the second. -/
theorem CmqStore.run_eq_fifo_two :
    Runs.answers CmqStore.call ⟨List.replicate 2 .zeroed, 1, 0⟩
        [.put 0 [1], .put 0 [2], .put 0 [3], .truncate 3, .put 0 [4], .get 2, .get 4] =
      [.assigned 1, .assigned 2, .assigned 3, .done true, .assigned 4, .message none,
        .message (some ([4], 0))] :=
  (CmqStore.run_eq_fifo (show cmqStoreCreate 2 = some _ from rfl) _).1.trans (by decide)

end CMsgQueue.Store
