import CMsgQueue.Lib.RingBuffer
import CMsgQueue.Store.Filestore

/-!
# The message ring

`store/cmq_store.c`: messages numbered from 1 on in a ring of fixed capacity.  Each call is one
step.  `store_get_impl` gives up the lock for its `malloc` and then makes its tests again, so what
it returns is what its second look finds; that the message may go in between, and then is missed,
is not part of the model.
-/

namespace CMsgQueue.Store

open Option List RingBuffer

/-- `cmq_store_slot_t`; the length is that of the data. -/
structure StoreSlot where
  seq : Nat
  data : Bytes
  timestampMs : Nat
  valid : Bool
  deriving DecidableEq

def StoreSlot.zeroed : StoreSlot := ⟨0, [], 0, false⟩

/-- `struct cmq_store`; the capacity is the length of the ring. -/
structure CmqStore where
  ring : List StoreSlot
  headSeq : Nat
  count : Nat
  deriving DecidableEq

/-- The largest payload, `16u * 1024 * 1024`. -/
def storeMaxLen : Nat := 16 * 1024 * 1024

/-- `sizeof(cmq_store_slot_t)`. -/
def sizeofStoreSlot : Nat := 40

/-- `cmq_store_create`; `none` is a null pointer.  The allocations succeed. -/
def cmqStoreCreate (capacity : Nat) : Option CmqStore :=
  let capacity := if capacity = 0 then 1024 else capacity
  if capacity > sizeMax / sizeofStoreSlot then none
  else some ⟨List.replicate capacity .zeroed, 1, 0⟩

namespace CmqStore

/-- `store_first_seq_impl`; 0 if the store is empty. -/
def firstSeq (store : CmqStore) : Nat :=
  if store.count > 0 then
    if store.headSeq > store.count then store.headSeq - store.count else 1
  else 0

/-- `store_last_seq_impl`; 0 if the store is empty. -/
def lastSeq (store : CmqStore) : Nat := if store.count > 0 then store.headSeq - 1 else 0

/-- The slot of a sequence number that is still in the ring, if it is valid. -/
def slot? (store : CmqStore) (seq : Nat) : Option StoreSlot :=
  let cap := store.ring.length
  let oldest := if store.headSeq > cap then store.headSeq - cap else 1
  if seq = 0 ∨ seq ≥ store.headSeq ∨ seq < oldest then none
  else (cell? store.ring seq).filter fun slot => slot.valid && slot.seq == seq

end CmqStore

/-- `store_put_owned_impl` at a time: the store and the number, 0 if it refuses. -/
def cmqStorePutOwned (store : CmqStore) (nowMs : Nat) (data : Bytes) : CmqStore × Nat :=
  if data.length = 0 ∨ data.length > storeMaxLen ∨ store.headSeq = uint64Max then (store, 0)
  else
    ({ ring := write store.ring store.headSeq ⟨store.headSeq, data, nowMs, true⟩
       headSeq := store.headSeq + 1
       count := if store.count < store.ring.length then store.count + 1 else store.count },
      store.headSeq)

/-- `store_get_impl`: the data and the time of a message. -/
def cmqStoreGet (store : CmqStore) (seq : Nat) : Option (Bytes × Nat) :=
  (store.slot? seq).map fun slot => (slot.data, slot.timestampMs)

/-- `store_seq_len_impl`. -/
def cmqStoreSeqLen (store : CmqStore) (seq : Nat) : Option Nat :=
  (store.slot? seq).map fun slot => slot.data.length

/-- `store_evict_seq_impl`; `none` is the return value -1. -/
def cmqStoreEvictSeq (store : CmqStore) (seq : Nat) : Option CmqStore :=
  if seq = 0 ∨ store.count = 0 ∨ seq ≠ store.firstSeq then none
  else
    match cell? store.ring seq with
    | none => none
    | some slot =>
      if slot.seq ≠ seq ∨ slot.valid = false then none
      else some { store with
        ring := write store.ring seq { slot with data := [], valid := false }
        count := store.count - 1 }

abbrev Stamped := Bytes × Nat

/-- The slots of messages numbered from `dropped + 1` on. -/
def slotsFrom : (dropped : Nat) → List Stamped → List StoreSlot
  | _, [] => []
  | dropped, message :: messages =>
    ⟨dropped + 1, message.1, message.2, true⟩ :: slotsFrom (dropped + 1) messages

@[simp] lemma length_slotsFrom (dropped : Nat) (messages : List Stamped) :
    (slotsFrom dropped messages).length = messages.length := by
  induction messages generalizing dropped with
  | nil => rfl
  | cons _ messages ih => simp [slotsFrom, ih]

lemma slotsFrom_append (dropped : Nat) (front back : List Stamped) :
    slotsFrom dropped (front ++ back) =
      slotsFrom dropped front ++ slotsFrom (dropped + front.length) back := by
  induction front generalizing dropped with
  | nil => rfl
  | cons _ front ih =>
    rw [cons_append, slotsFrom, ih, slotsFrom, cons_append, length_cons,
      show dropped + 1 + front.length = dropped + (front.length + 1) by omega]

lemma getElem?_slotsFrom (dropped : Nat) (messages : List Stamped) (i : Nat) :
    (slotsFrom dropped messages)[i]? =
      messages[i]?.map fun message => ⟨dropped + i + 1, message.1, message.2, true⟩ := by
  induction messages generalizing dropped i with
  | nil => rfl
  | cons message messages ih =>
    cases i with
    | zero => rfl
    | succ i =>
      rw [slotsFrom, getElem?_cons_succ, getElem?_cons_succ, ih]
      rw [show dropped + 1 + i + 1 = dropped + (i + 1) + 1 by omega]

/-- The store keeps `messages`, numbered from `dropped + 1` on, in `cap` slots. -/
structure CmqStore.Keeps (store : CmqStore) (cap dropped : Nat) (messages : List Stamped) :
    Prop where
  positive : 0 < cap
  length_ring : store.ring.length = cap
  count_eq : store.count = messages.length
  headSeq_eq : store.headSeq = dropped + messages.length + 1
  window : Window store.ring dropped (slotsFrom dropped messages)
  /-- The slot of a message that was dropped is invalid or taken by another one. -/
  stale : ∀ seq slot, 0 < seq → seq ≤ dropped → cell? store.ring seq = some slot →
    slot.valid = true → slot.seq ≠ seq

namespace CmqStore.Keeps

variable {store : CmqStore} {cap dropped : Nat} {messages : List Stamped}

section

variable (keeps : store.Keeps cap dropped messages)
include keeps

lemma length_le : messages.length ≤ cap := by
  simpa [keeps.length_ring] using keeps.window.length_le

lemma firstSeq_eq : store.firstSeq = if messages = [] then 0 else dropped + 1 := by
  unfold firstSeq
  rw [keeps.count_eq, keeps.headSeq_eq]
  cases messages with
  | nil => rfl
  | cons _ messages =>
    rw [if_pos (length_pos_of_mem mem_cons_self), if_pos (by omega), if_neg (cons_ne_nil _ _)]
    omega

lemma lastSeq_eq : store.lastSeq = if messages = [] then 0 else dropped + messages.length := by
  unfold lastSeq
  rw [keeps.count_eq, keeps.headSeq_eq]
  cases messages with
  | nil => rfl
  | cons _ messages =>
    rw [if_pos (length_pos_of_mem mem_cons_self), if_neg (cons_ne_nil _ _)]
    omega

lemma slot?_eq (seq : Nat) :
    store.slot? seq =
      if dropped < seq then
        messages[seq - dropped - 1]?.map fun message => ⟨seq, message.1, message.2, true⟩
      else none := by
  unfold slot?
  simp only [keeps.length_ring, keeps.headSeq_eq]
  have capped := keeps.length_le
  by_cases kept : dropped < seq
  · rw [if_pos kept]
    obtain ⟨i, rfl⟩ := Nat.exists_eq_add_of_lt kept
    rw [show dropped + i + 1 - dropped - 1 = i by omega]
    cases located : messages[i]? with
    | none =>
      have outside := getElem?_eq_none_iff.mp located
      rw [if_pos (.inr (.inl (by omega))), map_none]
    | some message =>
      have inside := (List.getElem?_eq_some_iff.mp located).1
      have slot := keeps.window.cell i _ (by rw [getElem?_slotsFrom, located, map_some])
      have young : ¬ dropped + i + 1 < (if dropped + messages.length + 1 > cap then
          dropped + messages.length + 1 - cap else 1) := by
        split <;> omega
      rw [if_neg (by omega), slot]
      simp
  rw [if_neg kept, ite_eq_left_iff]
  intro inside
  rw [filter_eq_none_iff]
  intro slot located accepted
  simp only [Bool.and_eq_true, beq_iff_eq] at accepted
  exact keeps.stale seq slot (by omega) (by omega) located accepted.1 accepted.2

end

lemma cmqStoreEvictSeq_first (keeps : store.Keeps cap dropped (message :: messages)) :
    ∃ store', cmqStoreEvictSeq store (dropped + 1) = some store' ∧
      store'.Keeps cap (dropped + 1) messages := by
  have slot := keeps.window.cell 0 _ rfl
  have ringed : 0 < store.ring.length := keeps.length_ring ▸ keeps.positive
  have room : messages.length < store.ring.length := by
    rw [keeps.length_ring]
    exact keeps.length_le
  have evicted : cmqStoreEvictSeq store (dropped + 1) = some { store with
      ring := write store.ring (dropped + 1) ⟨dropped + 1, [], message.2, false⟩
      count := store.count - 1 } := by
    rw [cmqStoreEvictSeq, if_neg, slot]
    · simp only
      rw [if_neg (by simp)]
    rw [keeps.firstSeq_eq, keeps.count_eq]
    simp
  refine ⟨_, evicted, keeps.positive, ?_, ?_, ?_, ?_, ?_⟩
  · simpa using keeps.length_ring
  · simp [keeps.count_eq]
  · simp only [keeps.headSeq_eq, length_cons]
    omega
  · exact Window.write_before (Window.tail keeps.window) _ (by simpa using room)
  intro seq other positive _ located valid
  simp only [cell?_write _ _ _ ringed] at located
  split at located
  · simp [← Option.some.inj located] at valid
  next apart =>
    have newer : seq ≠ dropped + 1 := fun same => apart (by rw [same])
    exact keeps.stale seq other positive (by omega) located valid

abbrev put (store : CmqStore) (message : Stamped) : CmqStore where
  ring := write store.ring store.headSeq ⟨store.headSeq, message.1, message.2, true⟩
  headSeq := store.headSeq + 1
  count := if store.count < store.ring.length then store.count + 1 else store.count

lemma put_room (keeps : store.Keeps cap dropped messages) (message : Stamped)
    (room : messages.length < cap) :
    Keeps (put store message) cap dropped (messages ++ [message]) := by
  have ringed : 0 < store.ring.length := keeps.length_ring ▸ keeps.positive
  refine ⟨keeps.positive, by simpa using keeps.length_ring, ?_, ?_, ?_, ?_⟩
  · simp [keeps.count_eq, keeps.length_ring, room]
  · simp only [keeps.headSeq_eq, length_append, length_singleton]
    omega
  · have window := keeps.window.concat ⟨store.headSeq, message.1, message.2, true⟩
      (by simpa [keeps.length_ring] using room)
    simpa [slotsFrom_append, slotsFrom, keeps.headSeq_eq] using window
  intro seq other positive old located valid
  simp only [cell?_write _ _ _ ringed] at located
  split at located
  next =>
    rw [← Option.some.inj located, keeps.headSeq_eq]
    simp only [ne_eq]
    omega
  exact keeps.stale seq other positive old located valid

lemma put_full (keeps : store.Keeps cap dropped (oldest :: messages)) (message : Stamped)
    (full : messages.length + 1 = cap) :
    Keeps (put store message) cap (dropped + 1) (messages ++ [message]) := by
  have ringed : 0 < store.ring.length := keeps.length_ring ▸ keeps.positive
  have head : store.headSeq = dropped + 1 + store.ring.length := by
    rw [keeps.headSeq_eq, keeps.length_ring, length_cons]
    omega
  refine ⟨keeps.positive, by simpa using keeps.length_ring, ?_, ?_, ?_, ?_⟩
  · simp [keeps.count_eq, keeps.length_ring, full]
  · simp only [head, keeps.length_ring, length_append, length_singleton]
    omega
  · have window := Window.turn keeps.window ⟨store.headSeq, message.1, message.2, true⟩
      (by simpa [keeps.length_ring] using full)
    have next : dropped + 1 + messages.length + 1 = store.headSeq := by
      rw [head, keeps.length_ring]
      omega
    rw [show dropped + store.ring.length + 1 = store.headSeq by omega] at window
    simpa [slotsFrom_append, slotsFrom, next] using window
  intro seq other positive _ located valid
  simp only [cell?_write _ _ _ ringed] at located
  split at located
  next =>
    rw [← Option.some.inj located]
    simp only [ne_eq]
    omega
  next apart =>
  have newer : seq ≠ dropped + 1 := fun same => apart (by
    rw [head, place_add_size (Nat.succ_pos _), same])
  exact keeps.stale seq other positive (by omega) located valid

end CmqStore.Keeps

lemma cmqStoreCreate_keeps (created : cmqStoreCreate capacity = some store) :
    store.Keeps (if capacity = 0 then 1024 else capacity) 0 [] := by
  simp only [cmqStoreCreate, ite_none_left_eq_some, Option.some.injEq] at created
  obtain ⟨-, rfl⟩ := created
  refine ⟨?_, by simp, rfl, rfl, Window.nil _ _, ?_⟩
  · split <;> omega
  intro _ _ _ _
  omega

end CMsgQueue.Store
