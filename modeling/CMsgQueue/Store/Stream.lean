import CMsgQueue.Store.RingStore

/-!
# Streams

`store/cmq_stream.c`: a message ring with consumers.  A consumer has one watermark, and one for
each hash partition once the stream has several.
-/

namespace CMsgQueue.Store

open RingBuffer

/-- `CMQ_MAX_CONSUMERS`. -/
def cmqMaxConsumers : Nat := 64
/-- `CMQ_MAX_NAME`. -/
def cmqMaxName : Nat := 128
/-- `CMQ_STREAM_MAX_PARTS`. -/
def cmqStreamMaxParts : Nat := 16

/-- `cmq_consumer_entry_t`. -/
structure ConsumerEntry where
  name : Bytes
  ackedSeq : Nat
  ackedPart : Vector Nat cmqStreamMaxParts
  deriving DecidableEq

/-- `struct cmq_stream`, apart from its name and the path of its cursors; `msgPart` is empty
where the source has a null pointer, and `part_cap` is its length. -/
structure CmqStream where
  store : CmqStore
  consumers : List ConsumerEntry
  maxMsgs : Nat
  maxBytes : Nat
  totalBytes : Nat
  nparts : Nat
  msgPart : List Nat
  deriving DecidableEq

/-- `cmq_stream_create`; `none` is a null pointer. -/
def cmqStreamCreate (name : Bytes) (maxMsgs maxBytes : Nat) : Option CmqStream :=
  let maxMsgs := if maxMsgs > 0 then maxMsgs else 1024
  if name.length ≥ cmqMaxName then none
  else (cmqStoreCreate maxMsgs).map fun store => ⟨store, [], maxMsgs, maxBytes, 0, 1, []⟩

namespace ConsumerEntry

def acked (entry : ConsumerEntry) (part : Nat) : Nat := entry.ackedPart[part]?.getD 0

/-- `consumer_init_parts`. -/
def initParts (entry : ConsumerEntry) (seq : Nat) : ConsumerEntry :=
  { entry with ackedSeq := seq, ackedPart := Vector.replicate cmqStreamMaxParts seq }

/-- The smallest watermark of the first partitions, as the loop of `consumer_sync_acked`
finds it. -/
def lowest (entry : ConsumerEntry) (nparts : Nat) : Nat :=
  (List.range nparts).foldl
    (fun lowest part => if entry.acked part < lowest then entry.acked part else lowest)
    (entry.acked 0)

/-- `consumer_sync_acked`. -/
def syncAcked (entry : ConsumerEntry) (nparts : Nat) : ConsumerEntry :=
  if nparts ≤ 1 then entry else { entry with ackedSeq := entry.lowest nparts }

/-- The watermark of a partition is raised to `seq`. -/
def raisePart (entry : ConsumerEntry) (part seq : Nat) : ConsumerEntry :=
  if seq > entry.acked part then
    { entry with ackedPart := entry.ackedPart.setIfInBounds part seq }
  else entry

/-- The only watermark of a stream without partitions is raised to `seq`. -/
def raise (entry : ConsumerEntry) (seq : Nat) : ConsumerEntry :=
  if seq > entry.ackedSeq then { entry with ackedSeq := seq } else entry

end ConsumerEntry

namespace CmqStream

/-- `part_at_locked`. -/
def partAt (stream : CmqStream) (seq : Nat) : Nat :=
  if stream.nparts ≤ 1 ∨ seq = 0 then 0 else (cell? stream.msgPart seq).getD 0

def consumer? (stream : CmqStream) (name : Bytes) : Option ConsumerEntry :=
  stream.consumers.find? fun entry => entry.name == name

def updateConsumer (stream : CmqStream) (name : Bytes)
    (change : ConsumerEntry → ConsumerEntry) : CmqStream :=
  { stream with
    consumers := stream.consumers.modify
      (stream.consumers.findIdx fun entry => entry.name == name) change }

end CmqStream

/-- `parts_alloc_locked`; the allocation succeeds. -/
def partsAlloc (stream : CmqStream) (n : Nat) : Option CmqStream :=
  if n < 1 ∨ n > cmqStreamMaxParts then none
  else if n = 1 then some { stream with msgPart := [], nparts := 1 }
  else some { stream with msgPart := List.replicate stream.maxMsgs 0, nparts := n }

/-- `cmq_stream_set_partitions`: the stream, and whether 0 is returned. -/
def cmqStreamSetPartitions (stream : CmqStream) (n : Nat) : CmqStream × Bool :=
  if n < 1 ∨ n > cmqStreamMaxParts then (stream, false)
  else if stream.nparts = n then (stream, true)
  else if stream.store.lastSeq ≠ 0 then (stream, false)
  else
    match partsAlloc stream n with
    | none => (stream, false)
    | some stream =>
      ({ stream with
        consumers := stream.consumers.map fun entry => entry.initParts entry.ackedSeq }, true)

/-- `stream_add_consumer_impl`. -/
def streamAddConsumer (stream : CmqStream) (name : Bytes) : CmqStream × Bool :=
  if name.length = 0 ∨ name.length ≥ cmqMaxName then (stream, false)
  else if (stream.consumer? name).isSome then (stream, true)
  else if stream.consumers.length ≥ cmqMaxConsumers then (stream, false)
  else
    let first := stream.store.firstSeq
    let entry : ConsumerEntry := ⟨name, 0, Vector.replicate cmqStreamMaxParts 0⟩
    let entry := entry.initParts (if first > 0 then first - 1 else 0)
    ({ stream with consumers := stream.consumers ++ [entry] }, true)

/-- `stream_remove_consumer_impl`. -/
def streamRemoveConsumer (stream : CmqStream) (name : Bytes) : CmqStream × Bool :=
  if (stream.consumer? name).isSome then
    ({ stream with consumers := stream.consumers.eraseP fun entry => entry.name == name }, true)
  else (stream, false)

/-- `stream_consumer_next_impl`; 0 if there is no message left. -/
def streamConsumerNext (stream : CmqStream) (name : Bytes) : Nat :=
  match stream.consumer? name with
  | none => 0
  | some entry =>
    let next := entry.ackedSeq + 1
    let first := stream.store.firstSeq
    let last := stream.store.lastSeq
    let next := if first > 0 ∧ next < first then first else next
    if last = 0 ∨ next > last then 0 else next

def ackInside (stream : CmqStream) (seq : Nat) : Bool :=
  let last := stream.store.lastSeq
  let first := stream.store.firstSeq
  !(decide (seq = 0) || decide (seq > last) || (decide (first > 0) && decide (seq < first)))

def ackEntry (stream : CmqStream) (seq : Nat) (entry : ConsumerEntry) : ConsumerEntry :=
  let entry := entry.raise seq
  if stream.nparts > 1 then
    let part := stream.partAt seq
    let entry := if part < stream.nparts then entry.raisePart part seq else entry
    entry.syncAcked stream.nparts
  else entry

/-- `stream_consumer_ack_impl`. -/
def streamConsumerAck (stream : CmqStream) (name : Bytes) (seq : Nat) : CmqStream × Bool :=
  if ackInside stream seq = false ∨ (stream.consumer? name).isNone then (stream, false)
  else (stream.updateConsumer name (ackEntry stream seq), true)

/-- The loop of `stream_consumer_next_part_impl` from a number on. -/
def nextInPart (stream : CmqStream) (part : Nat) : (rounds seq : Nat) → Nat
  | 0, _ => 0
  | rounds + 1, seq =>
    if stream.partAt seq = part then seq else nextInPart stream part rounds (seq + 1)

/-- `stream_consumer_next_part_impl`. -/
def streamConsumerNextPart (stream : CmqStream) (name : Bytes) (part : Nat) : Nat :=
  if part ≥ stream.nparts then 0
  else
    match stream.consumer? name with
    | none => 0
    | some entry =>
      let acked := if stream.nparts > 1 then entry.acked part else entry.ackedSeq
      let start := acked + 1
      let first := stream.store.firstSeq
      let last := stream.store.lastSeq
      let start := if first > 0 ∧ start < first then first else start
      if last = 0 ∨ start > last then 0
      else if stream.nparts ≤ 1 then start
      else nextInPart stream part (last + 1 - start) start

/-- What an acknowledgement in a partition does to the entry of its consumer. -/
def ackPartEntry (stream : CmqStream) (part seq : Nat) (entry : ConsumerEntry) : ConsumerEntry :=
  if stream.nparts > 1 then (entry.raisePart part seq).syncAcked stream.nparts
  else entry.raise seq

/-- `stream_consumer_ack_part_impl`. -/
def streamConsumerAckPart (stream : CmqStream) (name : Bytes) (part seq : Nat) :
    CmqStream × Bool :=
  if part ≥ stream.nparts ∨ ackInside stream seq = false ∨
      (stream.nparts > 1 ∧ stream.partAt seq ≠ part) ∨ (stream.consumer? name).isNone then
    (stream, false)
  else (stream.updateConsumer name (ackPartEntry stream part seq), true)

/-- `cmq_stream_partition_of`: FNV-1a, for a key that is not empty. -/
def cmqStreamPartitionOf (key : Bytes) (n : Nat) : Nat :=
  if key.length = 0 ∨ n < 1 then 0
  else
    (key.foldl (fun (hash : UInt32) byte => (hash ^^^ byte.toUInt32) * 16777619)
      2166136261).toNat % n

/-- One floor of `consumer_floor_locked`. -/
def floorOf (first last acked : Nat) : Nat :=
  let acked := if acked > last then last else acked
  let floor := acked + 1
  if first > 0 ∧ floor < first then first else floor

/-- `consumer_floor_locked`. -/
def consumerFloor (stream : CmqStream) (entry : ConsumerEntry) (first last : Nat) : Nat :=
  if stream.nparts ≤ 1 then floorOf first last entry.ackedSeq
  else
    (List.range stream.nparts).foldl
      (fun floor part =>
        let f := floorOf first last (entry.acked part)
        if f < floor then f else floor)
      uint64Max

/-- The slowest consumer's floor, as the loop of `stream_append_impl` finds it. -/
def retainFloor (stream : CmqStream) : Nat :=
  let last := stream.store.lastSeq
  let first := stream.store.firstSeq
  stream.consumers.foldl
    (fun retain entry =>
      let floor := consumerFloor stream entry first last
      if floor < retain then floor else retain)
    uint64Max

/-- Whether `len` further bytes would exceed the byte limit. -/
def overBytes (stream : CmqStream) (len : Nat) : Bool :=
  stream.totalBytes ≥ stream.maxBytes || stream.totalBytes ≥ sizeMax ||
    len > sizeMax - stream.totalBytes || stream.totalBytes + len > stream.maxBytes

/-- The eviction loop of `stream_append_impl`, from a number on. -/
def evictBytes (len floor : Nat) : (rounds first : Nat) → CmqStream → CmqStream
  | 0, _, stream => stream
  | rounds + 1, first, stream =>
    if overBytes stream len = false ∨ first ≥ floor then stream
    else
      match cmqStoreSeqLen stream.store first, cmqStoreEvictSeq stream.store first with
      | some mlen, some store =>
        evictBytes len floor rounds (first + 1)
          { stream with store, totalBytes := stream.totalBytes - mlen }
      | _, _ => stream

/-- The byte limit of `stream_append_impl`: the stream after the evictions, and whether there
is room for the message. -/
def makeRoom (stream : CmqStream) (len floor : Nat) : CmqStream × Bool :=
  if stream.maxBytes > 0 ∧ overBytes stream len = true then
    let first := stream.store.firstSeq
    let last := stream.store.lastSeq
    let stream := evictBytes len floor (last + 1 - first) first stream
    (stream, !overBytes stream len)
  else (stream, true)

/-- What is subtracted from the bytes when the ring wraps; `none` if the append is refused. -/
def wrapDebit (stream : CmqStream) (floor : Nat) : Option Nat :=
  if stream.store.count ≥ stream.maxMsgs then
    if stream.store.firstSeq ≥ floor then none
    else cmqStoreSeqLen stream.store stream.store.firstSeq
  else some 0

/-- The bytes after a message of length `len` took the place of `debit` bytes. -/
def creditBytes (total debit len : Nat) : Nat :=
  let total := total - debit
  if len > sizeMax - total then sizeMax else total + len

/-- `stream_append_impl` at a time: the stream, and the number of the message, 0 if it is
refused. -/
def streamAppend (stream : CmqStream) (nowMs : Nat) (data : Bytes) (part : Nat) :
    CmqStream × Nat :=
  if data.length = 0 then (stream, 0)
  else
    let floor := retainFloor stream
    let room := makeRoom stream data.length floor
    let stream := room.1
    if room.2 = false then (stream, 0)
    else
      match wrapDebit stream floor with
      | none => (stream, 0)
      | some debit =>
        let put := cmqStorePutOwned stream.store nowMs data
        if put.2 = 0 then (stream, 0)
        else
          ({ stream with
            store := put.1
            msgPart := write stream.msgPart put.2 (part % 256)
            totalBytes := creditBytes stream.totalBytes debit data.length }, put.2)

/-- `cmq_stream_append`. -/
def cmqStreamAppend (stream : CmqStream) (nowMs : Nat) (data : Bytes) : CmqStream × Nat :=
  streamAppend stream nowMs data 0

/-- `cmq_stream_append_key`. -/
def cmqStreamAppendKey (stream : CmqStream) (nowMs : Nat) (key data : Bytes) : CmqStream × Nat :=
  if key.length = 0 then (stream, 0)
  else
    let part := if stream.nparts > 1 then cmqStreamPartitionOf key stream.nparts else 0
    streamAppend stream nowMs data part

end CMsgQueue.Store
