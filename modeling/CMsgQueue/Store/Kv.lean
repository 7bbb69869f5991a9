import CMsgQueue.Store.Filestore

/-!
# The last-value store of `store/cmq_kv.c`

With a file store attached every write is appended to the live log before it is applied, and
attaching replays the log.

The arrays `key` and `val` of a slot are adjacent.  A key of `CMQ_KV_KEY_MAX` bytes fills the
first of them, so its terminating NUL is written to the first byte of the value.
-/

namespace CMsgQueue.Store

/-- `CMQ_KV_KEY_MAX`. -/
def cmqKvKeyMax : Nat := 256

/-- `CMQ_KV_VAL_MAX`. -/
def cmqKvValMax : Nat := 1024

/-- `CMQ_KV_SLOTS_MAX`. -/
def cmqKvSlotsMax : Nat := 256

/-- `cmq_kv_slot_t`. -/
structure KvSlot where
  used : Bool
  keyLen : Nat
  valLen : Nat
  /-- The array `key` and behind it the array `val`. -/
  bytes : Bytes
  deriving DecidableEq

def KvSlot.zero : KvSlot := ⟨false, 0, 0, List.replicate (cmqKvKeyMax + cmqKvValMax) 0⟩

/-- The C string at `key`, which may run on into `val`. -/
def KvSlot.name (slot : KvSlot) : Bytes := slot.bytes.takeWhile (· != 0)

/-- The value in `val`. -/
def KvSlot.value (slot : KvSlot) : Bytes := (slot.bytes.drop cmqKvKeyMax).take slot.valLen

/-- `memcpy` to an offset of some memory. -/
def memcpy (bytes : Bytes) (offset : Nat) (data : Bytes) : Bytes :=
  bytes.take offset ++ (data ++ bytes.drop (offset + data.length))

/-- The slots of `struct cmq_kv` and their counter. -/
structure KvTable where
  slots : List KvSlot
  count : Nat
  deriving DecidableEq

/-- `struct cmq_kv`. -/
structure CmqKv extends KvTable where
  fs : Option CmqFilestore
  deriving DecidableEq

/-- The characters that `kv_key_safe` lets through. -/
def kvKeyChar (c : UInt8) : Bool :=
  (0x41 ≤ c && c ≤ 0x5A) || (0x61 ≤ c && c ≤ 0x7A) || (0x30 ≤ c && c ≤ 0x39) ||
    c == 0x5F || c == 0x2D || c == chDot

/-- `kv_key_safe`. -/
def kvKeySafe (key : Bytes) : Bool :=
  !key.isEmpty && decide (key.length ≤ cmqKvKeyMax) && key.all kvKeyChar

/-- `kv_find`. -/
def kvFind (table : KvTable) (key : Bytes) : Option Nat :=
  table.slots.findIdx? fun slot => slot.used && slot.name == key

/-- `kv_free_slot`. -/
def kvFreeSlot (table : KvTable) : Option Nat := table.slots.findIdx? fun slot => !slot.used

/-- The assignments to a slot at the end of `kv_apply`. -/
def KvSlot.fill (slot : KvSlot) (key val : Bytes) : KvSlot :=
  let key := key.take cmqKvKeyMax
  let bytes := memcpy slot.bytes 0 key
  let bytes := memcpy bytes key.length [0]
  ⟨true, key.length, val.length, memcpy bytes cmqKvKeyMax val⟩

/-- `kv_apply`. -/
def kvApply (table : KvTable) (key val : Bytes) : KvTable :=
  if val.length = 0 then
    match kvFind table key with
    | none => table
    | some idx => ⟨table.slots.set idx .zero, table.count - 1⟩
  else
    match kvFind table key with
    | some idx => { table with slots := table.slots.modify idx (·.fill key val) }
    | none =>
      match kvFreeSlot table with
      | none => table
      | some idx => ⟨table.slots.modify idx (·.fill key val), table.count + 1⟩

/-- The record that `kv_persist` writes. -/
def kvRecord (key val : Bytes) : Option Bytes :=
  cmqFilestoreKeyEncode (6 + cmqKvKeyMax + cmqKvValMax) (key.take cmqKvKeyMax) val

/-- `kv_persist`: the disk, the file store, and whether 0 is returned. -/
def kvPersist (disk : Disk) (fs : Option CmqFilestore) (nowMs : Nat) (key val : Bytes) :
    Disk × Option CmqFilestore × Bool :=
  match fs with
  | none => (disk, none, true)
  | some fs =>
    match kvRecord key val with
    | none => (disk, some fs, false)
    | some buf =>
      let result := filestoreAppend disk fs nowMs buf
      (result.disk, some result.fs, result.seq.isSome)

/-- What `kv_replay` does with the payload of a record. -/
def kvReplayRecord (table : KvTable) (data : Bytes) : KvTable :=
  match cmqFilestoreKeyDecode data with
  | none => table
  | some (k, v) =>
    if 0 < k.length ∧ k.length < cmqKvKeyMax then
      let key := k.takeWhile (· != 0)
      if kvKeySafe key = true ∧ v.length ≤ cmqKvValMax then kvApply table key v else table
    else table

/-- One round of `kv_replay`. -/
def kvReplayRound (files : Files) (state : KvTable × CmqFilestore) (seq : Nat) :
    KvTable × CmqFilestore :=
  let read := filestoreRead files state.2 seq
  match read.2 with
  | none => (state.1, read.1)
  | some data => (kvReplayRecord state.1 data, read.1)

/-- `kv_replay` with the file store it reads. -/
def kvReplay (files : Files) (table : KvTable) (fs : CmqFilestore) : KvTable × CmqFilestore :=
  let fs := refreshNextSeq files fs
  (List.range' 1 (fs.nextSeq - 1)).foldl (kvReplayRound files) (table, fs)

/-- A table of `cap` slots with all bytes zero. -/
def KvTable.fresh (cap : Nat) : KvTable := ⟨List.replicate cap .zero, 0⟩

/-- The number of slots that `cmq_kv_create` makes. -/
def kvCap (slots : Nat) : Nat := if slots = 0 then cmqKvSlotsMax else slots

/-- `cmq_kv_create`. -/
def cmqKvCreate (slots : Nat) : Option CmqKv :=
  if kvCap slots > cmqKvSlotsMax then none else some ⟨.fresh (kvCap slots), none⟩

/-- `cmq_kv_set_persist`: the disk, the store, and whether 0 is returned. -/
def cmqKvSetPersist (disk : Disk) (kv : CmqKv) : Disk × CmqKv × Bool :=
  match kv.fs with
  | some _ => (disk, kv, false)
  | none =>
    match cmqFilestoreCreate disk.live with
    | none => (disk, kv, false)
    | some (live, fs) =>
      let replayed := kvReplay live kv.toKvTable fs
      ({ disk with live }, ⟨replayed.1, some replayed.2⟩, true)

/-- `cmq_kv_put`: the disk, the store and the return value. -/
def cmqKvPut (disk : Disk) (kv : CmqKv) (nowMs : Nat) (key val : Bytes) : Disk × CmqKv × Int :=
  if !kvKeySafe key then (disk, kv, -1)
  else if val.length > cmqKvValMax then (disk, kv, -3)
  else if kvFind kv.toKvTable key = none ∧ kvFreeSlot kv.toKvTable = none then (disk, kv, -2)
  else
    match kvPersist disk kv.fs nowMs key val with
    | (disk, fs, false) => (disk, { kv with fs }, -1)
    | (disk, fs, true) => (disk, ⟨kvApply kv.toKvTable key val, fs⟩, 0)

/-- `cmq_kv_get`: the return value, and the value if that is 0. -/
def cmqKvGet (kv : CmqKv) (key : Bytes) (outSz : Nat) : Int × Option Bytes :=
  if !kvKeySafe key then (-1, none)
  else
    match kvFind kv.toKvTable key with
    | none => (-1, none)
    | some idx =>
      match kv.slots[idx]? with
      | none => (-1, none)
      | some slot => if outSz < slot.valLen then (-2, none) else (0, some slot.value)

/-- `cmq_kv_del`: the disk, the store and the return value. -/
def cmqKvDel (disk : Disk) (kv : CmqKv) (nowMs : Nat) (key : Bytes) : Disk × CmqKv × Int :=
  if !kvKeySafe key then (disk, kv, -1)
  else if kvFind kv.toKvTable key = none then (disk, kv, -1)
  else
    match kvPersist disk kv.fs nowMs key [] with
    | (disk, fs, false) => (disk, { kv with fs }, -1)
    | (disk, fs, true) => (disk, ⟨kvApply kv.toKvTable key [], fs⟩, 0)

/-- `cmq_kv_count`. -/
def cmqKvCount (kv : CmqKv) : Nat := kv.count

/-- A store with a table of the given size over a directory; `none` if one of the calls fails. -/
def kvOpen (slots : Nat) (disk : Disk) : Option (Disk × CmqKv) :=
  match cmqKvCreate slots with
  | none => none
  | some kv =>
    match cmqKvSetPersist disk kv with
    | (disk, kv, true) => some (disk, kv)
    | (_, _, false) => none

end CMsgQueue.Store
