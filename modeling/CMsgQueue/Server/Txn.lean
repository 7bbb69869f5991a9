import CMsgQueue.Lib.File
import CMsgQueue.Lib.SlotTable
import CMsgQueue.Server.Publish

/-!
# The transaction coordinator of `server/cmq_txn.c`

A commit appends a record to the log `cmq.txn`, if there is one, enters the transaction in the
array `done`, frees its slot and only then hands the operations to a callback.  A callback is
given by what it returns for the operation with a certain index.
-/

namespace CMsgQueue.Server

open List SlotTable

/-- `CMQ_TXN_MAX`. -/
def cmqTxnMax : Nat := 32
/-- `CMQ_TXN_OPS`. -/
def cmqTxnOps : Nat := 8
/-- `CMQ_TXN_PARTS`. -/
def cmqTxnParts : Nat := 8
/-- `CMQ_TXN_SUB_MAX`. -/
def cmqTxnSubMax : Nat := 128
/-- `CMQ_TXN_PAY_MAX`. -/
def cmqTxnPayMax : Nat := 1024
/-- The length of the array `done`. -/
def txnDoneMax : Nat := 256

/-- `cmq_txn_op_t` with what `cmq_txn_add` has checked. -/
structure CmqTxnOp where
  subject : Bytes
  data : Bytes
  safe : txnTokenSafe subject = true
  small : data.length ≤ cmqTxnPayMax
  short : subject.length < cmqTxnSubMax
  deriving DecidableEq

/-- The checks at the start of `cmq_txn_add`: the operation or a return value. -/
def CmqTxnOp.check (subject data : Bytes) : Except Int CmqTxnOp :=
  if safe : txnTokenSafe subject = true then
    if small : data.length ≤ cmqTxnPayMax then
      if short : subject.length < cmqTxnSubMax then .ok ⟨subject, data, safe, small, short⟩
      else .error (-1)
    else .error (-3)
  else .error (-1)

lemma CmqTxnOp.error_ne_zero {subject data : Bytes} {ret : Int}
    (refused : check subject data = .error ret) : ret ≠ 0 := by
  unfold check at refused
  split at refused
  · split at refused
    · split at refused
      · cases refused
      cases refused
      decide
    cases refused
    decide
  cases refused
  decide

/-- The node and the vote of a participant; without a vote the array `votes` holds 0, with one
it holds 1 for yes and 2 for no. -/
structure TxnPart where
  node : Bytes
  vote : Option Bool
  deriving DecidableEq

/-- `cmq_txn_slot_t` in use, without the number of the transaction. -/
structure CmqTxnSlot where
  prepared : Bool
  parts : List TxnPart
  ops : List CmqTxnOp
  parts_le : parts.length ≤ cmqTxnParts
  ops_le : ops.length ≤ cmqTxnOps
  deriving DecidableEq

namespace CmqTxnSlot

/-- A slot right after `cmq_txn_begin`. -/
def zero : CmqTxnSlot := ⟨false, [], [], Nat.zero_le _, Nat.zero_le _⟩

/-- The operation that `cmq_txn_add` stores, if there is room for it. -/
def push (slot : CmqTxnSlot) (op : CmqTxnOp) : CmqTxnSlot :=
  if room : slot.ops.length < cmqTxnOps then
    { slot with
      ops := slot.ops ++ [op]
      ops_le := by rw [length_append]; exact room }
  else slot

/-- The participant that `cmq_txn_add_part` stores, if there is room for it. -/
def join (slot : CmqTxnSlot) (node : Bytes) : CmqTxnSlot :=
  if room : slot.parts.length < cmqTxnParts then
    { slot with
      parts := slot.parts ++ [⟨node, none⟩]
      parts_le := by rw [length_append]; exact room }
  else slot

def cast (slot : CmqTxnSlot) (node : Bytes) (yes : Bool) : CmqTxnSlot :=
  { slot with
    parts := slot.parts.modify (slot.parts.findIdx (·.node == node)) ({ · with vote := some yes })
    parts_le := by rw [length_modify]; exact slot.parts_le }

/-- `txn_all_yes_slot`. -/
def txnAllYesSlot (slot : CmqTxnSlot) : Bool :=
  !slot.parts.isEmpty && slot.parts.all (·.vote == some true)

/-- The check of the votes in `cmq_txn_commit`. -/
def mayCommit (slot : CmqTxnSlot) : Bool :=
  slot.parts.isEmpty || (slot.prepared && slot.txnAllYesSlot)

end CmqTxnSlot

/-- `struct cmq_txn`. -/
structure CmqTxn where
  slots : List (Option (UInt64 × CmqTxnSlot))
  done : List UInt64
  /-- Whether `log_path` is set. -/
  logged : Bool
  slots_length : slots.length = cmqTxnMax
  distinct : (slots.reduceOption.map Prod.fst).Nodup
  done_le : done.length ≤ txnDoneMax
  done_nodup : done.Nodup
  deriving DecidableEq

namespace CmqTxn

/-- `cmq_txn_create`. -/
def create : CmqTxn where
  slots := List.replicate cmqTxnMax none
  done := []
  logged := false
  slots_length := length_replicate
  distinct := by rw [reduceOption_replicate_none]; exact nodup_nil
  done_le := Nat.zero_le _
  done_nodup := nodup_nil

/-- `txn_find`. -/
def txnFind (t : CmqTxn) (id : UInt64) : Option Nat := t.slots.findIdx? (hasKey id)

/-- `txn_free_slot`. -/
def txnFreeSlot (t : CmqTxn) : Option Nat := t.slots.findIdx? Option.isNone

/-- `txn_done_has`. -/
def txnDoneHas (t : CmqTxn) (id : UInt64) : Bool := t.done.contains id

def slot (t : CmqTxn) (id : UInt64) : Option CmqTxnSlot := lookup t.slots id

lemma tabulates (t : CmqTxn) : Tabulates t.slots t.slot := tabulates_lookup t.distinct

lemma txnFind_none {t : CmqTxn} {id : UInt64} : t.txnFind id = none ↔ t.slot id = none :=
  t.tabulates.find_none

/-- `memset` of a slot to zero. -/
def clear (t : CmqTxn) (idx : Nat) : CmqTxn :=
  { t with
    slots := t.slots.set idx none
    slots_length := by rw [length_set]; exact t.slots_length
    distinct := nodup_set_none t.distinct idx }

def change (t : CmqTxn) (idx : Nat) (f : CmqTxnSlot → CmqTxnSlot) : CmqTxn :=
  { t with
    slots := t.slots.modify idx (Option.map (Prod.map id f))
    slots_length := by rw [length_modify]; exact t.slots_length
    distinct := by rw [keys_modify]; exact t.distinct }

lemma distinct_take {t : CmqTxn} {idx : Nat} {id : UInt64} (absent : t.txnFind id = none)
    (free : t.txnFreeSlot = some idx) :
    Tabulates (t.slots.set idx (some (id, .zero))) (Function.update t.slot id (some .zero)) := by
  obtain ⟨_, _, split, length⟩ := exists_of_find_free free
  have tabulates := t.tabulates
  rw [split] at tabulates
  rw [split, ← length, set_middle]
  exact tabulates.insert (txnFind_none.mp absent) .zero

def take (t : CmqTxn) (idx : Nat) (id : UInt64) (absent : t.txnFind id = none)
    (free : t.txnFreeSlot = some idx) : CmqTxn :=
  { t with
    slots := t.slots.set idx (some (id, .zero))
    slots_length := by rw [length_set]; exact t.slots_length
    distinct := (distinct_take absent free).distinct }

/-- The array `done` behind `txn_done_add`: an append, and an assignment once it is full. -/
def doneAdded (done : List UInt64) (id : UInt64) : List UInt64 :=
  if done.contains id then done
  else if done.length < txnDoneMax then done ++ [id]
  else done.set (done.length % txnDoneMax) id

lemma length_doneAdded {done : List UInt64} (le : done.length ≤ txnDoneMax) (id : UInt64) :
    (doneAdded done id).length ≤ txnDoneMax := by
  unfold doneAdded
  split
  · exact le
  split
  · rename_i room
    rw [length_append]
    exact room
  rw [length_set]
  exact le

lemma nodup_doneAdded {done : List UInt64} (nodup : done.Nodup) (id : UInt64) :
    (doneAdded done id).Nodup := by
  unfold doneAdded
  split
  · exact nodup
  rename_i absent
  rw [contains_iff_mem] at absent
  split
  · rw [← concat_eq_append]
    exact nodup.concat absent
  exact nodup.set absent

/-- `txn_done_add`. -/
def txnDoneAdd (t : CmqTxn) (id : UInt64) : CmqTxn :=
  { t with
    done := doneAdded t.done id
    done_le := length_doneAdded t.done_le id
    done_nodup := nodup_doneAdded t.done_nodup id }

def txnRecord (id : UInt64) : Bytes := 0x43 :: putBe 8 id.toNat

/-- What happens to a record on its way to the disk. -/
inductive LogWrite where
  | synced
  /-- `fopen`, `fwrite`, `fflush` or `fsync` fails with some bytes of the record in the file. -/
  | fails (count : Nat)
  deriving DecidableEq

/-- `txn_log_commit`: the file, and whether 0 is returned. -/
def txnLogCommit (t : CmqTxn) (file : File) (write : LogWrite) (id : UInt64) : File × Bool :=
  if t.logged = false then (file, true)
  else
    match write with
    | .fails count => ((file.append ((txnRecord id).take count)).getD file, false)
    | .synced =>
      match file.append (txnRecord id) with
      | some written => (written, true)
      | none => (file, false)

/-- The transaction of a record that `txn_log_load` has read. -/
def txnRecordId (rec_ : Bytes) : Option UInt64 :=
  if rec_.head? = some 0x43 then some (UInt64.ofNat (getBe (rec_.drop 1))) else none

/-- The loop of `txn_log_load` over a number of records. -/
def readRecords : Nat → Bytes → List UInt64
  | 0, _ => []
  | count + 1, bytes => (txnRecordId (bytes.take 9)).toList ++ readRecords count (bytes.drop 9)

/-- The transactions in the records that `txn_log_load` reads; it stops at a short one. -/
def logIds (bytes : Bytes) : List UInt64 := readRecords (bytes.length / 9) bytes

/-- `cmq_txn_set_log` with `txn_log_load`, for a directory that `txn_dir_safe` lets through. -/
def setLog (t : CmqTxn) (file : File) : CmqTxn :=
  (logIds file.bytes).foldl txnDoneAdd { t with logged := true }

/-- `cmq_txn_begin`. -/
def begin (t : CmqTxn) (id : UInt64) : CmqTxn × Int :=
  if id = 0 then (t, -1)
  else if t.txnDoneHas id then (t, -1)
  else
    match absent : t.txnFind id with
    | some _ => (t, 0)
    | none =>
      match free : t.txnFreeSlot with
      | none => (t, -2)
      | some idx => (t.take idx id absent free, 0)

/-- `cmq_txn_add`. -/
def add (t : CmqTxn) (id : UInt64) (subject data : Bytes) : CmqTxn × Int :=
  if id = 0 then (t, -1)
  else
    match CmqTxnOp.check subject data with
    | .error ret => (t, ret)
    | .ok op =>
      match t.txnFind id, t.slot id with
      | some idx, some slot =>
        if slot.prepared = false ∧ slot.ops.length < cmqTxnOps then
          (t.change idx (·.push op), 0)
        else (t, -1)
      | _, _ => (t, -1)

/-- The loop at the end of `cmq_txn_commit`: the operations that were applied and the return
value. -/
def applyLoop (fn : Nat → Int) : Nat → List CmqTxnOp → List CmqTxnOp × Int
  | _, [] => ([], 0)
  | i, op :: ops =>
    if fn i ≠ 0 then ([], -1)
    else
      let rest := applyLoop fn (i + 1) ops
      (op :: rest.1, rest.2)

def applyOps (fn : Option (Nat → Int)) (ops : List CmqTxnOp) : List CmqTxnOp × Int :=
  match fn with
  | none => ([], 0)
  | some fn => applyLoop fn 0 ops

structure CommitResult where
  txn : CmqTxn
  file : File
  /-- The operations for which the callback returned 0. -/
  applied : List CmqTxnOp
  ret : Int

/-- `cmq_txn_commit`; `fn` is none for a null pointer. -/
def commit (t : CmqTxn) (file : File) (write : LogWrite) (fn : Option (Nat → Int))
    (id : UInt64) : CommitResult :=
  if id = 0 then ⟨t, file, [], -1⟩
  else if t.txnDoneHas id then ⟨t, file, [], 0⟩
  else
    match t.txnFind id, t.slot id with
    | some idx, some slot =>
      if slot.mayCommit = false then ⟨t, file, [], -1⟩
      else
        let log := t.txnLogCommit file write id
        if log.2 = false then ⟨t, log.1, [], -1⟩
        else
          let loop := applyOps fn slot.ops
          ⟨(t.txnDoneAdd id).clear idx, log.1, loop.1, loop.2⟩
    | _, _ => ⟨t, file, [], -1⟩

/-- `cmq_txn_abort`. -/
def abort (t : CmqTxn) (id : UInt64) : CmqTxn × Int :=
  if id = 0 then (t, -1)
  else
    match t.txnFind id with
    | none => (t, -1)
    | some idx => (t.clear idx, 0)

/-- `cmq_txn_was_committed`. -/
def wasCommitted (t : CmqTxn) (id : UInt64) : Bool := id != 0 && t.txnDoneHas id

/-- `cmq_txn_add_part`. -/
def addPart (t : CmqTxn) (id : UInt64) (node : Bytes) : CmqTxn × Int :=
  if id = 0 ∨ txnTokenSafe node = false ∨ node.length ≥ cmqTxnNodeMax then (t, -1)
  else
    match t.txnFind id, t.slot id with
    | some idx, some slot =>
      if slot.parts.length < cmqTxnParts then
        if slot.parts.any (·.node == node) then (t, 0) else (t.change idx (·.join node), 0)
      else (t, -1)
    | _, _ => (t, -1)

/-- `cmq_txn_prepare`. -/
def prepare (t : CmqTxn) (id : UInt64) : CmqTxn × Int :=
  if id = 0 then (t, -1)
  else
    match t.txnFind id with
    | none => (t, -1)
    | some idx => (t.change idx ({ · with prepared := true }), 0)

/-- `cmq_txn_vote`. -/
def vote (t : CmqTxn) (id : UInt64) (node : Bytes) (yes : Bool) : CmqTxn × Int :=
  if id = 0 ∨ node = [] then (t, -1)
  else
    match t.txnFind id, t.slot id with
    | some idx, some slot =>
      if slot.parts.any (·.node == node) then (t.change idx (·.cast node yes), 0) else (t, -1)
    | _, _ => (t, -1)

end CmqTxn

end CMsgQueue.Server
